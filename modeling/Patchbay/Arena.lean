import Patchbay.Keyed

/-!
Arenas: values in slots, and a list of keys that says in which order they are gone through.

A key is the number of a slot. The slot of a value that was taken out stays empty, and new values
get new slots, so a key finds its own value or nothing. The first slot is never used.
-/

namespace Patchbay

structure Arena (α : Type) where
  slots : List (Option α) := [none]
  order : List Nat := []
  deriving DecidableEq, Repr, Inhabited

namespace Arena

variable {α : Type}

@[irreducible] def get? (a : Arena α) (key : Nat) : Option α := a.slots[key]?.join

def next (a : Arena α) : Nat := a.slots.length

/-- The keys of the order list with their values. One that finds nothing is passed over. -/
@[irreducible] def entries (a : Arena α) : Keyed α :=
  a.order.filterMap fun k => (a.get? k).map fun x => (k, x)

def update (a : Arena α) (key : Nat) (f : α → α) : Arena α :=
  { a with slots := a.slots.modify key (Option.map f) }

def mapValues (a : Arena α) (f : Nat → α → α) : Arena α :=
  { a with slots := a.slots.mapIdx fun k x => x.map (f k) }

def insert (a : Arena α) (x : α) : Arena α :=
  ⟨a.slots ++ [some x], a.order ++ [a.next]⟩

def remove (a : Arena α) (key : Nat) : Arena α :=
  match a.get? key with
  | none => a
  | some _ => ⟨a.slots.set key none, a.order.filter (· != key)⟩

/-- Takes a value out and puts a new one in its place in the order. -/
def replace (a : Arena α) (key : Nat) (x : α) : Arena α where
  slots := a.slots.set key none ++ [some x]
  order :=
    match a.order.findIdx? (· == key) with
    | some i => a.order.set i a.next
    | none => a.order ++ [a.next]

theorem get?_update (a : Arena α) (key k : Nat) (f : α → α) :
    get? (update a key f) k = if key = k then (get? a k).map f else get? a k := by
  simp only [get?, update, List.getElem?_modify]
  split <;> cases a.slots[k]? <;> simp

theorem get?_update_self {a : Arena α} {key : Nat} {f : α → α} :
    get? (update a key f) key = (get? a key).map f := by
  rw [get?_update, if_pos rfl]

theorem get?_update_ne {a : Arena α} {key other : Nat} {f : α → α} (h : other ≠ key) :
    get? (update a key f) other = get? a other := by
  rw [get?_update, if_neg h.symm]

end Arena

end Patchbay
