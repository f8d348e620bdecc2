/-!
Lists of values under numeric keys, in an order of their own.
-/

namespace Patchbay

abbrev Keyed (α : Type) := List (Nat × α)

namespace Keyed

variable {α β : Type}

def keys (xs : Keyed α) : List Nat := xs.map (·.1)

def get? : Keyed α → Nat → Option α
  | [], _ => none
  | (k, a) :: rest, key => if k = key then some a else get? rest key

def has (xs : Keyed α) (key : Nat) : Bool := (get? xs key).isSome

def update (xs : Keyed α) (key : Nat) (f : α → α) : Keyed α :=
  xs.map fun (k, a) => if k = key then (k, f a) else (k, a)

def mapValues (xs : Keyed α) (f : Nat → α → α) : Keyed α := xs.map fun (k, a) => (k, f k a)

def remove (xs : Keyed α) (key : Nat) : Keyed α := xs.filter (·.1 != key)

/-- Puts another key and value in the place of a key. -/
def replace (xs : Keyed α) (key newKey : Nat) (a : α) : Keyed α :=
  xs.map fun (k, b) => if k = key then (newKey, a) else (k, b)

theorem get?_update_self {xs : Keyed α} {key : Nat} {f : α → α} :
    get? (update xs key f) key = (get? xs key).map f := by
  induction xs with
  | nil => rfl
  | cons x rest ih =>
    obtain ⟨k, a⟩ := x
    simp only [update, List.map_cons] at ih ⊢
    by_cases h : k = key <;> simp [get?, h, ih]

theorem get?_update_ne {xs : Keyed α} {key other : Nat} {f : α → α} (h : other ≠ key) :
    get? (update xs key f) other = get? xs other := by
  induction xs with
  | nil => rfl
  | cons x rest ih =>
    obtain ⟨k, a⟩ := x
    simp only [update, List.map_cons] at ih ⊢
    by_cases hk : k = key
    · simp [get?, hk, h.symm, ih]
    · simp [get?, hk, ih]

@[simp] theorem keys_update (xs : Keyed α) (key : Nat) (f : α → α) :
    keys (update xs key f) = keys xs := by
  simp only [keys, update, List.map_map]
  refine List.map_congr_left fun x _ => ?_
  simp only [Function.comp]
  split <;> rfl

@[simp] theorem keys_mapValues (xs : Keyed α) (f : Nat → α → α) :
    keys (mapValues xs f) = keys xs := by
  simp only [keys, mapValues, List.map_map]
  rfl

theorem get?_eq_none_iff {xs : Keyed α} {key : Nat} : get? xs key = none ↔ key ∉ keys xs := by
  induction xs with
  | nil => simp [get?, keys]
  | cons x rest ih =>
    obtain ⟨k, a⟩ := x
    simp only [keys, get?, List.map_cons, List.mem_cons, not_or] at ih ⊢
    by_cases h : k = key
    · simp [h]
    · rw [if_neg h, ih]
      exact ⟨fun hm => ⟨fun e => h e.symm, hm⟩, fun hm => hm.2⟩

theorem mem_keys_remove {xs : Keyed α} {key k : Nat} :
    k ∈ keys (remove xs key) ↔ k ∈ keys xs ∧ k ≠ key := by
  simp only [keys, remove, List.mem_map, List.mem_filter, bne_iff_ne]
  constructor
  · rintro ⟨x, ⟨hx, hne⟩, rfl⟩
    exact ⟨⟨x, hx, rfl⟩, hne⟩
  · rintro ⟨⟨x, hx, rfl⟩, hne⟩
    exact ⟨x, ⟨hx, hne⟩, rfl⟩

end Keyed

end Patchbay
