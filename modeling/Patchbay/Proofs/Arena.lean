import Patchbay.Arena
import Patchbay.Proofs.Keyed

/-!
# Arenas and their order lists

What each operation leaves in the slots, and what that means for the list of keys and values that one
gets in the order of the keys. An arena is exact when its order list names each key in use once and
no other. Every operation keeps an arena exact.
-/

namespace Patchbay.Arena

open Keyed (keys)

variable {α : Type} {a b : Arena α} {x y : α} {k key : Nat}

theorem eq_of_slots (order : b.order = a.order) (slots : ∀ k : Nat, b.slots[k]? = a.slots[k]?) :
    b = a := by
  obtain ⟨xs, ks⟩ := a
  obtain ⟨ys, js⟩ := b
  exact congrArg₂ Arena.mk (List.ext_getElem? slots) order

@[simp] theorem get?_mapValues (a : Arena α) (f : Nat → α → α) (k : Nat) :
    (a.mapValues f).get? k = (a.get? k).map (f k) := by
  simp only [get?, mapValues, List.getElem?_mapIdx]
  cases a.slots[k]? <;> simp

theorem lt_next (found : a.get? k = some x) : k < a.next := by
  rw [get?, Option.join_eq_some_iff] at found
  exact (List.getElem?_eq_some_iff.1 found).1

theorem get?_insert (a : Arena α) (x : α) (k : Nat) :
    (a.insert x).get? k = if k = a.next then some x else a.get? k := by
  by_cases last : k = a.next
  · simp [get?, insert, last, next]
  · rw [if_neg last]
    rcases Nat.lt_or_gt_of_ne last with old | beyond
    · simp only [get?, insert]
      rw [List.getElem?_append_left old]
    · have far : ¬k < a.slots.length := Nat.not_lt.2 (Nat.le_of_lt beyond)
      have farther : ¬k < a.slots.length + 1 := Nat.not_lt.2 beyond
      simp [get?, insert, far, farther]

theorem get?_clear (slots : List (Option α)) (key k : Nat) :
    ((slots.set key none)[k]?).join = if k = key then none else (slots[k]?).join := by
  rw [List.getElem?_set]
  by_cases same : key = k
  · subst same
    simp only [if_true]
    split <;> rfl
  · rw [if_neg same, if_neg (Ne.symm same)]

theorem get?_remove (a : Arena α) (key k : Nat) :
    (a.remove key).get? k = if k = key then none else a.get? k := by
  cases found : a.get? key with
  | none =>
    simp only [remove, found]
    split
    · next same => rw [same, found]
    · rfl
  | some x =>
    simp only [remove, found]
    rw [get?, get?, get?_clear]

theorem get?_replace (a : Arena α) (key : Nat) (x : α) (k : Nat) :
    (a.replace key x).get? k
      = if k = a.next then some x else if k = key then none else a.get? k := by
  have inserted := get?_insert ⟨a.slots.set key none, []⟩ x k
  simp only [insert, next, List.length_set, get?, get?_clear] at inserted
  simp only [replace, next, get?, inserted]

@[simp] theorem next_update (a : Arena α) (key : Nat) (f : α → α) :
    (a.update key f).next = a.next := by
  simp [next, update]

@[simp] theorem next_mapValues (a : Arena α) (f : Nat → α → α) :
    (a.mapValues f).next = a.next := by
  simp [next, mapValues]

@[simp] theorem next_insert (a : Arena α) (x : α) : (a.insert x).next = a.next + 1 := by
  simp [next, insert]

@[simp] theorem next_remove (a : Arena α) (key : Nat) : (a.remove key).next = a.next := by
  rw [remove]
  split <;> simp [next]

@[simp] theorem next_replace (a : Arena α) (key : Nat) (x : α) :
    (a.replace key x).next = a.next + 1 := by
  simp [next, replace]

/-! ## The entries -/

theorem get?_reorder (a : Arena α) (order : List Nat) (k : Nat) :
    ({ a with order := order } : Arena α).get? k = a.get? k := by
  rw [get?, get?]

theorem mem_entries : (k, x) ∈ a.entries ↔ k ∈ a.order ∧ a.get? k = some x := by
  simp only [entries, List.mem_filterMap, Option.map_eq_some_iff, Prod.mk.injEq]
  constructor
  · rintro ⟨j, listed, y, found, rfl, rfl⟩
    exact ⟨listed, found⟩
  · rintro ⟨listed, found⟩
    exact ⟨k, listed, x, found, rfl, rfl⟩

theorem get?_of_mem (mem : (k, x) ∈ a.entries) : a.get? k = some x := (mem_entries.1 mem).2

theorem keys_entries_eq_filter (a : Arena α) :
    keys a.entries = a.order.filter fun k => (a.get? k).isSome := by
  rw [keys, entries]
  induction a.order with
  | nil => rfl
  | cons k ks ih =>
    rw [List.filterMap_cons, List.filter_cons]
    cases a.get? k with
    | none => exact ih
    | some x => exact congrArg (k :: ·) ih

theorem lt_next_of_mem_keys (mem : k ∈ keys a.entries) : k < a.next := by
  obtain ⟨e, there, rfl⟩ := List.mem_map.1 mem
  exact lt_next (get?_of_mem there)

theorem next_not_mem_keys (a : Arena α) : a.next ∉ keys a.entries :=
  fun mem => Nat.lt_irrefl _ (lt_next_of_mem_keys mem)

theorem entries_eq_mapValues (order : b.order = a.order) {f : Nat → α → α}
    (values : ∀ k, b.get? k = (a.get? k).map (f k)) :
    b.entries = Keyed.mapValues a.entries f := by
  rw [Keyed.mapValues, entries, entries, order, List.map_filterMap]
  refine List.filterMap_congr fun k _ => ?_
  rw [values]
  cases a.get? k <;> rfl

theorem entries_mapValues (a : Arena α) (f : Nat → α → α) :
    (a.mapValues f).entries = Keyed.mapValues a.entries f :=
  entries_eq_mapValues (a := a) (b := a.mapValues f) rfl (get?_mapValues a f)

theorem entries_update (a : Arena α) (key : Nat) (f : α → α) :
    (a.update key f).entries = Keyed.update a.entries key f := by
  have values (k : Nat) : (a.update key f).get? k
      = (a.get? k).map fun x => if k = key then f x else x := by
    rw [get?_update]
    by_cases same : key = k
    · simp [same]
    · simp [same, Ne.symm same]
  refine (entries_eq_mapValues (a := a) (b := a.update key f) rfl values).trans ?_
  refine List.map_congr_left fun e _ => ?_
  dsimp only
  split <;> rfl

theorem entries_remove (a : Arena α) (key : Nat) :
    (a.remove key).entries = Keyed.remove a.entries key := by
  cases found : a.get? key with
  | none =>
    have kept : a.remove key = a := by simp only [remove, found]
    rw [kept, Keyed.remove_of_not_mem]
    intro mem
    obtain ⟨e, there, rfl⟩ := List.mem_map.1 mem
    exact absurd ((get?_of_mem there).symm.trans found) (by simp)
  | some x =>
    have order : (a.remove key).order = a.order.filter (· != key) := by simp only [remove, found]
    rw [Keyed.remove, entries, entries, order, List.filterMap_filter, List.filter_filterMap]
    refine List.filterMap_congr fun k _ => ?_
    rw [get?_remove]
    by_cases same : k = key
    · subst same
      cases a.get? k <;> simp [Option.filter]
    · cases a.get? k <;> simp [Option.filter, same]

theorem entries_foldl_remove (ks : List Nat) (a : Arena α) :
    (ks.foldl remove a).entries = a.entries.filter fun e => !ks.contains e.1 := by
  induction ks generalizing a with
  | nil => simp
  | cons k ks ih =>
    rw [List.foldl_cons, ih, entries_remove, Keyed.remove, List.filter_filter]
    refine List.filter_congr fun e _ => ?_
    by_cases same : e.1 = k <;> simp [same]

theorem entries_insert (fresh : a.next ∉ a.order) (x : α) :
    (a.insert x).entries = a.entries ++ [(a.next, x)] := by
  have last : (a.insert x).get? a.next = some x := by rw [get?_insert, if_pos rfl]
  rw [entries, entries]
  change List.filterMap _ (a.order ++ [a.next]) = _
  rw [List.filterMap_append, List.filterMap_cons, last]
  refine congrArg (· ++ [(a.next, x)]) (List.filterMap_congr fun k listed => ?_)
  have other : k ≠ a.next := fun same => fresh (same ▸ listed)
  rw [get?_insert, if_neg other]

theorem of_mem_entries_insert {e : Nat × α} (mem : e ∈ (a.insert x).entries) :
    e ∈ a.entries ∨ e = (a.next, x) := by
  obtain ⟨k, y⟩ := e
  obtain ⟨listed, found⟩ := mem_entries.1 mem
  rw [get?_insert] at found
  split at found
  · next last => exact .inr (by rw [last, Option.some.inj found])
  · next old =>
    rcases List.mem_append.1 listed with listed | new
    · exact .inl (mem_entries.2 ⟨listed, found⟩)
    · exact absurd (List.mem_singleton.1 new) old

theorem of_mem_entries_replace {e : Nat × α} (mem : e ∈ (a.replace key x).entries) :
    e ∈ a.entries ∨ e = (a.next, x) := by
  obtain ⟨k, y⟩ := e
  obtain ⟨listed, found⟩ := mem_entries.1 mem
  rw [get?_replace] at found
  split at found
  · next last => exact .inr (by rw [last, Option.some.inj found])
  · next old =>
    split at found
    · exact absurd found (by simp)
    · refine .inl (mem_entries.2 ⟨?_, found⟩)
      simp only [replace] at listed
      split at listed
      · exact (List.mem_or_eq_of_mem_set listed).resolve_right old
      · exact (List.mem_append.1 listed).resolve_right fun new => old (List.mem_singleton.1 new)

theorem update_eq_mapValues (a : Arena α) (key : Nat) (f : α → α) :
    a.update key f = a.mapValues fun k x => if k = key then f x else x := by
  refine eq_of_slots rfl fun k => ?_
  simp only [update, mapValues]
  rw [List.getElem?_modify, List.getElem?_mapIdx]
  by_cases same : key = k
  · subst same
    cases a.slots[key]? <;> simp
  · cases a.slots[k]? with
    | none => simp [same]
    | some x => cases x <;> simp [same, Ne.symm same]

theorem mapValues_eq_self {f : Nat → α → α} (same : ∀ k x, a.get? k = some x → f k x = x) :
    a.mapValues f = a := by
  refine eq_of_slots rfl fun k => ?_
  rw [mapValues, List.getElem?_mapIdx]
  cases slot : a.slots[k]? with
  | none => rfl
  | some x =>
    cases x with
    | none => rfl
    | some x =>
      have found : a.get? k = some x := by rw [get?, slot, Option.join_some]
      simp [same k x found]

theorem update_of_get? {f : α → α} (found : a.get? k = some x) (same : f x = x) :
    a.update k f = a := by
  rw [update_eq_mapValues]
  refine mapValues_eq_self fun j y there => ?_
  split
  · next here =>
    obtain rfl : x = y := Option.some.inj (found.symm.trans (here ▸ there))
    exact same
  · rfl

theorem update_update (a : Arena α) (key : Nat) (f g : α → α) :
    (a.update key f).update key g = a.update key (g ∘ f) := by
  refine eq_of_slots rfl fun k => ?_
  simp only [update, List.getElem?_modify]
  by_cases same : key = k
  · simp [same]
  · simp [same]

theorem mapValues_mapValues (a : Arena α) (f g : Nat → α → α) :
    (a.mapValues f).mapValues g = a.mapValues fun k x => g k (f k x) := by
  simp only [mapValues, List.mapIdx_mapIdx, Function.comp_def, Option.map_map]

def map {β : Type} (f : α → β) (a : Arena α) : Arena β := ⟨a.slots.map (Option.map f), a.order⟩

section Map

variable {β : Type} (h : α → β)

theorem get?_map (a : Arena α) (k : Nat) : (a.map h).get? k = (a.get? k).map h := by
  simp only [get?, map, List.getElem?_map]
  cases a.slots[k]? <;> simp

theorem of_map_eq {h : α → β} (same : b.map h = a.map h) (found : b.get? k = some x) :
    ∃ y, a.get? k = some y ∧ h y = h x := by
  have part := b.get?_map h k
  rw [same, get?_map, found] at part
  exact Option.map_eq_some_iff.1 part

theorem next_map (a : Arena α) : (a.map h).next = a.next := List.length_map _

theorem entries_map (a : Arena α) : (a.map h).entries = a.entries.map fun e => (e.1, h e.2) := by
  rw [entries, entries, List.map_filterMap]
  refine List.filterMap_congr fun k _ => ?_
  rw [get?_map]
  cases a.get? k <;> rfl

theorem map_mapValues {f : Nat → α → α} (same : ∀ k x, h (f k x) = h x) (a : Arena α) :
    (a.mapValues f).map h = a.map h := by
  refine eq_of_slots rfl fun k => ?_
  simp only [map, mapValues, List.getElem?_map, List.getElem?_mapIdx]
  cases a.slots[k]? with
  | none => rfl
  | some x => cases x <;> simp [same]

theorem map_update {f : α → α} (same : ∀ x, h (f x) = h x) (a : Arena α) (key : Nat) :
    (a.update key f).map h = a.map h := by
  rw [update_eq_mapValues]
  refine map_mapValues h (fun k x => ?_) a
  split
  · exact same x
  · rfl

theorem map_update_comm {f : α → α} {g : β → β} (same : ∀ x, h (f x) = g (h x)) (a : Arena α)
    (key : Nat) : (a.update key f).map h = (a.map h).update key g := by
  refine eq_of_slots rfl fun k => ?_
  simp only [update, map, List.getElem?_map, List.getElem?_modify]
  split
  · cases a.slots[k]? with
    | none => rfl
    | some y => cases y <;> simp [same]
  · cases a.slots[k]? <;> rfl

theorem map_insert (a : Arena α) (x : α) : (a.insert x).map h = (a.map h).insert (h x) := by
  simp [insert, map, next]

theorem map_replace (a : Arena α) (key : Nat) (x : α) :
    (a.replace key x).map h = (a.map h).replace key (h x) := by
  simp [replace, map, next, List.map_set]

end Map

/-! ## Exact arenas -/

/-- The order list names each key in use once, and nothing else. -/
structure Exact (a : Arena α) : Prop where
  nodup : a.order.Nodup
  live : ∀ k, k ∈ a.order ↔ (a.get? k).isSome = true

namespace Exact

theorem empty : Exact ({} : Arena α) where
  nodup := .nil
  live k := by
    cases k <;> simp [get?]

theorem mem (exact : a.Exact) (found : a.get? k = some x) : (k, x) ∈ a.entries :=
  mem_entries.2 ⟨(exact.live k).2 (Option.isSome_of_eq_some found), found⟩

theorem keys_eq (exact : a.Exact) : keys a.entries = a.order := by
  rw [keys_entries_eq_filter]
  exact List.filter_eq_self.2 fun k listed => (exact.live k).1 listed

theorem nodup_keys (exact : a.Exact) : (keys a.entries).Nodup := exact.keys_eq ▸ exact.nodup

theorem get?_eq (exact : a.Exact) (k : Nat) : a.get? k = Keyed.get? a.entries k :=
  Option.ext fun _ => ⟨fun found => Keyed.get?_of_mem exact.nodup_keys (exact.mem found),
    fun found => get?_of_mem (Keyed.mem_of_get? found)⟩

theorem get?_eq_none_iff (exact : a.Exact) : a.get? k = none ↔ k ∉ keys a.entries := by
  rw [exact.get?_eq, Keyed.get?_eq_none_iff]

theorem next_not_mem (exact : a.Exact) : a.next ∉ a.order :=
  exact.keys_eq ▸ a.next_not_mem_keys

theorem entries_insert (exact : a.Exact) (x : α) :
    (a.insert x).entries = a.entries ++ [(a.next, x)] :=
  Arena.entries_insert exact.next_not_mem x

theorem congr (exact : a.Exact) (order : b.order = a.order)
    (live : ∀ k, (b.get? k).isSome = (a.get? k).isSome) : b.Exact where
  nodup := order ▸ exact.nodup
  live k := by rw [order, live, exact.live]

theorem map_iff {β : Type} (h : α → β) : (a.map h).Exact ↔ a.Exact := by
  have live (k : Nat) : ((a.map h).get? k).isSome = (a.get? k).isSome := by
    rw [get?_map, Option.isSome_map]
  constructor
  · rintro ⟨nodup, listed⟩
    exact ⟨nodup, fun k => live k ▸ listed k⟩
  · intro exact
    exact ⟨exact.nodup, fun k => (live k).symm ▸ exact.live k⟩

theorem mapValues (exact : a.Exact) (f : Nat → α → α) : (a.mapValues f).Exact :=
  exact.congr rfl fun k => by rw [get?_mapValues, Option.isSome_map]

theorem update (exact : a.Exact) (key : Nat) (f : α → α) : (a.update key f).Exact :=
  exact.congr rfl fun k => by
    rw [get?_update]
    split
    · exact Option.isSome_map
    · rfl

theorem insert (exact : a.Exact) (x : α) : (a.insert x).Exact where
  nodup := exact.nodup.append (List.nodup_singleton _) (by simpa using exact.next_not_mem)
  live k := by
    change k ∈ a.order ++ [a.next] ↔ _
    rw [get?_insert, List.mem_append, exact.live, List.mem_singleton]
    by_cases last : k = a.next <;> simp [last]

theorem remove (exact : a.Exact) (key : Nat) : (a.remove key).Exact := by
  cases found : a.get? key with
  | none =>
    simp only [Arena.remove, found]
    exact exact
  | some x =>
    have order : (a.remove key).order = a.order.filter (· != key) := by
      simp only [Arena.remove, found]
    refine ⟨order ▸ exact.nodup.filter _, fun k => ?_⟩
    rw [order, get?_remove, List.mem_filter, exact.live]
    by_cases same : k = key <;> simp [same]

theorem foldl_remove (exact : a.Exact) (ks : List Nat) : (ks.foldl Arena.remove a).Exact :=
  List.foldlRecOn ks _ exact fun _ ih k _ => ih.remove k

theorem reorder (exact : a.Exact) {order : List Nat} (perm : order.Perm a.order) :
    ({ a with order := order } : Arena α).Exact where
  nodup := perm.nodup_iff.2 exact.nodup
  live k := by
    rw [get?_reorder]
    exact perm.mem_iff.trans (exact.live k)

theorem order_replace (exact : a.Exact) (found : a.get? key = some y) (x : α) :
    (a.replace key x).order = a.order.map fun k => if k = key then a.next else k := by
  have listed : key ∈ a.order := (exact.live key).2 (Option.isSome_of_eq_some found)
  simp only [Arena.replace]
  cases place : a.order.findIdx? (· == key) with
  | none =>
    rw [List.findIdx?_eq_none_iff] at place
    exact absurd (place key listed) (by simp)
  | some i =>
    obtain ⟨below, here, -⟩ := List.findIdx?_eq_some_iff_getElem.1 place
    have here : a.order[i] = key := by simpa using here
    refine List.ext_getElem (by simp) fun j hj hj' => ?_
    rw [List.length_set] at hj
    rw [List.getElem_set, List.getElem_map]
    by_cases same : i = j
    · subst same
      simp [here]
    · have other : a.order[j] ≠ key := fun again =>
        same (exact.nodup.getElem_inj_iff.1 (here.trans again.symm))
      simp [same, other]

theorem entries_replace (exact : a.Exact) (found : a.get? key = some y) (x : α) :
    (a.replace key x).entries = Keyed.replace a.entries key a.next x := by
  rw [entries, exact.order_replace found, Keyed.replace, entries, List.filterMap_map,
    List.map_filterMap]
  refine List.filterMap_congr fun k listed => ?_
  have other : k ≠ a.next := fun same => exact.next_not_mem (same ▸ listed)
  simp only [Function.comp]
  by_cases same : k = key
  · subst same
    rw [if_pos rfl, get?_replace, if_pos rfl, found]
    simp
  · rw [if_neg same, get?_replace, if_neg other, if_neg same]
    cases a.get? k <;> simp [same]

theorem replace (exact : a.Exact) (found : a.get? key = some y) (x : α) :
    (a.replace key x).Exact where
  nodup := by
    rw [exact.order_replace found]
    refine exact.nodup.map_on fun i hi j hj same => ?_
    have old {i : Nat} (listed : i ∈ a.order) : a.next ≠ i := by
      rintro rfl
      exact exact.next_not_mem listed
    by_cases hik : i = key <;> by_cases hjk : j = key <;> simp only [hik, hjk, if_true, if_false]
      at same
    · rw [hik, hjk]
    · exact absurd same (old hj)
    · exact absurd same.symm (old hi)
    · exact same
  live k := by
    rw [exact.order_replace found, List.mem_map, get?_replace]
    constructor
    · rintro ⟨i, listed, rfl⟩
      by_cases same : i = key
      · simp [same]
      · have other : i ≠ a.next := fun last => exact.next_not_mem (last ▸ listed)
        simpa [same, other] using (exact.live i).1 listed
    · intro there
      by_cases last : k = a.next
      · exact ⟨key, (exact.live key).2 (Option.isSome_of_eq_some found), by simp [last]⟩
      · rw [if_neg last] at there
        by_cases same : k = key
        · simp [same] at there
        · exact ⟨k, (exact.live k).2 (by simpa [same] using there), if_neg same⟩

end Exact

end Patchbay.Arena
