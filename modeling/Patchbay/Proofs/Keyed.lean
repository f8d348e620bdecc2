import Patchbay.Keyed
import Mathlib.Data.List.InsertIdx
import Mathlib.Data.List.Nodup

/-!
# Keyed lists without repeated keys

Looking up, changing and taking out one entry of a list under keys, where no key stands twice.
-/

namespace Patchbay.Keyed

variable {α : Type} {xs : Keyed α} {k : Nat} {a : α}

theorem mem_keys_of_mem (h : (k, a) ∈ xs) : k ∈ keys xs :=
  List.mem_map.2 ⟨(k, a), h, rfl⟩

theorem has_iff : has xs k = true ↔ k ∈ keys xs := by
  rw [has, Option.isSome_iff_ne_none, ne_eq, get?_eq_none_iff, not_not]

theorem mem_of_get? (h : get? xs k = some a) : (k, a) ∈ xs := by
  induction xs with
  | nil => simp [get?] at h
  | cons x rest ih =>
    obtain ⟨j, b⟩ := x
    by_cases hj : j = k
    · simp only [get?, hj, if_pos, Option.some.injEq] at h
      simp [hj, h]
    · simp only [get?, hj, if_neg, not_false_eq_true] at h
      exact List.mem_cons_of_mem _ (ih h)

theorem get?_of_mem (nodup : (keys xs).Nodup) (h : (k, a) ∈ xs) : get? xs k = some a := by
  induction xs with
  | nil => simp at h
  | cons x rest ih =>
    obtain ⟨j, b⟩ := x
    simp only [keys, List.map_cons, List.nodup_cons] at nodup
    rcases List.mem_cons.1 h with he | hr
    · obtain ⟨rfl, rfl⟩ := Prod.mk.inj he
      simp [get?]
    · have hne : j ≠ k := fun he => nodup.1 (he ▸ mem_keys_of_mem hr)
      simpa [get?, hne] using ih nodup.2 hr

theorem remove_of_not_mem (h : k ∉ keys xs) : remove xs k = xs := by
  apply List.filter_eq_self.2
  intro x hx
  have hne : x.1 ≠ k := fun he => h (he ▸ List.mem_map.2 ⟨x, hx, rfl⟩)
  simpa using hne

theorem remove_append_of_not_mem (h : k ∉ keys xs) : remove (xs ++ [(k, a)]) k = xs := by
  have hr : xs.filter (·.1 != k) = xs := remove_of_not_mem h
  simp [remove, List.filter_append, hr]

theorem keys_append (ys : Keyed α) : keys (xs ++ ys) = keys xs ++ keys ys :=
  List.map_append

theorem nodup_append (nodup : (keys xs).Nodup) (fresh : k ∉ keys xs) :
    (keys (xs ++ [(k, a)])).Nodup := by
  rw [keys_append]
  exact nodup.append (List.nodup_singleton _) (by simpa [keys] using fresh)

theorem lt_append (below : ∀ j ∈ keys xs, j < k) : ∀ j ∈ keys (xs ++ [(k, a)]), j < k + 1 := by
  intro j hj
  rw [keys_append, List.mem_append] at hj
  rcases hj with old | new
  · exact Nat.lt_succ_of_lt (below j old)
  · obtain rfl : j = k := by simpa [keys] using new
    exact Nat.lt_succ_self j

theorem get?_append (ys : Keyed α) (k : Nat) : get? (xs ++ ys) k = (get? xs k).or (get? ys k) := by
  induction xs with
  | nil => rfl
  | cons x rest ih =>
    by_cases h : x.1 = k
    · simp [get?, h]
    · simpa [get?, h] using ih

theorem get?_remove_ne {j : Nat} (ne : j ≠ k) : get? (remove xs k) j = get? xs j := by
  induction xs with
  | nil => rfl
  | cons x rest ih =>
    by_cases h : x.1 = k
    · have other : k ≠ j := ne.symm
      simpa [remove, get?, h, other] using ih
    · by_cases hj : x.1 = j
      · simp [remove, get?, hj, ne]
      · simpa [remove, get?, h, hj] using ih

theorem keys_eraseIdx (i : Nat) : keys (xs.eraseIdx i) = (keys xs).eraseIdx i :=
  (List.eraseIdx_map _ _ _).symm

theorem filter_key_eq_eraseIdx {f : α → Nat} {xs : List α} {i : Nat} {x : α}
    (nodup : (xs.map f).Nodup) (there : xs[i]? = some x) :
    xs.filter (f · != f x) = xs.eraseIdx i := by
  induction xs generalizing i with
  | nil => rfl
  | cons y ys ih =>
    rw [List.map_cons, List.nodup_cons] at nodup
    obtain ⟨hy, hys⟩ := nodup
    cases i with
    | zero =>
      obtain rfl : y = x := by simpa using there
      have hkept : ys.filter (f · != f y) = ys := by
        apply List.filter_eq_self.2
        intro z hz
        have hne : f z ≠ f y := fun he => hy (he ▸ List.mem_map_of_mem hz)
        simpa using hne
      simp [hkept]
    | succ i =>
      have hx : ys[i]? = some x := by simpa using there
      have hne : f y ≠ f x := fun he => hy (he ▸ List.mem_map_of_mem (List.mem_of_getElem? hx))
      simp [hne, ih hys hx]

theorem update_update (f g : α → α) : update (update xs k f) k g = update xs k (g ∘ f) := by
  simp only [update, List.map_map]
  apply List.map_congr_left
  intro x _
  by_cases h : x.1 = k <;> simp [h]

theorem update_congr {f g : α → α} (h : ∀ b, (k, b) ∈ xs → f b = g b) :
    update xs k f = update xs k g := by
  apply List.map_congr_left
  intro x hx
  obtain ⟨j, b⟩ := x
  by_cases hj : j = k
  · subst hj
    simp [h b hx]
  · simp [hj]

theorem update_id : update xs k id = xs := by
  refine (List.map_congr_left fun x _ => ?_).trans (List.map_id xs)
  obtain ⟨j, b⟩ := x
  by_cases h : j = k <;> simp [h]

theorem update_of_get? {f : α → α} (nodup : (keys xs).Nodup) (h : get? xs k = some a)
    (hf : f a = a) : update xs k f = xs := by
  refine (update_congr fun b hb => ?_).trans update_id
  have hb' := get?_of_mem nodup hb
  rw [h, Option.some.injEq] at hb'
  exact hb' ▸ hf

theorem eq_of_mem {b : α} (nodup : (keys xs).Nodup) (ha : (k, a) ∈ xs) (hb : (k, b) ∈ xs) :
    a = b := by
  have h := get?_of_mem nodup ha
  rw [get?_of_mem nodup hb] at h
  exact (Option.some.inj h).symm

theorem getElem?_inj {i j : Nat} {b : α} (nodup : (keys xs).Nodup) (hi : xs[i]? = some (k, a))
    (hj : xs[j]? = some (k, b)) : i = j := by
  have hki : (keys xs)[i]? = some k := by simp [keys, hi]
  have hkj : (keys xs)[j]? = some k := by simp [keys, hj]
  obtain ⟨_, hik⟩ := List.getElem?_eq_some_iff.1 hki
  obtain ⟨_, hjk⟩ := List.getElem?_eq_some_iff.1 hkj
  exact nodup.getElem_inj_iff.1 (hik.trans hjk.symm)

theorem mem_update_self (f : α → α) (h : (k, a) ∈ xs) : (k, f a) ∈ update xs k f :=
  List.mem_map.2 ⟨(k, a), h, if_pos rfl⟩

theorem mem_update_of_ne {x : Nat × α} (f : α → α) (h : x ∈ xs) (ne : x.1 ≠ k) :
    x ∈ update xs k f :=
  List.mem_map.2 ⟨x, h, if_neg ne⟩

theorem of_mem_update {f : α → α} {x : Nat × α} (h : x ∈ update xs k f) :
    (x ∈ xs ∧ x.1 ≠ k) ∨ ∃ a, (k, a) ∈ xs ∧ x = (k, f a) := by
  obtain ⟨⟨j, a⟩, hj, rfl⟩ := List.mem_map.1 h
  by_cases hk : j = k
  · subst hk
    exact Or.inr ⟨a, hj, if_pos rfl⟩
  · exact Or.inl ⟨by simpa [hk] using hj, by simp [hk]⟩

theorem update_const (xs : Keyed α) (k : Nat) (b : α) :
    update xs k (fun _ => b) = replace xs k k b := by
  apply List.map_congr_left
  intro x _
  by_cases hk : x.1 = k <;> simp [hk]

theorem mem_replace_self (j : Nat) (b : α) (h : (k, a) ∈ xs) : (j, b) ∈ replace xs k j b :=
  List.mem_map.2 ⟨(k, a), h, if_pos rfl⟩

theorem mem_replace_of_ne {x : Nat × α} (j : Nat) (b : α) (h : x ∈ xs) (ne : x.1 ≠ k) :
    x ∈ replace xs k j b :=
  List.mem_map.2 ⟨x, h, if_neg ne⟩

theorem of_mem_replace {j : Nat} {b : α} {x : Nat × α} (h : x ∈ replace xs k j b) :
    (x ∈ xs ∧ x.1 ≠ k) ∨ x = (j, b) := by
  obtain ⟨⟨i, a⟩, hi, rfl⟩ := List.mem_map.1 h
  by_cases hk : i = k
  · exact Or.inr (if_pos hk)
  · exact Or.inl ⟨by simpa [hk] using hi, by simp [hk]⟩

theorem getElem?_replace (xs : Keyed α) (k j : Nat) (b : α) (i : Nat) :
    (replace xs k j b)[i]? = xs[i]?.map fun x => if x.1 = k then (j, b) else x := by
  rw [replace, List.getElem?_map]

theorem map_replace {β : Type} {g : α → β} {j : Nat} {b : α} (nodup : (keys xs).Nodup)
    (h : (k, a) ∈ xs) (same : g b = g a) :
    (replace xs k j b).map (fun x => g x.2) = xs.map fun x => g x.2 := by
  simp only [replace, List.map_map]
  apply List.map_congr_left
  intro x hx
  obtain ⟨i, c⟩ := x
  by_cases hk : i = k
  · subst hk
    have hca : c = a := eq_of_mem nodup hx h
    simp [hca, same]
  · simp [hk]

theorem filter_update {p : α → Bool} {f : α → α}
    (gone : ∀ a, (k, a) ∈ xs → p a = false ∧ p (f a) = false) :
    (update xs k f).filter (fun x => p x.2) = xs.filter fun x => p x.2 := by
  induction xs with
  | nil => rfl
  | cons x rest ih =>
    obtain ⟨j, a⟩ := x
    have hrest := ih fun b hb => gone b (List.mem_cons_of_mem _ hb)
    simp only [update, List.map_cons, List.filter_cons] at hrest ⊢
    by_cases hj : j = k
    · subst hj
      obtain ⟨hold, hnew⟩ := gone a List.mem_cons_self
      simp [hold, hnew, hrest]
    · simp [hj, hrest]

theorem get?_eq_find? (xs : Keyed α) (k : Nat) : get? xs k = (xs.find? (·.1 == k)).map (·.2) := by
  induction xs with
  | nil => rfl
  | cons x rest ih =>
    obtain ⟨j, b⟩ := x
    by_cases h : j = k
    · simp [get?, h]
    · have h' : (j == k) = false := by simpa using h
      simp [get?, h, h', ih]

theorem get?_perm {ys : Keyed α} (perm : ys.Perm xs) (nodup : (keys xs).Nodup) (k : Nat) :
    get? ys k = get? xs k := by
  have nodup' : (keys ys).Nodup := (perm.map _).nodup_iff.2 nodup
  refine Option.ext fun a => ⟨fun found => ?_, fun found => ?_⟩
  · exact get?_of_mem nodup (perm.mem_iff.1 (mem_of_get? found))
  · exact get?_of_mem nodup' (perm.mem_iff.2 (mem_of_get? found))

theorem getElem?_of_findIdx? {i : Nat} (hi : xs.findIdx? (·.1 == k) = some i)
    (h : get? xs k = some a) : xs[i]? = some (k, a) := by
  rw [get?_eq_find?, List.find?_eq_bind_findIdx?_getElem?, hi] at h
  obtain ⟨x, hx, rfl⟩ := Option.map_eq_some_iff.1 h
  obtain ⟨hlt, hkey, -⟩ := List.findIdx?_eq_some_iff_getElem.1 hi
  obtain ⟨-, rfl⟩ := List.getElem?_eq_some_iff.1 hx
  rw [List.getElem?_eq_getElem hlt, ← eq_of_beq hkey]

end Patchbay.Keyed
