import Patchbay.Proofs.Boxes
import Mathlib.Data.List.Forall2

/-!
# Boxes in the order of the document

Sorting puts the boxes with a place in front, by their places, and leaves the others behind them as
they were. Once all nodes are shown the places are just those of the nodes, so the sorted boxes
stand in the order of the document.
-/

namespace Patchbay.Scene

open Keyed (keys)

variable {s : Scene} {e : Nat × Box} {bs : Keyed Box} {a b c : Box}

def standsBefore (a b : Box) : Bool := comesBefore a.index b.index

def insertByIndex (e : Nat × Box) : Keyed Box → Keyed Box
  | [] => [e]
  | f :: rest => if standsBefore e.2 f.2 then e :: f :: rest else f :: insertByIndex e rest

theorem standsBefore_total (h : standsBefore a b = false) : standsBefore b a = true := by
  cases ha : a.index <;> cases hb : b.index <;>
    simp only [standsBefore, comesBefore, ha, hb, decide_eq_true_iff, decide_eq_false_iff_not,
      reduceCtorEq] at h ⊢
  omega

theorem standsBefore_trans (hab : standsBefore a b = true) (hbc : standsBefore b c = true) :
    standsBefore a c = true := by
  cases ha : a.index <;> cases hb : b.index <;> cases hc : c.index <;>
    simp only [standsBefore, comesBefore, ha, hb, hc, decide_eq_true_iff, reduceCtorEq]
      at hab hbc ⊢
  omega

theorem perm_insertByPlace (s : Scene) (k : Nat) (ks : List Nat) :
    (s.insertByPlace k ks).Perm (k :: ks) := by
  induction ks with
  | nil => exact .refl _
  | cons j rest ih =>
    rw [insertByPlace]
    split
    · exact .refl _
    · exact (ih.cons j).trans (.swap k j rest)

theorem perm_foldr_insertByPlace (s : Scene) (ks : List Nat) :
    (ks.foldr s.insertByPlace []).Perm ks := by
  induction ks with
  | nil => exact .refl _
  | cons k ks ih => exact (s.perm_insertByPlace k _).trans (ih.cons k)

theorem box?_sortBoxes (s : Scene) (k : Nat) : s.sortBoxes.box? k = s.box? k :=
  s.boxArena.get?_reorder _ k

theorem perm_sortBoxes (s : Scene) : s.sortBoxes.boxes.Perm s.boxes := by
  have entries (a : Arena Box) : a.entries = a.order.filterMap fun k => (a.get? k).map (k, ·) := by
    rw [Arena.entries]
  have values : (fun k => (s.sortBoxes.boxArena.get? k).map fun b => (k, b))
      = fun k => (s.boxArena.get? k).map fun b => (k, b) :=
    funext fun k => congrArg (Option.map _) (s.box?_sortBoxes k)
  rw [Scene.boxes, entries, values, Scene.boxes, entries]
  exact (s.perm_foldr_insertByPlace s.boxArena.order).filterMap _

theorem exact_sortBoxes (exact : s.boxArena.Exact) : s.sortBoxes.boxArena.Exact :=
  exact.reorder (s.perm_foldr_insertByPlace _)

theorem mem_sortBoxes : e ∈ s.sortBoxes.boxes ↔ e ∈ s.boxes := (perm_sortBoxes s).mem_iff

theorem boxes_sortBoxes (exact : s.boxArena.Exact) :
    s.sortBoxes.boxes = s.boxes.foldr insertByIndex [] := by
  let entry (k : Nat) : Option (Nat × Box) := (s.box? k).map fun b => (k, b)
  have entries : s.boxes = s.boxArena.order.filterMap entry := by
    rw [Scene.boxes, Arena.entries]
    rfl
  have sorted : s.sortBoxes.boxes
      = (s.boxArena.order.foldr s.insertByPlace []).filterMap entry := by
    rw [Scene.boxes, Arena.entries]
    exact List.filterMap_congr fun k _ => congrArg (Option.map _) (s.box?_sortBoxes k)
  have insert {k : Nat} {b : Box} (found : s.box? k = some b) (ks : List Nat)
      (live : ∀ j ∈ ks, (s.box? j).isSome = true) :
      (s.insertByPlace k ks).filterMap entry = insertByIndex (k, b) (ks.filterMap entry) := by
    have here : entry k = some (k, b) := by simp only [entry, found, Option.map_some]
    induction ks with
    | nil => simp [insertByPlace, insertByIndex, here]
    | cons j rest ih =>
      obtain ⟨first, live⟩ := List.forall_mem_cons.1 live
      obtain ⟨a, there⟩ := Option.isSome_iff_exists.1 first
      have next : entry j = some (j, a) := by simp only [entry, there, Option.map_some]
      have places : comesBefore (s.place? k) (s.place? j) = standsBefore b a := by
        simp only [place?, found, there, Option.bind_some, standsBefore]
      rw [insertByPlace, List.filterMap_cons_some next, insertByIndex, places]
      split
      · rw [List.filterMap_cons_some here, List.filterMap_cons_some next]
      · rw [List.filterMap_cons_some next, ih live]
  have live : ∀ k ∈ s.boxArena.order, (s.box? k).isSome = true := fun k => (exact.live k).1
  rw [sorted, entries]
  generalize s.boxArena.order = ks at live
  induction ks with
  | nil => rfl
  | cons k ks ih =>
    obtain ⟨here, rest⟩ := List.forall_mem_cons.1 live
    obtain ⟨b, found⟩ := Option.isSome_iff_exists.1 here
    have entry_eq : entry k = some (k, b) := by simp only [entry, found, Option.map_some]
    rw [List.foldr_cons, List.filterMap_cons_some entry_eq, List.foldr_cons, ← ih rest]
    exact insert found _ fun j mem => rest j ((s.perm_foldr_insertByPlace ks).mem_iff.1 mem)

theorem mem_insertByIndex {f : Nat × Box} : f ∈ insertByIndex e bs ↔ f = e ∨ f ∈ bs := by
  induction bs with
  | nil => simp [insertByIndex]
  | cons g rest ih =>
    simp only [insertByIndex]
    split
    case isTrue => simp
    case isFalse => simp only [List.mem_cons, ih]; exact or_left_comm

theorem sorted_insertByIndex (sorted : bs.Pairwise fun x y => standsBefore x.2 y.2 = true) :
    (insertByIndex e bs).Pairwise fun x y => standsBefore x.2 y.2 = true := by
  induction bs with
  | nil => exact List.pairwise_singleton _ _
  | cons f rest ih =>
    obtain ⟨hf, hrest⟩ := List.pairwise_cons.1 sorted
    rw [insertByIndex]
    split
    · next first =>
      refine List.pairwise_cons.2 ⟨?_, sorted⟩
      intro x hx
      rcases List.mem_cons.1 hx with rfl | hx
      · exact first
      · exact standsBefore_trans first (hf x hx)
    · next later =>
      refine List.pairwise_cons.2 ⟨?_, ih hrest⟩
      intro x hx
      rcases mem_insertByIndex.1 hx with rfl | hx
      · exact standsBefore_total (by simpa using later)
      · exact hf x hx

theorem sorted_sortBoxes (exact : s.boxArena.Exact) :
    s.sortBoxes.boxes.Pairwise fun x y => standsBefore x.2 y.2 = true := by
  rw [boxes_sortBoxes exact]
  induction s.boxes with
  | nil => exact .nil
  | cons e rest ih => exact sorted_insertByIndex ih

theorem filter_insertByIndex (e : Nat × Box) (bs : Keyed Box) :
    (insertByIndex e bs).filter (·.2.index.isNone) = (e :: bs).filter (·.2.index.isNone) := by
  induction bs with
  | nil => rfl
  | cons f rest ih =>
    rw [insertByIndex]
    split
    · rfl
    · next later =>
      rw [List.filter_cons, ih]
      cases he : e.2.index <;> cases hf : f.2.index <;> simp_all [standsBefore, comesBefore]

theorem filter_sortBoxes (exact : s.boxArena.Exact) :
    s.sortBoxes.boxes.filter (·.2.index.isNone) = s.boxes.filter (·.2.index.isNone) := by
  rw [boxes_sortBoxes exact]
  induction s.boxes with
  | nil => rfl
  | cons e rest ih =>
    rw [List.foldr_cons, filter_insertByIndex, List.filter_cons, ih, List.filter_cons]

theorem sorted_split (sorted : bs.Pairwise fun x y => standsBefore x.2 y.2 = true) :
    bs = bs.filter (·.2.index.isSome) ++ bs.filter (·.2.index.isNone) := by
  induction bs with
  | nil => rfl
  | cons f rest ih =>
    obtain ⟨hf, hrest⟩ := List.pairwise_cons.1 sorted
    cases hi : f.2.index with
    | some i => simpa [hi] using ih hrest
    | none =>
      have hnone : ∀ x ∈ rest, x.2.index = none := by
        intro x hx
        have hfx := hf x hx
        cases hx : x.2.index with
        | none => rfl
        | some j => simp [standsBefore, comesBefore, hi, hx] at hfx
      have hplaced : rest.filter (·.2.index.isSome) = [] :=
        List.filter_eq_nil_iff.2 fun x hx => by simp [hnone x hx]
      have hall : rest.filter (·.2.index.isNone) = rest :=
        List.filter_eq_self.2 fun x hx => by simp [hnone x hx]
      simp [hi, hplaced, hall]

variable {nodes : Keyed Node} {blanks : Keyed Box} {h : Nat}

theorem Staged.shows (staged : Staged nodes blanks nodes.length s) (mem : e ∈ s.boxes)
    (named : e.2.handle = some h) : ∃ j n, nodes[j]? = some (h, n) ∧ e.2.Shows h n j := by
  obtain ⟨⟨g, n⟩, hmem, rfl⟩ := List.mem_map.1 (staged.listed e mem h named)
  obtain ⟨j, hj⟩ := List.mem_iff_getElem?.1 hmem
  have hlt : j < nodes.length := (List.getElem?_eq_some_iff.1 hj).1
  obtain ⟨f, hf, hshows⟩ := staged.shown j hlt g n hj
  obtain rfl : f = e := eq_of_handle staged.handles hf mem hshows.handle named
  exact ⟨j, n, hj, hshows⟩

theorem Staged.index_eq_none_iff (staged : Staged nodes blanks nodes.length s) (mem : e ∈ s.boxes) :
    e.2.index = none ↔ e.2.handle = none := by
  constructor
  · intro unplaced
    cases hh : e.2.handle with
    | none => rfl
    | some g =>
      obtain ⟨j, n, -, hshows⟩ := staged.shows mem hh
      rw [hshows.index] at unplaced
      exact absurd unplaced (by simp)
  · exact staged.unplaced e mem

theorem Staged.shows_of_index (staged : Staged nodes blanks nodes.length s) (mem : e ∈ s.boxes)
    {j : Nat} (placed : e.2.index = some j) :
    ∃ g n, nodes[j]? = some (g, n) ∧ e.2.Shows g n j := by
  cases hh : e.2.handle with
  | none =>
    rw [staged.unplaced e mem hh] at placed
    exact absurd placed (by simp)
  | some g =>
    obtain ⟨i, n, hi, hshows⟩ := staged.shows mem hh
    obtain rfl : i = j := Option.some.inj (hshows.index.symm.trans placed)
    exact ⟨g, n, hi, hshows⟩

theorem Staged.perm_range (staged : Staged nodes blanks nodes.length s) :
    (s.boxes.filterMap (·.2.index)).Perm (List.range nodes.length) := by
  have nodup : (s.boxes.filterMap (·.2.index)).Nodup := by
    have hhandles := List.pairwise_filterMap.1 staged.handles
    refine List.pairwise_filterMap.2 (hhandles.imp_of_mem ?_)
    rintro x y hx hy apart i hi j hj rfl
    obtain ⟨g, n, hg, hxshows⟩ := staged.shows_of_index hx hi
    obtain ⟨g', n', hg', hyshows⟩ := staged.shows_of_index hy hj
    have hsame : g = g' := (Prod.mk.inj (Option.some.inj (hg.symm.trans hg'))).1
    exact apart g hxshows.handle g' hyshows.handle hsame
  apply (List.perm_ext_iff_of_nodup nodup List.nodup_range).2
  intro j
  rw [List.mem_filterMap, List.mem_range]
  constructor
  · rintro ⟨x, hx, hj⟩
    obtain ⟨g, n, hg, -⟩ := staged.shows_of_index hx hj
    exact (List.getElem?_eq_some_iff.1 hg).1
  · intro hlt
    obtain ⟨x, hx, hshows⟩ := staged.shown j hlt _ _ (List.getElem?_eq_getElem hlt)
    exact ⟨x, hx, hshows.index⟩

theorem Staged.indices_sortBoxes (staged : Staged nodes blanks nodes.length s) :
    s.sortBoxes.boxes.filterMap (·.2.index) = List.range nodes.length := by
  have perm : (s.sortBoxes.boxes.filterMap (·.2.index)).Perm (List.range nodes.length) :=
    ((perm_sortBoxes s).filterMap _).trans staged.perm_range
  have sorted : (s.sortBoxes.boxes.filterMap (·.2.index)).Pairwise (· ≤ ·) := by
    refine List.pairwise_filterMap.2 ((sorted_sortBoxes staged.boxOrder).imp ?_)
    intro x y hxy i hi j hj
    simpa [standsBefore, comesBefore, hi, hj] using hxy
  refine List.Perm.eq_of_pairwise ?_ sorted List.pairwise_le_range perm
  intro i j _ _ hij hji
  exact Nat.le_antisymm hij hji

theorem map_of_isSome {α β : Type} {f : α → Option β} {xs : List α}
    (all : ∀ x ∈ xs, (f x).isSome = true) : xs.map f = (xs.filterMap f).map some := by
  induction xs with
  | nil => rfl
  | cons x xs ih =>
    obtain ⟨hx, hxs⟩ := List.forall_mem_cons.1 all
    obtain ⟨y, hy⟩ := Option.isSome_iff_exists.1 hx
    rw [List.map_cons, List.filterMap_cons, hy, List.map_cons, ih hxs]

/-- The boxes of the nodes in the order of the document, and behind them those being typed. -/
theorem Staged.boxes_sortBoxes (staged : Staged nodes blanks nodes.length s) :
    ∃ shown, s.sortBoxes.boxes = shown ++ blanks ∧
      List.Forall₂ (fun e x => ∃ j, e.2.Shows x.1 x.2 j) shown nodes := by
  refine ⟨s.sortBoxes.boxes.filter (·.2.index.isSome), ?_, ?_⟩
  · have hblanks : s.sortBoxes.boxes.filter (·.2.index.isNone) = blanks := by
      rw [filter_sortBoxes staged.boxOrder, ← staged.blanks, Scene.blanks]
      apply List.filter_congr
      intro x hx
      rw [Bool.eq_iff_iff, Option.isNone_iff_eq_none, Option.isNone_iff_eq_none]
      exact staged.index_eq_none_iff hx
    rw [← hblanks]
    exact sorted_split (sorted_sortBoxes staged.boxOrder)
  · have hsome : ∀ x ∈ s.sortBoxes.boxes.filter (·.2.index.isSome), x.2.index.isSome = true :=
      fun x hx => (List.mem_filter.1 hx).2
    have hplaces : (s.sortBoxes.boxes.filter (·.2.index.isSome)).map (·.2.index)
        = (List.range nodes.length).map some := by
      rw [map_of_isSome hsome, ← staged.indices_sortBoxes, List.filterMap_filter]
      congr 1
      apply List.filterMap_congr
      intro x _
      cases x.2.index <;> rfl
    refine List.forall₂_iff_get.2 ⟨by simpa using congrArg List.length hplaces, ?_⟩
    intro i hi hn
    have hmem := List.get_mem (s.sortBoxes.boxes.filter (·.2.index.isSome)) ⟨i, hi⟩
    have hbox := mem_sortBoxes.1 (List.mem_filter.1 hmem).1
    have hindex : ((s.sortBoxes.boxes.filter (·.2.index.isSome)).get ⟨i, hi⟩).2.index = some i := by
      have hget := congrArg (·[i]?) hplaces
      simpa [List.getElem?_map, hi, hn] using hget
    obtain ⟨g, n, hg, hshows⟩ := staged.shows_of_index hbox hindex
    have hnode : nodes.get ⟨i, hn⟩ = (g, n) := (List.getElem?_eq_some_iff.1 hg).2
    rw [hnode]
    exact ⟨i, hshows⟩

end Patchbay.Scene
