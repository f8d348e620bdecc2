import Patchbay.Scene.Box
import Mathlib.Data.List.Basic

/-!
# The jacks of a box

A box holds its jacks in one list, cut by the count of its inlets. Fitting and laying out the jacks is
said here of each side. A box is numbered when the list is the inlets and then the outlets, each
numbered from zero; whatever is done with its jacks, a numbered box stays so.
-/

namespace Patchbay

namespace Jack

variable {side : Side} {l : Layout} {shown : Bool} {ps : List Jack} {fs : List Bool}

def label (p : Jack) : Side × Nat := (p.side, p.index)

def labels (side : Side) (count : Nat) : List (Side × Nat) :=
  (List.range count).map fun i => (side, i)

@[simp] theorem length_fit (side : Side) (ps : List Jack) (fs : List Bool) :
    (fit side ps fs).length = fs.length := by
  simp [fit]

theorem getElem?_fit (side : Side) (ps : List Jack) (fs : List Bool) (i : Nat) :
    (fit side ps fs)[i]? = fs[i]?.map (refit side i ps[i]?) :=
  List.getElem?_mapIdx

theorem map_signal_fit (side : Side) (ps : List Jack) (fs : List Bool) :
    (fit side ps fs).map signal = fs := by
  refine List.ext_getElem? fun i => ?_
  rw [List.getElem?_map, getElem?_fit]
  cases fs[i]? with
  | none => rfl
  | some f => cases ps[i]? <;> rfl

theorem fit_self (same : ps.map signal = fs) : fit side ps fs = ps := by
  refine List.ext_getElem? fun i => ?_
  rw [getElem?_fit, ← same, List.getElem?_map]
  cases ps[i]? <;> rfl

/-- The jacks that are kept keep their labels, and new ones are numbered on. -/
theorem map_label_fit (numbered : ps.map label = labels side ps.length) (fs : List Bool) :
    (fit side ps fs).map label = labels side fs.length := by
  refine List.ext_getElem? fun i => ?_
  have old := congrArg (·[i]?) numbered
  simp only [labels, List.getElem?_map] at old ⊢
  rw [getElem?_fit]
  rcases Nat.lt_or_ge i fs.length with below | above
  · rw [List.getElem?_eq_getElem below, List.getElem?_range below]
    cases there : ps[i]? with
    | none => rfl
    | some p =>
      have within := (List.getElem?_eq_some_iff.1 there).1
      rw [there, List.getElem?_range within] at old
      exact old
  · have past : (List.range fs.length)[i]? = none := List.getElem?_eq_none (by simpa using above)
    rw [List.getElem?_eq_none above, past]
    rfl

theorem map_place {β : Type} {g : Jack → β} (same : ∀ p r, g { p with bounds := r } = g p)
    (l : Layout) (shown : Bool) (ps : List Jack) : (place l shown ps).map g = ps.map g := by
  rw [place, List.map_map]
  exact List.map_congr_left fun p _ => same p _

theorem place_place (l l' : Layout) (shown shown' : Bool) (ps : List Jack) :
    place l shown (place l' shown' ps) = place l shown ps := by
  simp only [place, List.map_map]
  rfl

def spots (l : Layout) (shown : Bool) (side : Side) (count : Nat) : List Rect :=
  (List.range count).map fun i => if shown then l.bounds side i else .empty

theorem map_bounds_place (numbered : ps.map label = labels side ps.length) (l : Layout)
    (shown : Bool) : (place l shown ps).map bounds = spots l shown side ps.length := by
  have spot : (place l shown ps).map bounds
      = (ps.map label).map fun q => if shown then l.bounds q.1 q.2 else .empty := by
    simp only [place, List.map_map]
    rfl
  rw [spot, numbered, labels, List.map_map]
  rfl

end Jack

namespace Box

variable {b : Box} {side : Side} {i : Nat}

def count (b : Box) : Side → Nat
  | .inlet => b.inletCount
  | .outlet => b.outletCount

def jacks (b : Box) (side : Side) : List Jack := (b.group side).take (b.count side)

theorem jack?_eq (b : Box) (side : Side) (i : Nat) : b.jack? side i = (b.jacks side)[i]? := by
  rw [jacks, List.getElem?_take]
  cases side with
  | inlet =>
    by_cases below : i < b.inletCount <;>
      simp [jack?, slot?, group, count, inlets, below]
  | outlet =>
    by_cases below : i < b.outletCount <;>
      simp [jack?, slot?, group, count, outlets, below]

theorem isSome_jack?_iff : (b.jack? side i).isSome = true ↔ i < (b.jacks side).length := by
  rw [jack?_eq]
  simp

theorem jacks_congr {a : Box} (list : a.jackList = b.jackList) (inlets : a.inletCount = b.inletCount)
    (outlets : a.outletCount = b.outletCount) (side : Side) : a.jacks side = b.jacks side := by
  cases side <;> simp only [jacks, group, count, Box.inlets, Box.outlets, list, inlets, outlets]

theorem map_jacks {β : Type} {f : Jack → β} {a : Box} (list : a.jackList.map f = b.jackList.map f)
    (inlets : a.inletCount = b.inletCount) (outlets : a.outletCount = b.outletCount) (side : Side) :
    (a.jacks side).map f = (b.jacks side).map f := by
  cases side <;> simp only [jacks, group, count, Box.inlets, Box.outlets, List.map_take,
    List.map_drop, list, inlets, outlets]

theorem jacks_layoutJacks (b : Box) (side : Side) :
    b.layoutJacks.jacks side = Jack.place b.layout b.widget.showsJacks (b.jacks side) := by
  cases side <;> simp only [jacks, group, count, inlets, outlets, layoutJacks, Jack.place,
    List.map_take, List.map_drop]

theorem jacks_resizeGroups (b : Box) (ins outs : List Bool) (side : Side) :
    (b.resizeGroups ins outs).jacks side
      = Jack.fit side (b.group side) (match side with | .inlet => ins | .outlet => outs) := by
  have whole (side : Side) (ps : List Jack) (fs : List Bool) :
      (Jack.fit side ps fs).take fs.length = Jack.fit side ps fs :=
    List.take_of_length_le (Nat.le_of_eq (Jack.length_fit side ps fs))
  cases side <;> simp [jacks, group, count, inlets, outlets, resizeGroups, whole]

theorem length_jacks_le (b : Box) (side : Side) : (b.jacks side).length ≤ b.count side :=
  List.length_take_le _ _

theorem drop_modify {α : Type} (f : α → α) (n i : Nat) (xs : List α) :
    (xs.modify (n + i) f).drop n = (xs.drop n).modify i f := by
  refine List.ext_getElem? fun j => ?_
  simp only [List.getElem?_drop, List.getElem?_modify, Nat.add_left_cancel_iff]

theorem jacks_mapJack (b : Box) (side other : Side) (i : Nat) (f : Jack → Jack) :
    (b.mapJack side i f).jacks other
      = if other = side then (b.jacks side).modify i f else b.jacks other := by
  rcases Nat.lt_or_ge i (b.count side) with below | above
  · cases side with
    | inlet =>
      have inlet : i < b.inletCount := below
      cases other with
      | inlet => simp [mapJack, slot?, inlet, jacks, group, count, inlets, List.take_modify]
      | outlet =>
        simp [mapJack, slot?, inlet, jacks, group, count, outlets, List.drop_modify_of_lt]
    | outlet =>
      have outlet : i < b.outletCount := below
      cases other with
      | inlet =>
        have past : (b.jackList.take b.inletCount).length ≤ b.inletCount + i :=
          Nat.le_trans (List.length_take_le _ _) (Nat.le_add_right _ _)
        simp [mapJack, slot?, outlet, jacks, group, count, inlets, List.take_modify,
          List.modify_eq_self past]
      | outlet =>
        simp [mapJack, slot?, outlet, jacks, group, count, outlets, drop_modify, List.take_modify]
  · have kept : b.mapJack side i f = b := by
      cases side <;> simp only [count] at above <;> simp [mapJack, slot?, Nat.not_lt.2 above]
    rw [kept, List.modify_eq_self (Nat.le_trans (b.length_jacks_le side) above)]
    split
    · next same => rw [same]
    · rfl

theorem map_mapJack {β : Type} {f : Jack → Jack} {g : Jack → β} (same : ∀ p, g (f p) = g p) (b : Box)
    (side : Side) (i : Nat) : (b.mapJack side i f).jackList.map g = b.jackList.map g := by
  rw [mapJack]
  split
  · refine List.ext_getElem? fun j => ?_
    simp only [List.getElem?_map, List.getElem?_modify]
    split <;> cases b.jackList[j]? <;> simp [same]
  · rfl

theorem mapJack_eq (b : Box) (side : Side) (i : Nat) (f : Jack → Jack) :
    b.mapJack side i f = { b with jackList := (b.mapJack side i f).jackList } := by
  rw [mapJack]
  split <;> rfl

/-- The list holds the inlets and then the outlets, each numbered from zero. -/
def Numbered (b : Box) : Prop :=
  b.jackList.map Jack.label = Jack.labels .inlet b.inletCount ++ Jack.labels .outlet b.outletCount

theorem Numbered.map_label (numbered : b.Numbered) (side : Side) :
    (b.group side).map Jack.label = Jack.labels side (b.count side) := by
  have inlets : (Jack.labels .inlet b.inletCount).length = b.inletCount := by simp [Jack.labels]
  cases side with
  | inlet =>
    rw [group, Box.inlets, List.map_take, numbered, List.take_left' inlets]
    rfl
  | outlet =>
    rw [group, Box.outlets, List.map_drop, numbered, List.drop_left' inlets]
    rfl

theorem Numbered.length_group (numbered : b.Numbered) (side : Side) :
    (b.group side).length = b.count side := by
  simpa [Jack.labels] using congrArg List.length (numbered.map_label side)

theorem Numbered.jacks_eq (numbered : b.Numbered) (side : Side) : b.jacks side = b.group side :=
  List.take_of_length_le (Nat.le_of_eq (numbered.length_group side))

theorem Numbered.jackList_eq (numbered : b.Numbered) :
    b.jackList = b.jacks .inlet ++ b.jacks .outlet := by
  rw [numbered.jacks_eq, numbered.jacks_eq]
  exact (List.take_append_drop _ _).symm

theorem numbered_of_bare (list : b.jackList = []) (inlets : b.inletCount = 0)
    (outlets : b.outletCount = 0) : b.Numbered := by
  simp [Numbered, list, inlets, outlets, Jack.labels]

theorem Numbered.of_labels {a : Box} (numbered : b.Numbered)
    (labels : a.jackList.map Jack.label = b.jackList.map Jack.label)
    (inlets : a.inletCount = b.inletCount) (outlets : a.outletCount = b.outletCount) :
    a.Numbered := by
  rw [Numbered, labels, inlets, outlets, numbered]

theorem map_label_layoutJacks (b : Box) :
    b.layoutJacks.jackList.map Jack.label = b.jackList.map Jack.label :=
  Jack.map_place (fun _ _ => rfl) _ _ _

theorem Numbered.resizeGroups (numbered : b.Numbered) (ins outs : List Bool) :
    (b.resizeGroups ins outs).Numbered := by
  have labels (side : Side) :
      (b.group side).map Jack.label = Jack.labels side (b.group side).length := by
    rw [numbered.length_group side, numbered.map_label side]
  have inlets := Jack.map_label_fit (labels .inlet) ins
  have outlets := Jack.map_label_fit (labels .outlet) outs
  simp only [Numbered, Box.resizeGroups, List.map_append, Jack.length_fit]
  exact congrArg₂ (· ++ ·) inlets outlets

theorem Numbered.fitJacks (numbered : b.Numbered) (ins outs : List Bool) :
    (b.fitJacks ins outs).Numbered :=
  (numbered.resizeGroups ins outs).of_labels (map_label_layoutJacks _) rfl rfl

theorem Numbered.count_eq (numbered : b.Numbered) (side : Side) :
    (b.jackList.map Jack.side).count side = b.count side := by
  have sides : b.jackList.map Jack.side
      = List.replicate b.inletCount .inlet ++ List.replicate b.outletCount .outlet := by
    have first := congrArg (List.map Prod.fst) numbered
    simpa [Jack.labels, Jack.label, Function.comp_def, List.map_const'] using first
  cases side <;> simp [sides, count, List.count_replicate]

end Box

end Patchbay
