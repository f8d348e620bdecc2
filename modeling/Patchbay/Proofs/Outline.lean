import Patchbay.Canvas.Selection
import Patchbay.Proofs.Reconcile

/-!
# What a scene is at bottom

The outline of a scene leaves out all that gestures change about its boxes and cables: it is the keys,
the handles, the kinds and counts of jacks, the ends, and how the boxes are stacked. A scene is regular
when its outline is, which every operation on a scene keeps, whatever document it is reconciled with.
What makes a regular scene well-formed is that no two of its boxes have the same handle.
-/

namespace Patchbay

open Keyed (keys)

structure Box.Tag where
  handle : Option Nat
  widget : Widget
  editing : Bool
  index : Option Nat
  labels : List (Side × Nat)
  inletCount : Nat
  outletCount : Nat
  deriving DecidableEq, Repr

def Box.Tag.jacks (g : Box.Tag) : Side → Nat
  | .inlet => min g.inletCount g.labels.length
  | .outlet => min g.outletCount (g.labels.length - g.inletCount)

namespace Box

def tag (b : Box) : Tag :=
  ⟨b.handle, b.widget, b.editing, b.index, b.jackList.map Jack.label, b.inletCount, b.outletCount⟩

theorem jacks_tag (b : Box) (side : Side) : b.tag.jacks side = (b.jacks side).length := by
  cases side <;> simp [Tag.jacks, tag, jacks, group, count, inlets, outlets]

theorem tag_layoutJacks (b : Box) : b.layoutJacks.tag = b.tag := by
  rw [tag, map_label_layoutJacks]
  rfl

theorem tag_mapJack {f : Jack → Jack} (same : ∀ p, (f p).label = p.label) (b : Box) (side : Side)
    (i : Nat) : (b.mapJack side i f).tag = b.tag := by
  rw [tag, map_mapJack same, mapJack_eq]
  rfl

end Box

namespace Scene

def joint (c : Cable) : Nat × JackRef × JackRef := (c.handle, c.outlet, c.inlet)

theorem joint_eq_iff {c d : Cable} :
    joint c = joint d ↔ c.handle = d.handle ∧ c.outlet = d.outlet ∧ c.inlet = d.inlet := by
  simp [joint]

structure Outline where
  boxes : Arena Box.Tag
  cables : Arena (Nat × JackRef × JackRef)
  layers : List Layer
  deriving DecidableEq, Repr

def outline (s : Scene) : Outline where
  boxes := s.boxArena.map Box.tag
  cables := s.cableArena.map joint
  layers := s.layers

structure Regular (s : Scene) : Prop where
  boxOrder : s.boxArena.Exact
  cableOrder : s.cableArena.Exact
  cableHandles : (s.cables.map (·.2.handle)).Nodup
  editing : ∀ e ∈ s.boxes, e.2.editing = true ↔ e.2.handle = none
  unplaced : ∀ e ∈ s.boxes, e.2.handle = none → e.2.index = none

variable {s t : Scene} {l : Listing} {k h : Nat} {b : Box} {c : Cable}

theorem Regular.boxes (regular : s.Regular) : (keys s.boxes).Nodup := regular.boxOrder.nodup_keys

theorem Regular.cables (regular : s.Regular) : (keys s.cables).Nodup :=
  regular.cableOrder.nodup_keys

theorem wellFormed_iff : s.WellFormed ↔ s.Regular ∧ s.handles.Nodup := by
  constructor
  · intro wf
    exact ⟨⟨wf.boxOrder, wf.cableOrder, wf.cableHandles, wf.editing, wf.unplaced⟩, wf.handles⟩
  · rintro ⟨regular, distinct⟩
    exact ⟨regular.boxOrder, regular.cableOrder, distinct, regular.cableHandles, regular.editing,
      regular.unplaced⟩

theorem entries_outline (s : Scene) :
    s.outline.boxes.entries = s.boxes.map fun e => (e.1, e.2.tag) :=
  s.boxArena.entries_map Box.tag

theorem cables_outline (s : Scene) :
    s.outline.cables.entries = s.cables.map fun x => (x.1, joint x.2) :=
  s.cableArena.entries_map joint

theorem keys_boxes (s : Scene) : keys s.boxes = keys s.outline.boxes.entries := by
  simp [entries_outline, keys, Function.comp_def]

theorem keys_cables (s : Scene) : keys s.cables = keys s.outline.cables.entries := by
  simp [cables_outline, keys, Function.comp_def]

theorem handles_eq (s : Scene) : s.handles = s.outline.boxes.entries.filterMap (·.2.handle) := by
  simp [entries_outline, handles, List.filterMap_map, Box.tag]

theorem cableHandles_eq (s : Scene) :
    s.cables.map (·.2.handle) = s.outline.cables.entries.map (·.2.1) := by
  simp [cables_outline, joint, Function.comp_def]

theorem forall_boxes {P : Box.Tag → Prop} :
    (∀ e ∈ s.boxes, P e.2.tag) ↔ ∀ e ∈ s.outline.boxes.entries, P e.2 := by
  rw [entries_outline, List.forall_mem_map]

theorem tag_box? (s : Scene) (k : Nat) : (s.box? k).map Box.tag = s.outline.boxes.get? k :=
  (s.boxArena.get?_map Box.tag k).symm

theorem boxes_of_outline (same : t.outline = s.outline) {P : Box.Tag → Prop}
    (hs : ∀ e ∈ s.boxes, P e.2.tag) : ∀ e ∈ t.boxes, P e.2.tag := by
  rw [forall_boxes, same]
  exact forall_boxes.1 hs

theorem isSome_box?_of_outline (same : t.outline = s.outline) (k : Nat) :
    (t.box? k).isSome = (s.box? k).isSome := by
  have tags := congrArg (·.boxes.get? k) same
  simp only [← tag_box?] at tags
  simpa using congrArg Option.isSome tags

theorem isSome_jack?_of_outline (same : t.outline = s.outline) (ref : JackRef) :
    (t.jack? ref).isSome = (s.jack? ref).isSome := by
  have count (u : Scene) : (u.jack? ref).isSome
      = ((u.box? ref.box).map Box.tag).any fun g => decide (ref.index < g.jacks ref.side) := by
    rw [jack?]
    cases u.box? ref.box with
    | none => rfl
    | some b =>
      rw [Option.map_some, Option.any_some, Option.bind_some, Box.jacks_tag, Bool.eq_iff_iff,
        Box.isSome_jack?_iff, decide_eq_true_iff]
  rw [count, count, tag_box?, tag_box?, same]

theorem nextBox_of_outline (same : t.outline = s.outline) : t.nextBox = s.nextBox := by
  have next (u : Scene) : u.nextBox = u.outline.boxes.next := (Arena.next_map _ _).symm
  rw [next, same, ← next]

theorem nextCable_of_outline (same : t.outline = s.outline) : t.nextCable = s.nextCable := by
  have next (u : Scene) : u.nextCable = u.outline.cables.next := (Arena.next_map _ _).symm
  rw [next, same, ← next]

theorem Regular.of_outline (regular : s.Regular) (same : t.outline = s.outline) : t.Regular := by
  have boxes : t.boxArena.map Box.tag = s.boxArena.map Box.tag := congrArg Outline.boxes same
  have cables : t.cableArena.map joint = s.cableArena.map joint := congrArg Outline.cables same
  have handles : t.cables.map (·.2.handle) = s.cables.map (·.2.handle) := by
    rw [cableHandles_eq, same, ← cableHandles_eq]
  refine ⟨?_, ?_, handles ▸ regular.cableHandles,
    boxes_of_outline (P := fun g => g.editing = true ↔ g.handle = none) same regular.editing,
    boxes_of_outline (P := fun g => g.handle = none → g.index = none) same regular.unplaced⟩
  · rw [← Arena.Exact.map_iff Box.tag, boxes, Arena.Exact.map_iff]
    exact regular.boxOrder
  · rw [← Arena.Exact.map_iff joint, cables, Arena.Exact.map_iff]
    exact regular.cableOrder

theorem handles_of_outline (same : t.outline = s.outline) : t.handles = s.handles := by
  rw [handles_eq, same, ← handles_eq]

theorem WellFormed.of_outline (wf : s.WellFormed) (same : t.outline = s.outline) : t.WellFormed := by
  obtain ⟨regular, distinct⟩ := wellFormed_iff.1 wf
  exact wellFormed_iff.2 ⟨regular.of_outline same, handles_of_outline same ▸ distinct⟩

theorem outline_mapBoxes {f : Nat → Box → Box} (same : ∀ k b, (f k b).tag = b.tag) :
    (s.mapBoxes f).outline = s.outline := by
  simp only [outline, mapBoxes, Arena.map_mapValues Box.tag same]

theorem outline_mapCables {f : Nat → Cable → Cable} (same : ∀ k c, joint (f k c) = joint c) :
    (s.mapCables f).outline = s.outline := by
  simp only [outline, mapCables, Arena.map_mapValues joint same]

theorem outline_updateBox {f : Box → Box} (tag : ∀ b, (f b).tag = b.tag) :
    (s.updateBox k f).outline = s.outline := by
  simp only [outline, updateBox, Arena.map_update Box.tag tag]

theorem outline_updateBoxes {f : Box → Box} (tag : ∀ b, (f b).tag = b.tag) (ks : List Nat) :
    (s.updateBoxes ks f).outline = s.outline := by
  refine outline_mapBoxes fun k b => ?_
  split
  · exact tag b
  · rfl

theorem outline_updateCable {f : Cable → Cable} (same : ∀ c, joint (f c) = joint c) :
    (s.updateCable k f).outline = s.outline := by
  simp only [outline, updateCable, Arena.map_update joint same]

theorem outline_updateJack {f : Jack → Jack} (same : ∀ p, (f p).label = p.label) (s : Scene)
    (p : JackRef) : (s.updateJack p f).outline = s.outline :=
  outline_updateBox fun b => b.tag_mapJack same p.side p.index

@[simp] theorem outline_mark (sel : Selection) (s : Scene) : (sel.mark s).outline = s.outline := by
  have boxes : (s.mapBoxes fun k b => { b with selected := sel.boxes.contains k }).outline
      = s.outline := outline_mapBoxes fun _ _ => rfl
  rw [Selection.mark, ← boxes]
  exact outline_mapCables (f := fun k c => { c with selected := sel.cables.contains k })
    fun _ _ => rfl

theorem Regular.sublist (regular : s.Regular) (boxOrder : t.boxArena.Exact)
    (cableOrder : t.cableArena.Exact) (boxes : t.boxes.Sublist s.boxes)
    (cables : t.cables.Sublist s.cables) : t.Regular where
  boxOrder := boxOrder
  cableOrder := cableOrder
  cableHandles := regular.cableHandles.sublist (cables.map _)
  editing e he := regular.editing e (boxes.subset he)
  unplaced e he := regular.unplaced e (boxes.subset he)

theorem Regular.congr (regular : s.Regular) (boxes : t.boxArena = s.boxArena)
    (cables : t.cableArena = s.cableArena) : t.Regular :=
  regular.sublist (boxes ▸ regular.boxOrder) (cables ▸ regular.cableOrder)
    (boxes_congr boxes ▸ .refl _) (cables_congr cables ▸ .refl _)

theorem Regular.raise (regular : s.Regular) (k : Nat) : (s.raise k).Regular :=
  regular.congr (boxArena_raise s k) (cableArena_raise s k)

theorem Regular.keepCables (regular : s.Regular) (keep : Cable → Bool) :
    (s.keepCables keep).Regular := by
  have boxes := boxArena_keepCables s keep
  refine regular.sublist (boxes ▸ regular.boxOrder) (exact_keepCables regular.cableOrder keep)
    (boxes_congr boxes ▸ .refl _) ?_
  rw [cables_keepCables]
  exact List.filter_sublist

theorem Regular.foldl_removeBox (regular : s.Regular) (ks : List Nat) :
    (ks.foldl removeBox s).Regular := by
  have cables := cableArena_foldl_removeBox ks s
  refine regular.sublist ?_ (cables ▸ regular.cableOrder) ?_ (cables_congr cables ▸ .refl _)
  · rw [boxArena_foldl_removeBox]
    exact regular.boxOrder.foldl_remove ks
  · rw [boxes_foldl_removeBox]
    exact List.filter_sublist

theorem Regular.sortBoxes (regular : s.Regular) : s.sortBoxes.Regular where
  boxOrder := exact_sortBoxes regular.boxOrder
  cableOrder := regular.cableOrder
  cableHandles := regular.cableHandles
  editing e he := regular.editing e (mem_sortBoxes.1 he)
  unplaced e he := regular.unplaced e (mem_sortBoxes.1 he)

theorem Regular.updateBox (regular : s.Regular) {f : Box → Box}
    (editing : ∀ b, (k, b) ∈ s.boxes → ((f b).editing = true ↔ (f b).handle = none))
    (unplaced : ∀ b, (k, b) ∈ s.boxes → (f b).handle = none → (f b).index = none) :
    (s.updateBox k f).Regular where
  boxOrder := regular.boxOrder.update k f
  cableOrder := regular.cableOrder
  cableHandles := regular.cableHandles
  editing e he := by
    rw [boxes_updateBox] at he
    rcases Keyed.of_mem_update he with ⟨he, -⟩ | ⟨b, hb, rfl⟩
    · exact regular.editing e he
    · exact editing b hb
  unplaced e he := by
    rw [boxes_updateBox] at he
    rcases Keyed.of_mem_update he with ⟨he, -⟩ | ⟨b, hb, rfl⟩
    · exact regular.unplaced e he
    · exact unplaced b hb

theorem Regular.addBox (regular : s.Regular) (editing : b.editing = true ↔ b.handle = none)
    (unplaced : b.handle = none → b.index = none) : (s.addBox b).2.Regular where
  boxOrder := regular.boxOrder.insert b
  cableOrder := regular.cableOrder
  cableHandles := regular.cableHandles
  editing e he := by
    rw [boxes_addBox regular.boxOrder] at he
    rcases List.mem_append.1 he with he | he
    · exact regular.editing e he
    · rw [List.mem_singleton.1 he]
      exact editing
  unplaced e he := by
    rw [boxes_addBox regular.boxOrder] at he
    rcases List.mem_append.1 he with he | he
    · exact regular.unplaced e he
    · rw [List.mem_singleton.1 he]
      exact unplaced

theorem Regular.addCable (regular : s.Regular) (fresh : ∀ x ∈ s.cables, x.2.handle ≠ c.handle) :
    (s.addCable c).Regular where
  boxOrder := regular.boxOrder
  cableOrder := regular.cableOrder.insert c
  cableHandles := by
    rw [cables_addCable regular.cableOrder, List.map_append]
    refine regular.cableHandles.append (List.nodup_singleton _) ?_
    intro g hg hgc
    obtain ⟨x, hx, rfl⟩ := List.mem_map.1 hg
    exact fresh x hx (by simpa using hgc)
  editing := regular.editing
  unplaced := regular.unplaced

theorem Regular.replace (regular : s.Regular) {j : Nat} {old : Cable} (mem : (k, old) ∈ s.cables)
    (same : c.handle = old.handle) (hboxes : t.boxArena = s.boxArena) (exact : t.cableArena.Exact)
    (hcables : t.cables = Keyed.replace s.cables k j c) : t.Regular where
  boxOrder := hboxes ▸ regular.boxOrder
  cableOrder := exact
  cableHandles := by
    rw [hcables, Keyed.map_replace (g := Cable.handle) regular.cables mem same]
    exact regular.cableHandles
  editing := boxes_congr hboxes ▸ regular.editing
  unplaced := boxes_congr hboxes ▸ regular.unplaced

theorem Regular.replaceCable (regular : s.Regular) {old : Cable} (mem : (k, old) ∈ s.cables)
    (same : c.handle = old.handle) : (s.replaceCable k c).Regular :=
  have found := cable?_of_mem mem
  regular.replace mem same rfl (regular.cableOrder.replace found c)
    (cables_replaceCable regular.cableOrder found c)

theorem Regular.updateCable (regular : s.Regular) {old : Cable} (mem : (k, old) ∈ s.cables)
    (same : c.handle = old.handle) : (s.updateCable k fun _ => c).Regular :=
  regular.replace mem same rfl (regular.cableOrder.update k _)
    ((cables_updateCable s k _).trans (Keyed.update_const _ _ _))

theorem Regular.showNode (regular : s.Regular) (report : SyncReport) (e : NodeEntry) :
    (showNode l (s, report) e).1.Regular := by
  simp only [Scene.showNode]
  split
  · exact regular
  · next info _ =>
    split
    · next k howner =>
      obtain ⟨b, mem, named⟩ := mem_of_ownerOf? howner
      have only {a : Box} (ha : (k, a) ∈ s.boxes) : a.handle = some e.handle :=
        Keyed.eq_of_mem regular.boxes mem ha ▸ named
      refine (regular.updateBox (k := k) ?_ ?_).raise k
      · intro a ha
        exact regular.editing (k, a) ha
      · intro a ha none
        exact absurd ((only ha).symm.trans none) (by simp)
    · refine (regular.addBox ?_ ?_).raise _ <;>
        simp [Box.ofInfo, Box.fitJacks, Box.layoutJacks, Box.resizeGroups]

theorem Regular.showWire (regular : s.Regular) (owner : Nat → Option Nat) (report : SyncReport)
    (e : WireEntry) : (showWire l owner (s, report) e).1.Regular := by
  simp only [Scene.showWire]
  split
  · exact regular
  · next outlet inlet _ =>
    have named := (newCable_ends s e.handle outlet inlet ((l.token e.handle).getD "")).1
    split
    · next fresh =>
      refine regular.addCable ?_
      rw [named]
      exact cableOf?_eq_none.1 fresh
    · next k found =>
      obtain ⟨old, mem, held⟩ := mem_of_cableOf? found
      split
      · exact regular
      · next c hc =>
        obtain rfl : c = old := Option.some.inj (hc.symm.trans (cable?_of_mem mem))
        split
        · exact regular.replaceCable mem (named.trans held.symm)
        · split
          · exact regular
          · exact regular.updateCable mem (refreshCable_ends c _ _ _).1

theorem Regular.prune (regular : s.Regular) (l : Listing) : (s.prune l).Regular :=
  ((regular.keepCables _).foldl_removeBox _).keepCables _

theorem Regular.showNodes (regular : s.Regular) (report : SyncReport) :
    (showNodes l (s, report)).1.Regular := by
  refine List.foldlRecOn (motive := fun state : Scene × SyncReport => state.1.Regular) _ _
    regular ?_
  rintro ⟨t, report⟩ ht e _
  exact ht.showNode report e

theorem Regular.reconcile (regular : s.Regular) (l : Listing) : (s.reconcile l).1.Regular := by
  have shown := (regular.prune l).showNodes (l := l) {}
  obtain ⟨report, -, hrec⟩ := reconcile_of_showNodes (s := s) (l := l) rfl
  rw [hrec, showWires]
  refine List.foldlRecOn (motive := fun state : Scene × SyncReport => state.1.Regular) _ _
    (shown.sortBoxes.keepCables _) ?_
  rintro ⟨t, report⟩ ht e _
  exact ht.showWire _ report e

end Scene

end Patchbay
