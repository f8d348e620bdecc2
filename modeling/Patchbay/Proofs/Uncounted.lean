import Patchbay.Proofs.Identity
import Patchbay.Proofs.Numbered
import Patchbay.Proofs.Recast

/-!
# What a report leaves out

A report that counts no change means that the scene holds the boxes and cables that it held, the cables
in their order. It says nothing of the order of the boxes, nor of how they are stacked: both become the
document's at every pass, and neither is counted.
-/

namespace Patchbay

open Keyed (keys mapValues)

namespace SyncReport

def total (r : SyncReport) : Nat :=
  r.boxesAdded + r.boxesUpdated + r.boxesRemoved + r.cablesAdded + r.cablesReplaced
    + r.cablesRerouted + r.cablesRemoved

theorem isNoop_iff {r : SyncReport} : r.isNoop = true ↔ r.total = 0 := beq_iff_eq

end SyncReport

namespace Box

variable {b : Box} {info : NodeInfo}

/-- A box apart from its place in the document, with the widget of its kind. -/
def face (b : Box) : Box := { b with widget := Widget.ofKind b.kind, index := none }

theorem renew_of_not_stale (numbered : b.Numbered) (fresh : b.isStale info = false) (i : Nat) :
    b.kind = info.kind ∧ b.bounds = info.bounds.expanded margin ∧ b.renew info i = { b with
      widget := Widget.ofKind info.kind, bounds := info.bounds.expanded margin, index := some i } := by
  simp only [isStale, jacksDiffer, Bool.or_eq_false_iff, bne_eq_false_iff_eq] at fresh
  obtain ⟨⟨kind, bounds⟩, flags, spots⟩ := fresh
  let dressed : Box := { b with
    widget := Widget.ofKind info.kind, bounds := info.bounds.expanded margin, index := some i }
  have resized := Numbered.resizeGroups (b := b.dress info) numbered info.inlets info.outlets
  have sides := congrArg (List.map Prod.fst) flags
  have signals := congrArg (List.map Prod.snd) flags
  simp only [List.map_map, Function.comp_def] at sides signals
  have counts (side : Side) : b.count side = (info.signals side).length := by
    have listed := congrArg (List.count side) sides
    have known : (b.dress info).count side = _ := (numbered.count_eq side).symm.trans
      (listed.trans (resized.count_eq side))
    cases side
    exacts [known.trans (Jack.length_fit ..), known.trans (Jack.length_fit ..)]
  have held (side : Side) : (b.group side).map Jack.signal = info.signals side := by
    have inlets : b.inletCount = info.inlets.length := counts .inlet
    change b.jackList.map Jack.signal = _ at signals
    cases side with
    | inlet =>
      rw [group, Box.inlets, List.map_take, signals, inlets]
      simp only [resizeGroups, List.map_append, Jack.map_signal_fit, List.take_left, NodeInfo.signals]
    | outlet =>
      rw [group, Box.outlets, List.map_drop, signals, inlets]
      simp only [resizeGroups, List.map_append, Jack.map_signal_fit, List.drop_left, NodeInfo.signals]
  have same : (b.dress info).resizeGroups info.inlets info.outlets = b.dress info :=
    resizeGroups_of_flags held counts
  have laid : (b.dress info).layoutJacks = b.dress info := by
    rw [same] at spots
    exact layoutJacks_eq_self_iff.2 (spots.symm.trans (map_bounds_layoutJacks _))
  have steady : dressed.Steady info i :=
    ⟨rfl, rfl, rfl, held, counts, congrArg (fun c : Box => ({ c with index := some i } : Box)) laid⟩
  exact ⟨kind, bounds, steady.renew_eq⟩

theorem face_renew (numbered : b.Numbered) (fresh : b.isStale info = false) (i : Nat) :
    (b.renew info i).face = b.face := by
  obtain ⟨kind, bounds, renewed⟩ := renew_of_not_stale numbered fresh i
  rw [renewed, face, face, kind, ← bounds]
  simp only [Box.kind, Widget.kind_ofKind]

theorem Steady.widget_face {i : Nat} (steady : b.Steady info i) : b.face.widget = b.widget := by
  rw [face, kind, steady.widget, Widget.kind_ofKind]

end Box

namespace Scene

def faces (s : Scene) : Keyed Box := mapValues s.boxes fun _ => Box.face

/-- The cables, apart from their tokens. -/
def strands (s : Scene) : Keyed Cable := mapValues s.cables fun _ x => { x with token := "" }

variable {s t u : Scene} {l : Listing} {report : SyncReport}

/-- What is counted from one state to the next; if nothing is, nothing has changed that is counted. -/
structure Counts (a b : Scene × SyncReport) : Prop where
  grows : a.2.total ≤ b.2.total
  still : b.2.total ≤ a.2.total → b.1.faces = a.1.faces ∧ b.1.strands = a.1.strands

theorem Counts.refl (a : Scene × SyncReport) : Counts a a := ⟨Nat.le_refl _, fun _ => ⟨rfl, rfl⟩⟩

theorem Counts.trans {a b c : Scene × SyncReport} (first : Counts a b) (second : Counts b c) :
    Counts a c where
  grows := Nat.le_trans first.grows second.grows
  still same := by
    obtain ⟨faces, strands⟩ := first.still (Nat.le_trans second.grows same)
    obtain ⟨faces', strands'⟩ := second.still (Nat.le_trans same first.grows)
    exact ⟨faces'.trans faces, strands'.trans strands⟩

theorem counts_of_lt {a b : Scene × SyncReport} (more : a.2.total < b.2.total) : Counts a b :=
  ⟨Nat.le_of_lt more, fun same => absurd more (Nat.not_lt.2 same)⟩

theorem Regular.counts_showNode (regular : s.Regular) (numbered : s.Numbered) (report : SyncReport)
    (e : NodeEntry) : Counts (s, report) (Scene.showNode l (s, report) e) := by
  simp only [Scene.showNode]
  split
  · exact .refl _
  · next info _ =>
    split
    · next k owner =>
      obtain ⟨b, mem, -⟩ := mem_of_ownerOf? owner
      have found : s.box? k = some b := box?_of_mem mem
      rw [found, Option.any_some]
      cases stale : b.isStale info with
      | true =>
        refine counts_of_lt ?_
        simp only [SyncReport.total, if_true]
        omega
      | false =>
        refine ⟨Nat.le_refl _, fun _ => ⟨?_, ?_⟩⟩
        · simp only [faces, boxes_raise, boxes_updateBox]
          refine Keyed.mapValues_update fun a ha => ?_
          obtain rfl := Keyed.eq_of_mem regular.boxes mem ha
          exact Box.face_renew (numbered _ mem) stale e.index
        · simp only [strands, cables_congr (cableArena_raise _ _)]
          rfl
    · refine counts_of_lt ?_
      simp only [SyncReport.total]
      omega

theorem strand_refreshCable {x : Cable} {token : String} {start stop : Point}
    (same : (refreshCable x token start stop).route = x.route) :
    { refreshCable x token start stop with token := "" } = { x with token := "" } := by
  unfold refreshCable at same ⊢
  split at same
  · next new => simp only [if_pos new, same]
  · next old => simp only [if_neg old, same]

theorem counts_showWire (s : Scene) (owner : Nat → Option Nat) (report : SyncReport)
    (e : WireEntry) :
    Counts (s, report) (Scene.showWire l owner (s, report) e) := by
  simp only [Scene.showWire]
  split
  · exact ⟨Nat.le_refl _, fun _ => ⟨rfl, rfl⟩⟩
  · split
    · refine counts_of_lt ?_
      simp only [SyncReport.total]
      omega
    · next k _ =>
      split
      · exact .refl _
      · next x found =>
        split
        · refine counts_of_lt ?_
          simp only [SyncReport.total]
          omega
        · split
          · exact .refl _
          · split
            · next same =>
              refine ⟨Nat.le_refl _, fun _ => ⟨rfl, ?_⟩⟩
              simp only [strands, cables_updateCable]
              refine Keyed.mapValues_update fun y hy => ?_
              obtain rfl := Option.some.inj (found.symm.trans (cable?_of_mem hy))
              exact strand_refreshCable same
            · refine counts_of_lt ?_
              simp only [SyncReport.total]
              omega

/-- What is taken out is counted: if nothing is, the scene and the report are as they were. -/
structure Tells (a b : Scene × SyncReport) : Prop where
  grows : a.2.total ≤ b.2.total
  still : b.2.total ≤ a.2.total → b = a

theorem Tells.trans {a b c : Scene × SyncReport} (first : Tells a b) (second : Tells b c) :
    Tells a c where
  grows := Nat.le_trans first.grows second.grows
  still same := (second.still (Nat.le_trans same first.grows)).trans
    (first.still (Nat.le_trans second.grows same))

theorem tells_purgeCables (keep : Scene → Cable → Bool) (state : Scene × SyncReport) :
    Tells state (purgeCables keep state) := by
  obtain ⟨s, report⟩ := state
  have total : (purgeCables keep (s, report)).2.total
      = report.total + (s.retainCables (keep s)).2 := by
    simp only [purgeCables, SyncReport.total]
    omega
  refine ⟨total ▸ Nat.le_add_right _ _, fun same => ?_⟩
  rw [total] at same
  have none : (s.cables.filter fun e => !keep s e.2).length = 0 := by
    have length : (s.cables.filter fun e => !keep s e.2).length = (s.retainCables (keep s)).2 :=
      (List.length_map _).symm
    dsimp only at same
    omega
  exact purgeCables_of_all fun x hx => by
    simpa using List.filter_eq_nil_iff.1 (List.length_eq_zero_iff.1 none) x hx

theorem tells_purgeBoxes (l : Listing) (state : Scene × SyncReport) :
    Tells state (purgeBoxes l state) := by
  obtain ⟨s, report⟩ := state
  rw [purgeBoxes, foldl_purgeBox]
  generalize keys (s.boxes.filter fun e => !isLive l e.2) = stale
  refine ⟨?_, fun same => ?_⟩
  · simp only [SyncReport.total]
    omega
  · simp only [SyncReport.total] at same
    have none : stale = [] := List.length_eq_zero_iff.1 (by omega)
    rw [none]
    rfl

theorem tells_purge (l : Listing) (state : Scene × SyncReport) : Tells state (purge l state) :=
  ((tells_purgeCables _ state).trans (tells_purgeBoxes l _)).trans (tells_purgeCables _ _)

theorem Regular.counts_showNodes (regular : s.Regular) (numbered : s.Numbered)
    (report : SyncReport) : Counts (s, report) (Scene.showNodes l (s, report)) := by
  refine (List.foldlRecOn (motive := fun state : Scene × SyncReport => (state.1.Regular ∧
    state.1.Numbered) ∧ Counts (s, report) state) _ _ ⟨⟨regular, numbered⟩, .refl _⟩ ?_).2
  rintro ⟨t, report'⟩ ⟨⟨regular, numbered⟩, counts⟩ e -
  exact ⟨⟨regular.showNode report' e, numbered.showNode report' e⟩,
    counts.trans (regular.counts_showNode numbered report' e)⟩

theorem Regular.counts_showWires (regular : s.Regular) (owner : Nat → Option Nat)
    (report : SyncReport) : Counts (s, report) (Scene.showWires l owner (s, report)) := by
  refine (List.foldlRecOn (motive := fun state : Scene × SyncReport => state.1.Regular ∧
    Counts (s, report) state) _ _ ⟨regular, .refl _⟩ ?_).2
  rintro ⟨t, report'⟩ ⟨regular, counts⟩ e -
  exact ⟨regular.showWire owner report' e, counts.trans (counts_showWire _ owner report' e)⟩

/-- Where nothing is counted, all that there was is there, and the cables in their order. -/
theorem Regular.same_of_isNoop (regular : s.Regular) (numbered : s.Numbered)
    (noop : (s.reconcile l).2.isNoop = true) :
    s.prune l = s ∧ (s.reconcile l).1.faces.Perm s.faces ∧ (s.reconcile l).1.strands = s.strands := by
  have purged := tells_purge l (s, {})
  have shown := (regular.prune l).showNodes (l := l) (purge l (s, {})).2
  have nodes := (regular.prune l).counts_showNodes (l := l) (numbered.prune l) (purge l (s, {})).2
  rw [← purge_fst l (s, {})] at shown nodes
  rw [SyncReport.isNoop_iff] at noop
  simp only [Scene.reconcile] at noop ⊢
  generalize first : purge l (s, {}) = pruned at purged shown nodes noop ⊢
  generalize Scene.showNodes l (pruned.1, pruned.2) = drawn at shown nodes noop ⊢
  obtain ⟨t, report⟩ := drawn
  have dropped := tells_purgeCables isWired (t.sortBoxes, report)
  have left : (purgeCables isWired (t.sortBoxes, report)).1.Regular := shown.sortBoxes.keepCables _
  generalize purgeCables isWired (t.sortBoxes, report) = sorted at dropped left noop ⊢
  have wires := left.counts_showWires (l := l) t.ownerOf? sorted.2
  have rest : sorted.2.total ≤ 0 := noop ▸ wires.grows
  have before : report.total ≤ 0 := Nat.le_trans dropped.grows rest
  have start : pruned.2.total ≤ 0 := Nat.le_trans nodes.grows before
  obtain ⟨faces', strands'⟩ := wires.still (noop ▸ Nat.zero_le _)
  obtain rfl := dropped.still (Nat.le_trans rest (Nat.zero_le _))
  obtain ⟨faces, strands⟩ := nodes.still (Nat.le_trans before (Nat.zero_le _))
  obtain rfl := purged.still start
  refine ⟨(purge_fst l (s, {})).symm.trans (congrArg Prod.fst first), ?_, strands'.trans strands⟩
  rw [faces', ← faces]
  exact (perm_sortBoxes t).map _

/-- The boxes of the nodes stand in the order of the document, before those that are being typed. -/
def InOrder (c : Contents) (s : Scene) : Prop :=
  s.boxes.map (fun e => e.2.handle) = (keys c.nodes).map some ++ s.blanks.map fun e => e.2.handle

def layersOfNode (s : Scene) (h : Nat) : List Layer :=
  (s.faces.filter fun e => e.2.handle == some h).flatMap fun e => layersOf e.1 e.2

/-- The boxes of the nodes lie on top of all others, in the order of the document. -/
def Piled (c : Contents) (s : Scene) : Prop :=
  ∃ below, s.layers = below ++ (keys c.nodes).flatMap s.layersOfNode ∧
    ∀ y ∈ below, ∀ e ∈ s.boxes, e.1 = y.key → e.2.handle = none

variable {c : Contents} {shown : Keyed Box}

/-- Two lists with the same entries whose handles stand in the same order are the same, if no handle
stands twice and the entries without one are in their order. -/
theorem eq_of_perm_of_handles {α : Type} {f : α → Option Nat} {xs ys : List α} (perm : xs.Perm ys)
    (order : xs.map f = ys.map f) (nodup : (xs.filterMap f).Nodup)
    (unnamed : (xs.filter fun x => (f x).isNone) = ys.filter fun y => (f y).isNone) : xs = ys := by
  induction xs generalizing ys with
  | nil => exact (List.nil_perm.1 perm).symm
  | cons x xs ih =>
    cases ys with
    | nil => exact absurd perm.length_eq (by simp)
    | cons y ys =>
      obtain ⟨head, tail⟩ := List.cons.inj order
      cases named : f x with
      | none =>
        have other : f y = none := head ▸ named
        simp only [List.filter_cons, named, other, Option.isNone_none, if_true] at unnamed
        obtain ⟨rfl, rest⟩ := List.cons.inj unnamed
        rw [List.filterMap_cons_none named] at nodup
        rw [ih perm.cons_inv tail nodup rest]
      | some h =>
        have other : f y = some h := head ▸ named
        simp only [List.filter_cons, named, other, Option.isNone_some, Bool.false_eq_true,
          if_false] at unnamed
        rw [List.filterMap_cons_some named, List.nodup_cons] at nodup
        have same : x = y := by
          rcases List.mem_cons.1 (perm.mem_iff.2 List.mem_cons_self) with same | later
          · exact same.symm
          · exact absurd (List.mem_filterMap.2 ⟨y, later, other⟩) nodup.1
        subst same
        rw [ih perm.cons_inv tail nodup.2 unnamed]

theorem handles_of_rows {nodes : Keyed Node} (rows : Rows nodes shown) :
    shown.map (fun e => e.2.handle) = (keys nodes).map some := by
  refine List.ext_getElem (by simp [keys, rows.1]) fun j hj _ => ?_
  rw [List.length_map] at hj
  obtain ⟨h, n, hn, named, -⟩ := rows.2 j _ (List.getElem?_eq_getElem hj)
  obtain ⟨hlt, same⟩ := List.getElem?_eq_some_iff.1 hn
  simp [keys, named, same]

theorem layersOf_face {b : Box} (k : Nat) (widget : b.face.widget = b.widget) :
    layersOf k b.face = layersOf k b := by
  rw [layersOf, layersOf, widget]

theorem handles_faces (s : Scene) :
    s.faces.map (fun e => e.2.handle) = s.boxes.map fun e => e.2.handle := by
  rw [faces, mapValues, List.map_map]
  rfl

theorem WellFormed.nodup_faces (wf : s.WellFormed) :
    (s.faces.filterMap fun e => e.2.handle).Nodup := by
  rw [faces, mapValues, List.filterMap_map]
  exact wf.handles

theorem WellFormed.layersOfNode_eq {k h : Nat} {b : Box} (wf : s.WellFormed) (mem : (k, b) ∈ s.faces)
    (named : b.handle = some h) : s.layersOfNode h = layersOf k b := by
  have once : s.faces.Nodup := by
    refine List.Nodup.of_map Prod.fst ?_
    rw [faces, mapValues, List.map_map]
    exact wf.boxes
  have one : (s.faces.filter fun e => e.2.handle == some h) = [(k, b)] := by
    have same : (s.faces.filter fun e => e.2.handle == some h)
        = s.faces.filter fun e => e == (k, b) := by
      refine List.filter_congr fun e he => ?_
      by_cases here : e.2.handle = some h
      · obtain rfl := eq_of_handle wf.nodup_faces he mem here named
        simp [named]
      · have other : e ≠ (k, b) := by
          rintro rfl
          exact here named
        simp [here, other]
    rw [same, List.filter_beq, List.count_eq_one_of_mem once mem, List.replicate_one]
  rw [layersOfNode, one, List.flatMap_singleton]

theorem WellFormed.flatMap_layersOfNode {nodes : Keyed Node} (wf : s.WellFormed)
    (rows : Rows nodes shown) (there : ∀ e ∈ shown, (e.1, e.2.face) ∈ s.faces) :
    (keys nodes).flatMap s.layersOfNode = shown.flatMap fun e => layersOf e.1 e.2 := by
  let layersOfOption (o : Option Nat) : List Layer := o.elim [] s.layersOfNode
  have pile : (keys nodes).flatMap s.layersOfNode
      = (shown.map fun e => e.2.handle).flatMap layersOfOption := by
    rw [handles_of_rows rows, List.flatMap_map]
    rfl
  rw [pile, List.flatMap_map]
  refine List.flatMap_congr fun e he => ?_
  obtain ⟨j, hj⟩ := List.mem_iff_getElem?.1 he
  obtain ⟨h, n, -, named, steady⟩ := rows.2 j e hj
  have alone := wf.layersOfNode_eq (there e he) named
  simp only [layersOfOption, named, Option.elim_some, alone, layersOf_face e.1 steady.widget_face]

theorem WellFormed.faces_eq_iff (wf : s.WellFormed) (course : Course c s shown t report)
    (perm : (s.reconcile c.listing).1.faces.Perm s.faces) :
    (s.reconcile c.listing).1.faces = s.faces ↔ s.InOrder c := by
  have order : (s.reconcile c.listing).1.faces.map (fun e => e.2.handle)
      = (keys c.nodes).map some ++ s.blanks.map fun e => e.2.handle := by
    rw [handles_faces, course.boxes_eq, List.map_append, handles_of_rows course.rows]
  have unnamed (v : Scene) : (v.faces.filter fun e => e.2.handle.isNone)
      = mapValues v.blanks fun _ => Box.face := by
    rw [faces, mapValues, List.filter_map]
    rfl
  rw [InOrder, ← order, ← handles_faces s]
  constructor
  · intro same
    rw [same]
  · intro same
    refine eq_of_perm_of_handles perm same.symm ?_ ?_
    · exact (perm.filterMap _).nodup_iff.2 wf.nodup_faces
    · rw [unnamed, unnamed, wf.blanks_reconcile c.listing]

theorem WellFormed.layers_eq_iff (wf : s.WellFormed) (course : Course c s shown t report)
    (pruned : s.prune c.listing = s) (perm : (s.reconcile c.listing).1.faces.Perm s.faces) :
    (s.reconcile c.listing).1.layers = s.layers ↔ s.Piled c := by
  have there (e : Nat × Box) (he : e ∈ shown) : (e.1, e.2.face) ∈ s.faces := by
    refine perm.mem_iff.1 (Keyed.mem_mapValues.2 ⟨e.2, ?_, rfl⟩)
    exact course.boxes_eq ▸ List.mem_append_left _ he
  rw [course.layers_eq, pruned, Piled, wf.flatMap_layersOfNode course.rows there]
  constructor
  · intro same
    refine ⟨_, same.symm, fun y hy e he named => ?_⟩
    have away : y.key ∉ keys shown := by simpa using (List.mem_filter.1 hy).2
    have kept : (e.1, e.2.face) ∈ (s.reconcile c.listing).1.faces :=
      perm.mem_iff.2 (Keyed.mem_mapValues.2 ⟨e.2, he, rfl⟩)
    obtain ⟨b, hb, same⟩ := Keyed.mem_mapValues.1 kept
    have handle : e.2.face.handle = b.face.handle := congrArg Box.handle same
    rcases List.mem_append.1 (course.boxes_eq ▸ hb) with hb | hb
    · exact absurd (named ▸ Keyed.mem_keys_of_mem hb) away
    · exact handle.trans (Option.isNone_iff_eq_none.1 (List.mem_filter.1 hb).2)
  · rintro ⟨below, same, unnamed⟩
    have apart : ∀ y ∈ below, y.key ∉ keys shown := by
      intro y hy known
      obtain ⟨e, he, named⟩ := List.mem_map.1 known
      obtain ⟨b, hb, same⟩ := Keyed.mem_mapValues.1 (there e he)
      obtain ⟨j, hj⟩ := List.mem_iff_getElem?.1 he
      obtain ⟨h, -, -, shows, -⟩ := course.rows.2 j e hj
      have handle : e.2.face.handle = b.face.handle := congrArg Box.handle same
      exact absurd (shows.symm.trans (handle.trans (unnamed y hy (e.1, b) hb named))) (by simp)
    rw [same, filter_layers_of_below apart]

/-- A report that counts no change leaves the boxes and cables, and the order of the cables. The order
of the boxes stays just when it is that of the document, and so does their order in depth. -/
theorem reconcile_noop (s : Scene) (wf : s.WellFormed) (numbered : s.Numbered) (p : Patch)
    (nodup : (keys p.nodes).Nodup)
    (noop : (s.reconcile (Document.listing (Document.deliver (Document.deliver p)))).2.isNoop = true) :
    let u := (s.reconcile (Document.listing (Document.deliver (Document.deliver p)))).1
    u.faces.Perm s.faces ∧ u.strands = s.strands ∧
      (u.faces = s.faces ↔ s.InOrder p.toContents) ∧ (u.layers = s.layers ↔ s.Piled p.toContents) := by
  intro u
  obtain ⟨pruned, perm, strands⟩ :=
    (wellFormed_iff.1 wf).1.same_of_isNoop (l := p.toContents.listing) numbered noop
  obtain ⟨shown, t, report, course⟩ := wf.course (c := p.toContents) nodup
  exact ⟨perm, strands, wf.faces_eq_iff course perm, wf.layers_eq_iff course pruned perm⟩

/-- Two boxes that show their nodes, with a box that is being typed on top of them. -/
def littered : Scene := ((reconcile twins.listing {}).1.addBox (.blank ⟨5, 5⟩)).2

theorem wellFormed_littered : littered.WellFormed :=
  ⟨((wellFormed_empty.reconcile (c := twins.toContents) (by decide)).boxOrder).insert _,
    (wellFormed_empty.reconcile (c := twins.toContents) (by decide)).cableOrder,
    by decide +kernel, by decide +kernel, by decide +kernel, by decide +kernel⟩

theorem numbered_littered : littered.Numbered :=
  (numbered_empty.reconcile _).addBox (Box.numbered_of_bare rfl rfl rfl)

/-- The nodes change places: their boxes do so too, and come to lie on top. -/
theorem reconcile_noop_littered :
    let p := twins.swap 0 1
    let result := littered.reconcile (Document.listing (Document.deliver (Document.deliver p)))
    littered.WellFormed ∧ littered.Numbered ∧ (keys p.nodes).Nodup ∧ result.2.isNoop = true ∧
      (result.1.faces.Perm littered.faces ∧ result.1.strands = littered.strands ∧
        (result.1.faces = littered.faces ↔ littered.InOrder p.toContents) ∧
        (result.1.layers = littered.layers ↔ littered.Piled p.toContents)) ∧
      keys littered.boxes = [1, 2, 3] ∧ keys result.1.boxes = [2, 1, 3] ∧
      littered.layers.map Layer.key = [1, 2, 3] ∧ result.1.layers.map Layer.key = [3, 2, 1] := by
  have nodup : (keys (twins.swap 0 1).nodes).Nodup := by decide
  have noop : (littered.reconcile (twins.swap 0 1).listing).2.isNoop = true := by decide +kernel
  exact ⟨wellFormed_littered, numbered_littered, nodup, noop,
    reconcile_noop littered wellFormed_littered numbered_littered (twins.swap 0 1) nodup noop,
    by decide +kernel, by decide +kernel, by decide +kernel, by decide +kernel⟩

theorem reconcile_noop_moves : ¬ ∀ s : Scene, s.WellFormed → ∀ p : Patch, (keys p.nodes).Nodup →
    let result := s.reconcile (Document.listing (Document.deliver (Document.deliver p)))
    result.2.isNoop = true →
      result.1.faces = s.faces ∧ result.1.layers = s.layers ∧ result.1.strands = s.strands := by
  intro always
  have noop : (littered.reconcile (twins.swap 0 1).listing).2.isNoop = true := by decide +kernel
  obtain ⟨-, layers, -⟩ := always littered wellFormed_littered (twins.swap 0 1) (by decide) noop
  have moved : ((littered.reconcile (twins.swap 0 1).listing).1.layers.map Layer.key)
      ≠ littered.layers.map Layer.key := by
    decide +kernel
  exact moved (congrArg (List.map Layer.key) layers)

end Scene

end Patchbay
