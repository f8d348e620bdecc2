import Patchbay.Proofs.Boxes

/-!
# Boxes that are up to date

A refreshed box has what its node says and nothing to catch up on: refreshing it again changes
nothing. Selecting the box, aiming at its jacks and holding it in a drag leave it up to date.
-/

namespace Patchbay

def NodeInfo.signals (info : NodeInfo) : Side → List Bool
  | .inlet => info.inlets
  | .outlet => info.outlets

namespace Box

variable {a b : Box} {info : NodeInfo} {j : Nat} {side : Side}

/-- What the pass over the nodes makes of the box of a node. -/
def renew (b : Box) (info : NodeInfo) (index : Nat) : Box :=
  { b.refresh info with index := some index }

/-- A box that has all that the document says of its node, with its jacks in their places. -/
structure Steady (b : Box) (info : NodeInfo) (index : Nat) : Prop where
  widget : b.widget = Widget.ofKind info.kind
  bounds : b.bounds = info.bounds.expanded margin
  index : b.index = some index
  flags : ∀ side, (b.group side).map Jack.signal = info.signals side
  counts : ∀ side, b.count side = (info.signals side).length
  laid : b.layoutJacks = b

theorem layoutJacks_layoutJacks (b : Box) : b.layoutJacks.layoutJacks = b.layoutJacks := by
  have same : b.layoutJacks.layout = b.layout := rfl
  rw [layoutJacks, same]
  exact congrArg (fun ps => ({ b with jackList := ps } : Box)) (Jack.place_place _ _ _ _ _)

theorem handle_renew (b : Box) (info : NodeInfo) (j : Nat) : (b.renew info j).handle = b.handle := rfl

theorem steady_renew (b : Box) (info : NodeInfo) (j : Nat) : (b.renew info j).Steady info j where
  widget := rfl
  bounds := rfl
  index := rfl
  flags side := by
    cases side with
    | inlet => exact map_signal_inlets (b.dress info) info.inlets info.outlets
    | outlet => exact map_signal_outlets (b.dress info) info.inlets info.outlets
  counts side := by
    cases side with
    | inlet => exact inletCount_fitJacks (b.dress info) info.inlets info.outlets
    | outlet => exact outletCount_fitJacks (b.dress info) info.inlets info.outlets
  laid := congrArg (fun c : Box => ({ c with index := some j } : Box))
    (layoutJacks_layoutJacks ((b.dress info).resizeGroups info.inlets info.outlets))

theorem steady_ofInfo (h : Nat) (info : NodeInfo) (j : Nat) : (ofInfo h info j).Steady info j :=
  steady_renew { handle := some h, widget := .comment, bounds := .empty, index := none } info j

theorem Numbered.renew (numbered : b.Numbered) (info : NodeInfo) (j : Nat) :
    (b.renew info j).Numbered :=
  Numbered.fitJacks (b := b.dress info) numbered info.inlets info.outlets

theorem numbered_ofInfo (h : Nat) (info : NodeInfo) (j : Nat) : (ofInfo h info j).Numbered :=
  (numbered_of_bare rfl rfl rfl).fitJacks info.inlets info.outlets

theorem resizeGroups_of_flags (flags : ∀ side, (b.group side).map Jack.signal = info.signals side)
    (counts : ∀ side, b.count side = (info.signals side).length) :
    b.resizeGroups info.inlets info.outlets = b := by
  have inlets : Jack.fit .inlet b.inlets info.inlets = b.inlets := Jack.fit_self (flags .inlet)
  have outlets : Jack.fit .outlet b.outlets info.outlets = b.outlets :=
    Jack.fit_self (flags .outlet)
  have list : b.inlets ++ b.outlets = b.jackList := List.take_append_drop _ _
  have length (side : Side) : (b.group side).length = b.count side := by
    rw [counts, ← flags, List.length_map]
  have inletCount : b.inlets.length = b.inletCount := length .inlet
  have outletCount : b.outlets.length = b.outletCount := length .outlet
  simp only [resizeGroups, inlets, outlets, list, inletCount, outletCount]

namespace Steady

theorem length_group (steady : b.Steady info j) (side : Side) :
    (b.group side).length = b.count side := by
  rw [steady.counts, ← steady.flags, List.length_map]

theorem jacks_eq (steady : b.Steady info j) (side : Side) : b.jacks side = b.group side :=
  List.take_of_length_le (Nat.le_of_eq (steady.length_group side))

theorem signals (steady : b.Steady info j) (side : Side) :
    (b.jacks side).map Jack.signal = info.signals side := by
  rw [steady.jacks_eq, steady.flags]

theorem length (steady : b.Steady info j) (side : Side) :
    (b.jacks side).length = (info.signals side).length := by
  rw [← steady.signals, List.length_map]

theorem resizeGroups_eq (steady : b.Steady info j) :
    b.resizeGroups info.inlets info.outlets = b :=
  resizeGroups_of_flags steady.flags steady.counts

theorem fitJacks_eq (steady : b.Steady info j) : b.fitJacks info.inlets info.outlets = b := by
  rw [fitJacks, steady.resizeGroups_eq, steady.laid]

theorem dress_eq (steady : b.Steady info j) : b.dress info = b := by
  rw [dress, ← steady.widget, ← steady.bounds]

theorem renew_eq (steady : b.Steady info j) : b.renew info j = b := by
  rw [renew, refresh, steady.dress_eq, steady.fitJacks_eq, ← steady.index]

theorem isStale_eq_false (steady : b.Steady info j) : b.isStale info = false := by
  have kind : b.kind = info.kind := by
    rw [Box.kind, steady.widget, Widget.kind_ofKind]
  simp [isStale, steady.dress_eq, jacksDiffer, steady.resizeGroups_eq, steady.laid, kind,
    steady.bounds]

end Steady

theorem map_bounds_layoutJacks (b : Box) : b.layoutJacks.jackList.map Jack.bounds
    = (b.jackList.map Jack.label).map fun q =>
      if b.widget.showsJacks then b.layout.bounds q.1 q.2 else .empty := by
  simp only [layoutJacks, Jack.place, List.map_map]
  rfl

theorem layoutJacks_eq_self_iff : b.layoutJacks = b ↔ b.jackList.map Jack.bounds
    = (b.jackList.map Jack.label).map fun q =>
      if b.widget.showsJacks then b.layout.bounds q.1 q.2 else .empty := by
  constructor
  · intro laid
    rw [← map_bounds_layoutJacks, laid]
  · intro same
    have each : b.jackList.map (fun p => { p with bounds :=
        if b.widget.showsJacks then b.layout.bounds p.side p.index else .empty }) = b.jackList := by
      refine (List.map_congr_left fun p mem => ?_).trans (List.map_id _)
      rw [List.map_map] at same
      have spot : p.bounds = if b.widget.showsJacks then b.layout.bounds p.side p.index else .empty :=
        List.map_inj_left.1 same p mem
      rw [← spot]
      rfl
    exact congrArg (fun ps => ({ b with jackList := ps } : Box)) each

theorem Numbered.spots (numbered : b.Numbered) (laid : b.layoutJacks = b) (side : Side) :
    (b.jacks side).map Jack.bounds
      = Jack.spots b.layout b.widget.showsJacks side (b.jacks side).length := by
  have label : (b.jacks side).map Jack.label = Jack.labels side (b.jacks side).length := by
    rw [numbered.jacks_eq, numbered.map_label, numbered.length_group]
  have placed := Jack.map_bounds_place label b.layout b.widget.showsJacks
  rwa [← jacks_layoutJacks, laid] at placed

theorem jackBounds?_congr (bounds : a.bounds = b.bounds)
    (spots : ∀ side, (a.jacks side).map Jack.bounds = (b.jacks side).map Jack.bounds)
    (side : Side) (i : Nat) :
    (a.jack? side i).map a.jackBounds = (b.jack? side i).map b.jackBounds := by
  have spot := congrArg (·[i]?) (spots side)
  simp only [List.getElem?_map] at spot
  have shift (c : Box) (p : Option Jack) : p.map c.jackBounds
      = (p.map Jack.bounds).map fun r => r.shifted c.bounds.position := by
    cases p <;> rfl
  rw [shift, shift, bounds, jack?_eq, jack?_eq, spot]

theorem layout_congr (bounds : a.bounds = b.bounds) (counts : ∀ side, a.count side = b.count side) :
    a.layout = b.layout := by
  have inlets : a.inletCount = b.inletCount := counts .inlet
  have outlets : a.outletCount = b.outletCount := counts .outlet
  rw [layout, layout, bounds, inlets, outlets]

theorem Steady.jackBounds? {i : Nat} (steady : a.Steady info i) (other : b.Steady info j)
    (numbered : a.Numbered) (numbered' : b.Numbered) (side : Side) (k : Nat) :
    (a.jack? side k).map a.jackBounds = (b.jack? side k).map b.jackBounds := by
  have bounds : a.bounds = b.bounds := steady.bounds.trans other.bounds.symm
  have counts (side : Side) : a.count side = b.count side :=
    (steady.counts side).trans (other.counts side).symm
  refine jackBounds?_congr bounds (fun side => ?_) side k
  rw [numbered.spots steady.laid, numbered'.spots other.laid, layout_congr bounds counts,
    steady.widget, other.widget, steady.length, other.length]

/-- The same box but for what a canvas marks on it: selection, aim, and the bounds before a drag. -/
structure Alike (a b : Box) : Prop where
  handle : a.handle = b.handle
  widget : a.widget = b.widget
  bounds : a.bounds = b.bounds
  editing : a.editing = b.editing
  index : a.index = b.index
  counts : ∀ side, a.count side = b.count side
  labels : a.jackList.map Jack.label = b.jackList.map Jack.label
  flags : a.jackList.map Jack.signal = b.jackList.map Jack.signal
  spots : a.jackList.map Jack.bounds = b.jackList.map Jack.bounds

namespace Alike

theorem layout (alike : a.Alike b) : a.layout = b.layout :=
  layout_congr alike.bounds alike.counts

theorem map_jacks {β : Type} {f : Jack → β} (alike : a.Alike b)
    (list : a.jackList.map f = b.jackList.map f) (side : Side) :
    (a.jacks side).map f = (b.jacks side).map f :=
  Box.map_jacks list (alike.counts .inlet) (alike.counts .outlet) side

theorem length (alike : a.Alike b) (side : Side) : (a.jacks side).length = (b.jacks side).length := by
  simpa using congrArg List.length (alike.map_jacks alike.spots side)

theorem jackBounds? (alike : a.Alike b) (side : Side) (i : Nat) :
    (a.jack? side i).map a.jackBounds = (b.jack? side i).map b.jackBounds :=
  jackBounds?_congr alike.bounds (alike.map_jacks alike.spots) side i

theorem trans {c : Box} (first : a.Alike b) (second : b.Alike c) : a.Alike c where
  handle := first.handle.trans second.handle
  widget := first.widget.trans second.widget
  bounds := first.bounds.trans second.bounds
  editing := first.editing.trans second.editing
  index := first.index.trans second.index
  counts side := (first.counts side).trans (second.counts side)
  labels := first.labels.trans second.labels
  flags := first.flags.trans second.flags
  spots := first.spots.trans second.spots

end Alike

theorem alike_rfl (b : Box) : b.Alike b :=
  ⟨rfl, rfl, rfl, rfl, rfl, fun _ => rfl, rfl, rfl, rfl⟩

theorem alike_select (b : Box) (on : Bool) : Alike { b with selected := on } b :=
  ⟨rfl, rfl, rfl, rfl, rfl, fun side => by cases side <;> rfl, rfl, rfl, rfl⟩

theorem alike_mapJack {f : Jack → Jack} (label : ∀ p, (f p).label = p.label)
    (signal : ∀ p, (f p).signal = p.signal) (bounds : ∀ p, (f p).bounds = p.bounds) (b : Box)
    (side : Side) (i : Nat) : Alike (b.mapJack side i f) b := by
  have rest := b.mapJack_eq side i f
  refine ⟨?_, ?_, ?_, ?_, ?_, fun other => ?_, b.map_mapJack label side i,
    b.map_mapJack signal side i, b.map_mapJack bounds side i⟩
  all_goals rw [rest]
  cases other <;> rfl

theorem Steady.of_alike (steady : b.Steady info j) (alike : a.Alike b) : a.Steady info j where
  widget := alike.widget.trans steady.widget
  bounds := alike.bounds.trans steady.bounds
  index := alike.index.trans steady.index
  flags side := by
    have inlets : a.inletCount = b.inletCount := alike.counts .inlet
    rw [← steady.flags]
    cases side with
    | inlet => simp only [group, Box.inlets, List.map_take, alike.flags, inlets]
    | outlet => simp only [group, Box.outlets, List.map_drop, alike.flags, inlets]
  counts side := (alike.counts side).trans (steady.counts side)
  laid := by
    rw [layoutJacks_eq_self_iff, alike.spots, alike.labels, alike.layout, alike.widget]
    exact layoutJacks_eq_self_iff.1 steady.laid

end Box

end Patchbay
