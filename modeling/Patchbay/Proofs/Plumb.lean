import Patchbay.Proofs.Calls
import Patchbay.Proofs.Relaid
import Patchbay.Proofs.Snapped
import Patchbay.Proofs.Trail

/-!
# Cables that a snap makes straight

A box that snaps to a cable is put where the left edges of the two jacks are one above the other.
A cable, though, hangs between the middles of its jacks. So it is plumb afterwards just when the jacks
are equally wide: those of a narrow box with several on a side are smaller than those of other boxes.
-/

namespace Patchbay

namespace Box

variable {b : Box} {side : Side} {i : Nat} {q : Jack}

def jackWidth (b : Box) : Int := if b.widget.showsJacks then b.layout.size else 0

theorem Laid.width (laid : b.Laid) (found : b.jack? side i = some q) :
    q.bounds.width = b.jackWidth := by
  obtain ⟨j, -, at_j⟩ := Option.bind_eq_some_iff.1 found
  have mem : q ∈ b.layoutJacks.jackList := laid.symm ▸ List.mem_of_getElem? at_j
  obtain ⟨p, -, rfl⟩ := List.mem_map.1 mem
  rw [jackWidth]
  split <;> rfl

theorem jackWidth_cases (b : Box) : b.jackWidth = 13 ∨ b.jackWidth = 10 ∨ b.jackWidth = 0 := by
  simp only [jackWidth, Jack.Layout.size]
  split_ifs <;> simp

theorem half_jackWidth_iff (a b : Box) :
    a.jackWidth.tdiv 2 = b.jackWidth.tdiv 2 ↔ a.jackWidth = b.jackWidth := by
  rcases a.jackWidth_cases with ha | ha | ha <;> rcases b.jackWidth_cases with hb | hb | hb <;>
    rw [ha, hb] <;> decide

end Box

/-- A cable between a box and one that is not among some, and its jacks: that of the box, and the
other one. -/
structure Cable.LeadsOut (x : Cable) (key : Nat) (chosen : List Nat) (own other : JackRef) : Prop where
  ends : x.outlet = own ∧ x.inlet = other ∨ x.outlet = other ∧ x.inlet = own
  here : own.box = key
  there : other.box ≠ key
  apart : chosen.contains other.box = false

namespace Scene

variable {s : Scene} {x : Cable} {key : Nat} {chosen : List Nat} {own other : JackRef} {p q : Rect}

/-- The anchors of a cable are one above the other. -/
def IsPlumb (s : Scene) (x : Cable) : Prop := ∃ ends, s.ends? x = some ends ∧ ends.1.x = ends.2.x

instance (s : Scene) (x : Cable) : Decidable (s.IsPlumb x) :=
  decidable_of_iff ((s.ends? x).any (fun ends => ends.1.x == ends.2.x) = true) <| by
    simp only [IsPlumb, Option.any_eq_true, beq_iff_eq]

theorem isPlumb_iff (leads : x.LeadsOut key chosen own other) (here : s.jackBounds? own = some p)
    (there : s.jackBounds? other = some q) : s.IsPlumb x ↔ p.centreX = q.centreX := by
  have anchor {ref : JackRef} {r : Rect} (found : s.jackBounds? ref = some r) :
      s.anchor? ref = some r.centre := by rw [anchor?, found, Option.map_some]
  rcases leads.ends with ⟨out, inn⟩ | ⟨out, inn⟩
  · have ends : s.ends? x = some (p.centre, q.centre) :=
      ends?_eq_some_iff.2 ⟨by rw [out, anchor here], by rw [inn, anchor there]⟩
    simp only [IsPlumb, ends, Option.some.injEq, exists_eq_left', Rect.centre]
  · have ends : s.ends? x = some (q.centre, p.centre) :=
      ends?_eq_some_iff.2 ⟨by rw [out, anchor there], by rw [inn, anchor here]⟩
    simp only [IsPlumb, ends, Option.some.injEq, exists_eq_left', Rect.centre]
    exact eq_comm

end Scene

namespace Snapper

variable {settings : SnapSettings} {axis : Axis} {r : MoveRequest}

/-- A box never snaps to another one by the feature of a cable, so what is held there is a cable's. -/
theorem freshOutcome_connection {z : Int}
    (made : (freshOutcome settings axis r).held? = some ⟨z, .connection⟩) :
    (freshOutcome settings axis r).offset = z ∧ axis = .horizontal ∧
      ∃ c ∈ r.cables, z = r.offset.x + c.gap r.offset := by
  have inspect {held : Option HeldSnap} {w : Int} (finds : Finds settings axis r held w)
      (is : held = some ⟨z, .connection⟩) :
      w = z ∧ axis = .horizontal ∧ ∃ c ∈ r.cables, z = r.offset.x + c.gap r.offset := by
    cases finds with
    | cable across on best way =>
      obtain ⟨rfl, -⟩ := HeldSnap.mk.inj (Option.some.inj is)
      subst across
      refine ⟨rfl, rfl, _, (List.mem_filter.1 (List.argmin_mem best)).1, ?_⟩
      simp only [Axis.component] at way
      omega
    | box apart there counts on reach level =>
      obtain ⟨-, rfl⟩ := HeldSnap.mk.inj (Option.some.inj is)
      exact absurd counts (by decide)
    | nearlyStraight across on there near far => exact absurd is (by simp)
    | nothing apart far => exact absurd is (by simp)
  have grid : (gridOutcome settings axis r).held? = none := by
    unfold gridOutcome
    split <;> rfl
  have cable := finds_cable settings axis r
  unfold freshOutcome at made ⊢
  split_ifs at made ⊢ with snaps
  · cases said : cableOutcome? settings axis r with
    | some outcome =>
      rw [said] at made cable
      exact inspect cable made
    | none =>
      rw [said] at made cable
      have box := finds_box cable
      cases found : boxOutcome? settings axis r with
      | some outcome =>
        rw [found] at made box
        exact inspect box made
      | none =>
        rw [found] at made
        exact absurd (made.symm.trans grid) (by simp)
  · exact absurd (made.symm.trans grid) (by simp)

theorem move_connection {s : Snapper} {now : Nat} {z : Int}
    (anew : kept? s.settings .horizontal r s.horizontal.held = none)
    (made : (s.move r now).1.horizontal.held = some ⟨z, .connection⟩) :
    (s.move r now).2.x = z ∧ ∃ c ∈ r.cables, z = r.offset.x + c.gap r.offset := by
  have made : ((s.move r now).1.axis .horizontal).held = some ⟨z, .connection⟩ := made
  cases on : r.bypass || s.settings.mode == .off with
  | true =>
    simp only [move, on, if_true, held_clear] at made
    exact absurd made (by simp)
  | false =>
    obtain ⟨held, offset⟩ := move_axis on now .horizontal
    obtain ⟨held', offset'⟩ := moveAxis_of_fresh (a := s.axis .horizontal) now anew
    rw [held, held'] at made
    obtain ⟨same, -, reached⟩ := freshOutcome_connection made
    exact ⟨offset.trans (offset'.trans same), reached⟩

end Snapper

namespace Canvas

open Keyed (mapValues)

variable {c : Canvas} {grabbed : Nat} {b : Box} {start position d : Point} {bypass : Bool} {now : Nat}
  {z : Int}

/-- What a canvas asks of its snapper when boxes are dragged by one of them. -/
def moveRequest (c : Canvas) (grabbed : Nat) (b : Box) (offset : Point) (bypass : Bool) :
    MoveRequest where
  home := b.home
  offset := offset
  others := c.restingBounds none
  cables := c.cableEnds grabbed
  gridOrigin := c.gridOrigin
  bypass := bypass

theorem dragMove_eq {last : Point} (drag : c.drag = .boxes grabbed start last)
    (found : c.scene.box? grabbed = some b) (position : Point) (bypass : Bool) (now : Nat) :
    let moved := c.snapper.move (c.moveRequest grabbed b (position - start) bypass) now
    c.dragMove position bypass now = ({ { c with snapper := moved.1 }.showOffset moved.2 with
      drag := .boxes grabbed start moved.2 }, moved.2) := by
  simp only [dragMove, drag, found]
  rfl

theorem exists_of_mem_cableEnds {ends : CableEnds} (found : c.scene.box? grabbed = some b)
    (told : ends ∈ c.cableEnds grabbed) :
    ∃ e ∈ c.scene.cables, ∃ own other q, e.2.LeadsOut grabbed c.selection.boxes own other ∧
      b.jack? own.side own.index = some q ∧ c.scene.jackBounds? other = some ends.resting ∧
      ends.moving = q.bounds.shifted b.home.position := by
  simp only [cableEnds, found, List.mem_filterMap] at told
  obtain ⟨e, there, told⟩ := told
  cases inletMoves : e.2.inlet.box == grabbed with
  | true =>
    simp only [inletMoves, if_true, Option.ite_none_left_eq_some, Option.bind_eq_bind,
      Option.bind_eq_some_iff, Option.pure_def, Option.some.injEq] at told
    obtain ⟨one, apart, q, own, r, other, rfl⟩ := told
    have here := beq_iff_eq.1 inletMoves
    refine ⟨e, there, e.2.inlet, e.2.outlet, q, ⟨.inr ⟨rfl, rfl⟩, here, fun same => one ?_, ?_⟩,
      own, other, rfl⟩
    · rw [same, beq_self_eq_true, beq_self_eq_true]
    · exact Bool.eq_false_iff.2 apart
  | false =>
    simp only [inletMoves, Bool.false_eq_true, if_false, Option.ite_none_left_eq_some,
      Option.bind_eq_bind, Option.bind_eq_some_iff, Option.pure_def, Option.some.injEq] at told
    obtain ⟨one, apart, q, own, r, other, rfl⟩ := told
    have here : e.2.outlet.box = grabbed := by simpa using one
    exact ⟨e, there, e.2.outlet, e.2.inlet, q,
      ⟨.inl ⟨rfl, rfl⟩, here, ne_of_beq_false inletMoves, Bool.eq_false_iff.2 apart⟩, own, other, rfl⟩

theorem box?_showOffset (c : Canvas) (d : Point) (key : Nat) :
    (c.showOffset d).scene.box? key = (c.scene.box? key).map fun b =>
      if c.selection.boxes.contains key then { b with bounds := b.home.shifted d } else b :=
  c.scene.box?_mapBoxes
    (fun key b => if c.selection.boxes.contains key then { b with bounds := b.home.shifted d } else b) key

theorem jackBounds?_showOffset_rest {ref : JackRef} (apart : c.selection.boxes.contains ref.box = false)
    (d : Point) : (c.showOffset d).scene.jackBounds? ref = c.scene.jackBounds? ref := by
  simp only [Scene.jackBounds?, box?_showOffset, apart, Bool.false_eq_true, if_false, Option.map_id']

theorem jackBounds?_showOffset_chosen {ref : JackRef} {q : Jack}
    (chosen : c.selection.boxes.contains ref.box = true) (found : c.scene.box? ref.box = some b)
    (jack : b.jack? ref.side ref.index = some q) (d : Point) :
    (c.showOffset d).scene.jackBounds? ref = some (q.bounds.shifted (b.home.position + d)) := by
  have same : Box.jack? { b with bounds := b.home.shifted d } ref.side ref.index = some q := by
    rw [← jack]
    rfl
  simp only [Scene.jackBounds?, box?_showOffset, found, chosen, if_true, Option.map_some,
    Option.bind_some, same]
  rfl

theorem exists_mem_showOffset {e : Nat × Cable} (there : e ∈ c.scene.cables) (d : Point) :
    ∃ x ∈ (c.showOffset d).scene.cables, x.2.outlet = e.2.outlet ∧ x.2.inlet = e.2.inlet := by
  let moved := c.scene.updateBoxes c.selection.boxes fun b => { b with bounds := b.home.shifted d }
  let g (_ : Nat) (x : Cable) := followMoved moved c.selection.boxes x
  have cables : (c.showOffset d).scene.cables = Keyed.mapValues c.scene.cables g :=
    Scene.cables_mapCables moved g
  exact ⟨(e.1, g e.1 e.2), cables ▸ List.mem_map_of_mem there,
    (followMoved_ends moved c.selection.boxes e.2).2⟩

/-- Boxes are dragged by one of them, and at the next stop the horizontal axis, which keeps no snap that
was made before, snaps to a cable. -/
structure SnapsToCable (c : Canvas) (grabbed : Nat) (b : Box) (start position : Point) (bypass : Bool)
    (now : Nat) (z : Int) : Prop where
  drag : ∃ last, c.drag = .boxes grabbed start last
  found : c.scene.box? grabbed = some b
  anew : Snapper.kept? c.snapper.settings .horizontal
    (c.moveRequest grabbed b (position - start) bypass) c.snapper.horizontal.held = none
  made : (c.dragMove position bypass now).1.snapper.horizontal.held = some ⟨z, .connection⟩

theorem SnapsToCable.exists_cable (snaps : c.SnapsToCable grabbed b start position bypass now z) :
    ∃ y, (c.dragMove position bypass now).1.scene = (c.showOffset ⟨z, y⟩).scene ∧
      ∃ e ∈ c.scene.cables, ∃ own other q r, e.2.LeadsOut grabbed c.selection.boxes own other ∧
        b.jack? own.side own.index = some q ∧ c.scene.jackBounds? other = some r ∧
        r.x = q.bounds.x + b.home.x + z := by
  obtain ⟨⟨last, drag⟩, found, anew, made⟩ := snaps
  rw [dragMove_eq drag found] at made ⊢
  obtain ⟨rfl, ends, told, reach⟩ := Snapper.move_connection anew made
  obtain ⟨e, there, own, other, q, leads, jack, rest, moving⟩ := exists_of_mem_cableEnds found told
  refine ⟨_, rfl, e, there, own, other, q, _, leads, jack, rest, ?_⟩
  simp only [CableEnds.gap, moving, Rect.shifted, Rect.position] at reach
  omega

theorem isPlumb_showOffset {x : Cable} {own other : JackRef} {q : Jack} {r : Rect}
    (leads : x.LeadsOut grabbed c.selection.boxes own other)
    (chosen : c.selection.boxes.contains own.box = true) (found : c.scene.box? own.box = some b)
    (jack : b.jack? own.side own.index = some q) (rest : c.scene.jackBounds? other = some r)
    (level : r.x = q.bounds.x + b.home.x + d.x) :
    ∃ p, (c.showOffset d).scene.jackBounds? own = some p ∧ p.x = r.x ∧ p.width = q.bounds.width ∧
      ((c.showOffset d).scene.IsPlumb x ↔ p.width.tdiv 2 = r.width.tdiv 2) := by
  have here := jackBounds?_showOffset_chosen chosen found jack d
  have there := (jackBounds?_showOffset_rest leads.apart d).trans rest
  have begins : (q.bounds.shifted (b.home.position + d)).x = r.x := by
    rw [level]
    exact (Int.add_assoc _ _ _).symm
  refine ⟨_, here, begins, rfl, ?_⟩
  rw [Scene.isPlumb_iff leads here there, Rect.centreX, Rect.centreX, begins]
  exact Int.add_right_inj _

/-- When boxes that are dragged by one of them snap to a cable of it, the two jacks of the cable begin
at the same place, and so it is plumb just when half of the one is as wide as half of the other. Where
the boxes are laid out, that is when their jacks are of one size. A box that is dragged though it is not
selected any more stays where it is, with all its cables to the rest. -/
theorem SnapsToCable.plumb_iff_jacks (snaps : c.SnapsToCable grabbed b start position bypass now z) :
    let t := (c.dragMove position bypass now).1.scene
    ∃ e ∈ t.cables, ∃ own other a p q, e.2.LeadsOut grabbed c.selection.boxes own other ∧
      c.scene.box? other.box = some a ∧ t.jackBounds? own = some p ∧ t.jackBounds? other = some q ∧
      if c.selection.boxes.contains grabbed then
        p.x = q.x ∧ (t.IsPlumb e.2 ↔ p.width.tdiv 2 = q.width.tdiv 2) ∧
          (b.Laid → a.Laid → (t.IsPlumb e.2 ↔ b.jackWidth = a.jackWidth))
      else (t.IsPlumb e.2 ↔ c.scene.IsPlumb e.2) := by
  obtain ⟨y, scene, e, there, own, other, q, r, leads, jack, rest, level⟩ := snaps.exists_cable
  have found := snaps.found
  rw [← leads.here] at found
  obtain ⟨a, known, far⟩ := Option.bind_eq_some_iff.1 rest
  obtain ⟨q', jack', place⟩ := Option.map_eq_some_iff.1 far
  obtain ⟨x, kept, out, inn⟩ := exists_mem_showOffset there ⟨z, y⟩
  have leads : x.2.LeadsOut grabbed c.selection.boxes own other :=
    ⟨by rw [out, inn]; exact leads.ends, leads.here, leads.there, leads.apart⟩
  have rest' := (jackBounds?_showOffset_rest leads.apart ⟨z, y⟩).trans rest
  rw [scene]
  -- Only what is selected is moved, and the grabbed box may not be selected any more.
  refine ⟨x, kept, own, other, a, ?_⟩
  cases chosen : c.selection.boxes.contains own.box with
  | true =>
    obtain ⟨p, here, begins, width, halves⟩ :=
      isPlumb_showOffset (d := ⟨z, y⟩) leads chosen found jack rest level
    refine ⟨p, r, leads, known, here, rest', ?_⟩
    rw [← leads.here, if_pos chosen]
    refine ⟨begins, halves, fun laid laid' => ?_⟩
    have width' : r.width = a.jackWidth := by
      rw [← laid'.width jack', ← place]
      rfl
    rw [halves, width, laid.width jack, width', Box.half_jackWidth_iff]
  | false =>
    have here : c.scene.jackBounds? own = some (b.jackBounds q) := by
      simp only [Scene.jackBounds?, found, Option.bind_some, jack, Option.map_some]
    have here' := (jackBounds?_showOffset_rest chosen ⟨z, y⟩).trans here
    refine ⟨_, r, leads, known, here', rest', ?_⟩
    rw [← leads.here, if_neg (by rw [chosen]; decide), Scene.isPlumb_iff leads here' rest',
      Scene.isPlumb_iff leads here rest]

/-- A wide node, another one below it, and a wire between them. -/
def hung (lower : Node) : Patch where
  nodes := [(1, ⟨"osc~", ⟨0, 0, 100, 20⟩, [], [true]⟩), (2, lower)]
  wires := [⟨3, ⟨1, 0, 2, 0⟩, ""⟩]
  next := 4

def lifted (lower : Node) : Canvas := (((ofSettings {}).sync (hung lower)).1.beginMove 1 ⟨10, 10⟩).1

theorem reached_lifted (lower : Node) : Reached (lifted lower) := by
  have synced {c : Canvas} (reached : Reached c) : Reached (c.sync (hung lower)).1 :=
    reached.call (hung lower) .sync
  have taken {c : Canvas} (reached : Reached c) : Reached (c.beginMove 1 ⟨10, 10⟩).1 :=
    reached.call (hung lower) (.beginMove 1 ⟨10, 10⟩)
  exact taken (synced (.ofSettings {}))

def wide : Node := ⟨"dac~", ⟨20, 100, 100, 20⟩, [true], []⟩

def slim : Node := ⟨"*~", ⟨25, 100, 25, 20⟩, [true, true], [true]⟩

def upper (selected : Bool) : Box where
  handle := some 1
  widget := .text "osc~"
  bounds := ⟨-5, -5, 110, 30⟩
  jackList := [{ side := .outlet, index := 0, signal := true, bounds := ⟨14, 19, 13, 13⟩ }]
  outletCount := 1
  selected := selected
  home := ⟨-5, -5, 110, 30⟩
  index := some 0

/-- Two wide boxes, whose jacks are of one size. -/
theorem plumb_iff_jacks_wide :
    (lifted wide).SnapsToCable 1 (upper true) ⟨10, 10⟩ ⟨28, 10⟩ false 0 20 ∧
      ∃ e ∈ ((lifted wide).dragMove ⟨28, 10⟩ false 0).1.scene.cables, ∃ own other,
        e.2.LeadsOut 1 [1] own other ∧
          ((lifted wide).dragMove ⟨28, 10⟩ false 0).1.scene.IsPlumb e.2 := by
  have snaps : (lifted wide).SnapsToCable 1 (upper true) ⟨10, 10⟩ ⟨28, 10⟩ false 0 20 :=
    ⟨⟨.origin, by decide +kernel⟩, by decide +kernel, by decide +kernel, by decide +kernel⟩
  have laid : ∀ e ∈ (lifted wide).scene.boxes, e.2.Laid ∧ e.2.jackWidth = 13 := by
    unfold Box.Laid
    decide +kernel
  have chosen : (lifted wide).selection.boxes = [1] := by decide +kernel
  obtain ⟨e, there, own, other, a, p, q, leads, known, -, -, plumb⟩ := snaps.plumb_iff_jacks
  rw [chosen] at leads plumb
  rw [if_pos (by decide)] at plumb
  have exact := (reached_lifted wide).regular.boxOrder
  obtain ⟨laidUp, up⟩ := laid (1, upper true) (Scene.mem_boxes exact snaps.found)
  obtain ⟨laidDown, down⟩ := laid (other.box, a) (Scene.mem_boxes exact known)
  exact ⟨snaps, e, there, own, other, leads, (plumb.2.2 laidUp laidDown).2 (up.trans down.symm)⟩

/-- Not every snap to a cable makes one plumb: the inlets of a narrow box are smaller than the outlet
above them, and a box that is not selected any more is not moved. -/
theorem snaps_askew :
    (¬ ∀ c, Reached c → ∀ grabbed b start position bypass now z,
      c.SnapsToCable grabbed b start position bypass now z →
        ∃ e ∈ (c.dragMove position bypass now).1.scene.cables, ∃ own other,
          e.2.LeadsOut grabbed c.selection.boxes own other ∧
            (c.dragMove position bypass now).1.scene.IsPlumb e.2) ∧
    let c := (lifted wide).selectBox 1 true
    Reached c ∧ c.SnapsToCable 1 (upper false) ⟨10, 10⟩ ⟨28, 10⟩ false 0 20 ∧
      ∀ e ∈ (c.dragMove ⟨28, 10⟩ false 0).1.scene.cables,
        ¬(c.dragMove ⟨28, 10⟩ false 0).1.scene.IsPlumb e.2 := by
  refine ⟨fun always => ?_, (reached_lifted wide).call (hung wide) (.selectBox 1 true), ?_, ?_⟩
  · have snaps : (lifted slim).SnapsToCable 1 (upper true) ⟨10, 10⟩ ⟨28, 10⟩ false 0 20 :=
      ⟨⟨.origin, by decide +kernel⟩, by decide +kernel, by decide +kernel, by decide +kernel⟩
    obtain ⟨e, there, -, -, -, plumb⟩ := always _ (reached_lifted slim) _ _ _ _ _ _ _ snaps
    have askew : ∀ e ∈ ((lifted slim).dragMove ⟨28, 10⟩ false 0).1.scene.cables,
        ¬((lifted slim).dragMove ⟨28, 10⟩ false 0).1.scene.IsPlumb e.2 := by decide +kernel
    exact askew e there plumb
  · exact ⟨⟨.origin, by decide +kernel⟩, by decide +kernel, by decide +kernel, by decide +kernel⟩
  · decide +kernel

end Canvas

end Patchbay
