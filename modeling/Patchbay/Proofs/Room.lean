import Patchbay.Canvas.Sync
import Patchbay.Patch.Edit
import Patchbay.Proofs.Alternating
import Patchbay.Proofs.Token

/-!
# Pieces that have room

Any inner piece of a plan can be dragged, and the drag leaves the ends. The points stay a plan exactly
when the pieces next to the dragged one run across it, so that they grow and shrink with it, or when
the drag goes along the piece. A piece next to one that runs the same way tears the plan apart, and
its cable is straight from then on.
-/

namespace Patchbay

namespace Plan

variable {ps qs : Plan} {i j : Nat} {before a b after p q delta : Point} {d : Direction} {inner : Prop}

/-- What a piece of a plan has to be: vertical, or horizontal and inner. -/
def Stands (inner : Prop) (p q : Point) : Prop := p.x = q.x ∨ p.y = q.y ∧ inner

theorem stands_comm : Stands inner p q ↔ Stands inner q p :=
  or_congr eq_comm (and_congr_left' eq_comm)

theorem isValid_iff : ps.isValid = true ↔ 4 ≤ ps.length ∧ ∀ i p q, ps[i]? = some p →
    ps[i + 1]? = some q → Stands (ps.isDraggable i = true) p q := by
  simp only [isValid, Bool.and_eq_true, decide_eq_true_iff, List.all_eq_true,
    List.head?_eq_getElem?, List.getLast?_eq_getElem?, Option.all_eq_true, length_segments,
    isDraggable_iff]
  constructor
  · rintro ⟨⟨⟨long, aligned⟩, first⟩, last⟩
    refine ⟨long, fun i p q hp hq => ?_⟩
    obtain ⟨within, -⟩ := List.getElem?_eq_some_iff.1 hq
    have there : (segments ps)[i]? = some ⟨p, q⟩ := getElem?_segments.2 ⟨hp, hq⟩
    by_cases upright : p.x = q.x
    · exact Or.inl upright
    · have level : p.y = q.y := by
        simpa [Segment.isAxisAligned, Segment.isHorizontal, Segment.isVertical, upright]
          using aligned _ (List.mem_of_getElem? there)
      refine Or.inr ⟨level, Nat.pos_of_ne_zero ?_, Nat.lt_of_le_of_ne within ?_⟩
      · rintro rfl
        exact upright (by simpa [Segment.isVertical] using first _ there)
      · intro outer
        obtain rfl : i = ps.length - 1 - 1 := by omega
        exact upright (by simpa [Segment.isVertical] using last _ there)
  · rintro ⟨long, pieces⟩
    have upright {i : Nat} (outer : ¬(1 ≤ i ∧ i + 2 < ps.length)) (s : Segment)
        (there : (segments ps)[i]? = some s) : s.isVertical = true := by
      obtain ⟨hp, hq⟩ := getElem?_segments.1 there
      simpa [Segment.isVertical] using (pieces i _ _ hp hq).resolve_right fun level => outer level.2
    refine ⟨⟨⟨long, fun s hs => ?_⟩, upright (by omega)⟩, upright (by omega)⟩
    obtain ⟨i, there⟩ := List.mem_iff_getElem?.1 hs
    obtain ⟨hp, hq⟩ := getElem?_segments.1 there
    rcases pieces i _ _ hp hq with upright | ⟨level, -⟩
    · simp [Segment.isAxisAligned, Segment.isVertical, upright]
    · simp [Segment.isAxisAligned, Segment.isHorizontal, level]

def Direction.reach (delta : Point) : Direction → Int
  | .horizontal => delta.y
  | .vertical => delta.x

def direction? (ps : Plan) (i : Nat) : Option Direction :=
  match ps[i - 1]?, ps[i]?, ps[i + 1]? with
  | some before, some a, some b => direction before a b
  | _, _, _ => none

/-- What a piece has to be to run across a direction. Only an inner one may run across a vertical
direction: those at the ends have to stay vertical themselves. -/
def Direction.Across (inner : Prop) (p q : Point) : Direction → Prop
  | .horizontal => p.x = q.x
  | .vertical => p.y = q.y ∧ inner

def crosses (ps : Plan) (d : Direction) (i : Nat) : Bool :=
  (segments ps)[i]?.all fun s =>
    match d with
    | .horizontal => s.isVertical
    | .vertical => s.isHorizontal && ps.isDraggable i

def hasRoom (ps : Plan) (d : Direction) (i : Nat) : Bool :=
  ps.crosses d (i - 1) && ps.crosses d (i + 1)

theorem crosses_iff (hp : ps[i]? = some p) (hq : ps[i + 1]? = some q) :
    ps.crosses d i = true ↔ d.Across (ps.isDraggable i = true) p q := by
  have there : (segments ps)[i]? = some ⟨p, q⟩ := getElem?_segments.2 ⟨hp, hq⟩
  cases d <;>
    simp [crosses, there, Direction.Across, Segment.isVertical, Segment.isHorizontal]

theorem shift_of_reach_eq_zero (still : d.reach delta = 0) : shift delta d = id := by
  cases d with
  | horizontal => exact funext fun p => Point.ext rfl (by simp_all [shift, Point.withY, Direction.reach])
  | vertical => exact funext fun p => Point.ext (by simp_all [shift, Point.withX, Direction.reach]) rfl

theorem stands_shift_iff (off : d.reach delta ≠ 0) (stands : Stands inner p q) :
    Stands inner p (shift delta d q) ↔ d.Across inner p q := by
  cases d with
  | horizontal =>
    simp only [Stands, shift, Point.withY, Direction.reach, Direction.Across] at off stands ⊢
    constructor
    · rintro (upright | ⟨level, -⟩)
      · exact upright
      · exact stands.resolve_right fun same => off (by omega)
    · exact Or.inl
  | vertical =>
    simp only [Stands, shift, Point.withX, Direction.reach, Direction.Across] at off stands ⊢
    constructor
    · rintro (upright | level)
      · exact stands.resolve_left fun same => off (by omega)
      · exact level
    · exact Or.inr

theorem Direction.across_comm : d.Across inner p q ↔ d.Across inner q p := by
  cases d with
  | horizontal => exact eq_comm
  | vertical => exact and_congr_left' eq_comm

theorem stands_shift_shift : Stands inner (shift delta d p) (shift delta d q) ↔ Stands inner p q := by
  cases d with
  | horizontal => simp [Stands, shift, Point.withY]
  | vertical => simp [Stands, shift, Point.withX]

theorem exists_direction? (valid : ps.isValid = true) (draggable : ps.isDraggable i = true) :
    ∃ d, ps.direction? i = some d := by
  obtain ⟨low, high⟩ := isDraggable_iff.1 draggable
  obtain ⟨before, hbefore⟩ : ∃ before, ps[i - 1]? = some before :=
    ⟨_, List.getElem?_eq_getElem (by omega)⟩
  obtain ⟨a, ha⟩ : ∃ a, ps[i]? = some a := ⟨_, List.getElem?_eq_getElem (by omega)⟩
  obtain ⟨b, hb⟩ : ∃ b, ps[i + 1]? = some b := ⟨_, List.getElem?_eq_getElem (by omega)⟩
  simp only [direction?, hbefore, ha, hb, direction]
  split
  · exact ⟨_, rfl⟩
  split
  · exact ⟨_, rfl⟩
  · next slanted =>
    have upright : a.x = b.x :=
      ((isValid_iff.1 valid).2 i a b ha hb).resolve_right fun level => slanted level.1
    exact ⟨_, if_pos upright⟩

theorem drag_eq (draggable : ps.isDraggable i = true) (delta : Point) :
    ps.drag i delta = (ps.direction? i).map fun d =>
      (ps.modify i (shift delta d)).modify (i + 1) (shift delta d) := by
  simp only [drag, draggable, if_true, direction?]
  cases ps[i - 1]? <;> cases ps[i]? <;> cases ps[i + 1]? <;> rfl

theorem hasRoom_iff (hbefore : ps[i]? = some before) (ha : ps[i + 1]? = some a)
    (hb : ps[i + 2]? = some b) (hafter : ps[i + 3]? = some after) :
    ps.hasRoom d (i + 1) = true ↔
      d.Across (ps.isDraggable i = true) before a ∧ d.Across (ps.isDraggable (i + 2) = true) b after := by
  rw [hasRoom, Bool.and_eq_true, Nat.add_sub_cancel, crosses_iff hbefore ha, crosses_iff hb hafter]

/-- Where a plan is changed at the two ends of one piece only, the pieces next to it decide. -/
theorem isValid_iff_of_rest (valid : ps.isValid = true) (length : qs.length = ps.length)
    (rest : ∀ j, ¬(j = i + 1 ∨ j = i + 2) → qs[j]? = ps[j]?) (front : qs[i]? = some before)
    (first : qs[i + 1]? = some a) (second : qs[i + 2]? = some b) (back : qs[i + 3]? = some after)
    (piece : Stands (ps.isDraggable (i + 1) = true) a b) :
    qs.isValid = true ↔
      Stands (ps.isDraggable i = true) before a ∧ Stands (ps.isDraggable (i + 2) = true) b after := by
  obtain ⟨long, pieces⟩ := isValid_iff.1 valid
  have inner (j : Nat) : qs.isDraggable j = ps.isDraggable j := by simp only [isDraggable, length]
  rw [isValid_iff, and_iff_right (length ▸ long)]
  simp only [inner]
  constructor
  · intro stands
    exact ⟨stands _ _ _ front first, stands _ _ _ second back⟩
  · rintro ⟨stands, stands'⟩ j p q hp hq
    obtain rfl | rfl | rfl | other : j = i ∨ j = i + 1 ∨ j = i + 2 ∨
        ¬(j = i + 1 ∨ j = i + 2) ∧ ¬(j + 1 = i + 1 ∨ j + 1 = i + 2) := by omega
    · obtain rfl := Option.some.inj (front.symm.trans hp)
      obtain rfl := Option.some.inj (first.symm.trans hq)
      exact stands
    · obtain rfl := Option.some.inj (first.symm.trans hp)
      obtain rfl := Option.some.inj (second.symm.trans hq)
      exact piece
    · obtain rfl := Option.some.inj (second.symm.trans hp)
      obtain rfl := Option.some.inj (back.symm.trans hq)
      exact stands'
    · exact pieces j p q (rest j other.1 ▸ hp) (rest (j + 1) other.2 ▸ hq)

/-- Points moved at both ends of a piece are a plan again just when they are moved along it or the
piece has room. -/
theorem isValid_of_moved_iff (valid : ps.isValid = true) (draggable : ps.isDraggable i = true)
    (length : qs.length = ps.length)
    (moved : ∀ j, qs[j]? = ps[j]?.map (if j = i ∨ j = i + 1 then shift delta d else id)) :
    qs.isValid = true ↔ d.reach delta = 0 ∨ ps.hasRoom d i = true := by
  by_cases still : d.reach delta = 0
  · obtain rfl : qs = ps := List.ext_getElem? fun j => by
      rw [moved, shift_of_reach_eq_zero still, ite_self, Option.map_id, id]
    exact iff_of_true valid (Or.inl still)
  obtain ⟨low, high⟩ := isDraggable_iff.1 draggable
  obtain ⟨-, pieces⟩ := isValid_iff.1 valid
  obtain ⟨i, rfl⟩ := Nat.exists_eq_add_of_le' low
  obtain ⟨before, hbefore⟩ : ∃ before, ps[i]? = some before := ⟨_, List.getElem?_eq_getElem (by omega)⟩
  obtain ⟨a, ha⟩ : ∃ a, ps[i + 1]? = some a := ⟨_, List.getElem?_eq_getElem (by omega)⟩
  obtain ⟨b, hb⟩ : ∃ b, ps[i + 2]? = some b := ⟨_, List.getElem?_eq_getElem (by omega)⟩
  obtain ⟨after, hafter⟩ : ∃ after, ps[i + 3]? = some after := ⟨_, List.getElem?_eq_getElem (by omega)⟩
  have rest (j : Nat) (other : ¬(j = i + 1 ∨ j = i + 2)) : qs[j]? = ps[j]? := by
    rw [moved, if_neg other, Option.map_id, id]
  have first : qs[i + 1]? = some (shift delta d a) := by
    rw [moved, if_pos (Or.inl rfl), ha, Option.map_some]
  have second : qs[i + 2]? = some (shift delta d b) := by
    rw [moved, if_pos (Or.inr rfl), hb, Option.map_some]
  have neighbours := isValid_iff_of_rest valid length rest ((rest i (by omega)).trans hbefore) first second
    ((rest (i + 3) (by omega)).trans hafter) (stands_shift_shift.2 (pieces _ _ _ ha hb))
  rw [neighbours, or_iff_right still, hasRoom_iff hbefore ha hb hafter,
    stands_shift_iff still (pieces _ _ _ hbefore ha), stands_comm (q := after),
    stands_shift_iff still (stands_comm.1 (pieces _ _ _ hb hafter)), Direction.across_comm (p := b)]

theorem exists_drag (valid : ps.isValid = true) (draggable : ps.isDraggable i = true) (delta : Point) :
    ∃ d qs, ps.direction? i = some d ∧ ps.drag i delta = some qs ∧ qs.length = ps.length ∧
      qs.head? = ps.head? ∧ qs.getLast? = ps.getLast? ∧
      (qs.isValid = true ↔ d.reach delta = 0 ∨ ps.hasRoom d i = true) := by
  obtain ⟨d, runs⟩ := exists_direction? valid draggable
  have dragged :
      ps.drag i delta = some ((ps.modify i (shift delta d)).modify (i + 1) (shift delta d)) := by
    rw [drag_eq draggable, runs, Option.map_some]
  have length := length_drag dragged
  have moved := getElem?_modify_pair ps i (shift delta d)
  obtain ⟨first, last⟩ := ends_of_moved draggable length moved
  exact ⟨d, _, runs, dragged, length, first, last, isValid_of_moved_iff valid draggable length moved⟩

end Plan

theorem Route.valid_of_ofToken {token : String} {a b : Point} {ps : Plan}
    (loaded : ofToken token a b = segmented ps) :
    ps.isValid = true ∧ ps.head? = some a ∧ ps.getLast? = some b := by
  have still := reanchor_self (raw token) a b
  rw [← ofToken_eq, loaded] at still
  obtain ⟨valid, -, same⟩ := reanchor_eq_segmented_iff.1 still
  exact ⟨valid, (Plan.anchor_eq_self_iff valid).1 same⟩

theorem Route.reanchor_ends {a b : Point} {qs : Plan} (first : qs.head? = some a)
    (last : qs.getLast? = some b) :
    (segmented qs).reanchor a b = if qs.isValid = true then segmented qs else straight := by
  split
  · next valid =>
    exact reanchor_eq_segmented_iff.2
      ⟨valid, valid, (Plan.anchor_eq_self_iff valid).2 ⟨first, last⟩⟩
  · next torn => rw [reanchor, if_neg torn]

namespace Canvas

open Plan (Direction)

variable {c : Canvas} {key i : Nat} {ps qs : Plan} {x : Cable} {a b origin position : Point}

/-- A piece of a plan from one anchor of a cable to the other is held since the pointer was at a
point. -/
structure HoldsPiece (c : Canvas) (key i : Nat) (ps : Plan) (origin : Point) : Prop where
  drag : ∃ s, c.drag = .segment s ∧ s.cable = key ∧ s.index = i ∧ s.plan = ps ∧ s.start = origin
  anchors : ∃ a b, c.scene.anchors? key = some (a, b) ∧ ps.head? = some a ∧ ps.getLast? = some b

theorem holdsPiece_beginSegment (found : c.scene.cable? key = some x)
    (anchors : c.scene.anchors? key = some (a, b)) (begun : (c.beginSegment key origin).2 = true) :
    ∃ ps i, c.grip? x a b origin = some (ps, i) ∧ ps.isDraggable i = true ∧
      (ps.head? = some a → ps.getLast? = some b →
        (c.beginSegment key origin).1.HoldsPiece key i ps origin) := by
  unfold beginSegment at begun ⊢
  split at begun
  · exact absurd begun (by simp)
  · next free =>
    simp only [free, found, anchors] at begun ⊢
    cases grip : c.grip? x a b origin with
    | none => exact absurd begun (by simp [grip])
    | some held =>
      obtain ⟨ps, i⟩ := held
      simp only [grip] at begun ⊢
      split at begun
      · next draggable =>
        refine ⟨ps, i, rfl, draggable, fun first last => ?_⟩
        simp only [draggable, if_true]
        exact ⟨⟨_, rfl, rfl, rfl, rfl, rfl⟩, a, b, anchors, first, last⟩
      · exact absurd begun (by simp)

theorem HoldsPiece.dragSegment (holds : c.HoldsPiece key i ps origin)
    (dragged : ps.drag i (position - origin) = some qs) (first : qs.head? = ps.head?)
    (last : qs.getLast? = ps.getLast?) :
    (c.dragSegment position).2 = true ∧ (c.dragSegment position).1.HoldsPiece key i ps origin ∧
      ∃ y, (c.dragSegment position).1.scene.cable? key = some y ∧
        y.route = if qs.isValid = true then .segmented qs else .straight := by
  obtain ⟨⟨s, drag, rfl, rfl, rfl, rfl⟩, a, b, anchors, head, tail⟩ := holds
  obtain ⟨x, found, -⟩ := Option.bind_eq_some_iff.1 anchors
  have route := Route.reanchor_ends (first.trans head) (last.trans tail)
  simp only [Canvas.dragSegment, drag, anchors, dragged, route, true_and]
  refine ⟨⟨⟨_, rfl, rfl, rfl, rfl, rfl⟩, a, b, ?_, head, tail⟩,
    { x with route := if qs.isValid = true then .segmented qs else .straight }, ?_, rfl⟩
  · exact (Scene.anchors?_updateRoute ..).trans anchors
  · exact Scene.cable?_updateCable_self found _

def dragSegments (c : Canvas) (moves : List Point) : Canvas :=
  moves.foldl (fun c position => (c.dragSegment position).1) c

theorem HoldsPiece.dragSegments (holds : c.HoldsPiece key i ps origin) (valid : ps.isValid = true)
    (draggable : ps.isDraggable i = true) (moves : List Point) :
    (c.dragSegments moves).HoldsPiece key i ps origin := by
  refine List.foldlRecOn (motive := fun c => HoldsPiece c key i ps origin) moves _ holds ?_
  intro c holds position _
  obtain ⟨d, qs, -, dragged, -, first, last, -⟩ := Plan.exists_drag valid draggable (position - origin)
  exact (holds.dragSegment dragged first last).2.1

/-- Every inner piece of a plan can be dragged, to as many points with the same ends, and these are a
plan again unless the piece is moved off its line without having room. So a cable that was loaded with
a plan becomes straight exactly when the pointer is off the line of a piece without room, and it has a
plan again as soon as the pointer is back on the line. -/
theorem dragged_straight_iff (ps : Plan) :
    (ps.isValid = true → ∀ i, ps.isDraggable i = true → ∀ delta, ∃ d qs,
      ps.direction? i = some d ∧ ps.drag i delta = some qs ∧ qs.length = ps.length ∧
        qs.head? = ps.head? ∧ qs.getLast? = ps.getLast? ∧
        (qs.isValid = true ↔ d.reach delta = 0 ∨ ps.hasRoom d i = true)) ∧
    ∀ (c : Canvas) key x token a b origin,
      c.scene.cable? key = some x → c.scene.anchors? key = some (a, b) →
      x.route = Route.ofToken token a b → x.route = .segmented ps →
      (c.beginSegment key origin).2 = true →
      ∃ i d, Route.pieceAt ps origin c.settings.routing.hitTolerance = some i ∧
        ps.isDraggable i = true ∧ ps.direction? i = some d ∧ ∀ moves position,
        let r := ((c.beginSegment key origin).1.dragSegments moves).dragSegment position
        r.2 = true ∧ ∃ y, r.1.scene.cable? key = some y ∧
          (y.route = .straight ↔ d.reach (position - origin) ≠ 0 ∧ ps.hasRoom d i = false) := by
  refine ⟨fun valid i draggable => Plan.exists_drag valid draggable, ?_⟩
  intro c key x token a b origin found anchors loaded planned begun
  obtain ⟨valid, first, last⟩ := Route.valid_of_ofToken (loaded.symm.trans planned)
  obtain ⟨qs, i, grip, draggable, held⟩ := holdsPiece_beginSegment found anchors begun
  rw [grip?, planned] at grip
  obtain ⟨i, hit, same⟩ := Option.map_eq_some_iff.1 grip
  obtain ⟨rfl, rfl⟩ := Prod.mk.inj same
  have holds := held first last
  obtain ⟨d, runs⟩ := Plan.exists_direction? valid draggable
  refine ⟨i, d, hit, draggable, runs, fun moves position => ?_⟩
  obtain ⟨d', qs, runs', dragged, -, first, last, stays⟩ :=
    Plan.exists_drag valid draggable (position - origin)
  obtain rfl := Option.some.inj (runs.symm.trans runs')
  obtain ⟨moved, -, y, there, route⟩ :=
    (holds.dragSegments valid draggable moves).dragSegment dragged first last
  refine ⟨moved, y, there, ?_⟩
  rw [route, ite_eq_right_iff, ← Bool.not_eq_true, ← not_or, ← stays]
  simp

/-- A plan with two horizontal pieces in a line. -/
def terrace : Plan := [⟨15, 20⟩, ⟨15, 40⟩, ⟨40, 40⟩, ⟨65, 40⟩, ⟨65, 70⟩, ⟨115, 70⟩, ⟨115, 101⟩]

def terraced : Patch where
  nodes := [(1, ⟨"osc~", ⟨0, 0, 40, 20⟩, [], [true]⟩), (2, ⟨"dac~", ⟨100, 100, 40, 20⟩, [true], []⟩)]
  wires := [⟨3, ⟨1, 0, 2, 0⟩, "Bx4oHlBQUIJQgozmjObK"⟩]
  next := 4

def terracedCanvas : Canvas := ((ofSettings {}).sync terraced).1

def terracedCable : Cable :=
  { handle := 3, outlet := ⟨1, .outlet, 0⟩, inlet := ⟨2, .inlet, 0⟩, route := .segmented terrace
    token := "Bx4oHlBQUIJQgozmjObK" }

/-- The upright piece has room to both sides. -/
theorem dragged_straight_iff_terraced :
    (terrace.isValid = true ∧ terrace.isDraggable 3 = true ∧
      ∃ qs, terrace.drag 3 ⟨15, 35⟩ = some qs ∧ qs.isValid = true) ∧
    terracedCanvas.scene.cable? 1 = some terracedCable ∧
      terracedCanvas.scene.anchors? 1 = some (⟨15, 20⟩, ⟨115, 101⟩) ∧
      terracedCable.route = Route.ofToken terracedCable.token ⟨15, 20⟩ ⟨115, 101⟩ ∧
      (terracedCanvas.beginSegment 1 ⟨65, 55⟩).2 = true ∧
      ∃ y, (((terracedCanvas.beginSegment 1 ⟨65, 55⟩).1.dragSegments [⟨0, 0⟩]).dragSegment
        ⟨80, 90⟩).1.scene.cable? 1 = some y ∧ y.route ≠ .straight := by
  have valid : terrace.isValid = true := by decide
  have draggable : terrace.isDraggable 3 = true := by decide
  have found : terracedCanvas.scene.cable? 1 = some terracedCable := by decide +kernel
  have anchors : terracedCanvas.scene.anchors? 1 = some (⟨15, 20⟩, ⟨115, 101⟩) := by decide +kernel
  have loaded : terracedCable.route = Route.ofToken terracedCable.token ⟨15, 20⟩ ⟨115, 101⟩ := by
    decide +kernel
  have begun : (terracedCanvas.beginSegment 1 ⟨65, 55⟩).2 = true := by decide +kernel
  obtain ⟨pieces, cables⟩ := dragged_straight_iff terrace
  obtain ⟨d, qs, runs, dragged, -, -, -, stays⟩ := pieces valid 3 draggable ⟨15, 35⟩
  obtain rfl : d = .vertical := Option.some.inj (runs.symm.trans (by decide))
  obtain ⟨i, d, hit, -, runs, drags⟩ := cables terracedCanvas 1 terracedCable terracedCable.token
    ⟨15, 20⟩ ⟨115, 101⟩ ⟨65, 55⟩ found anchors loaded rfl begun
  obtain rfl : i = 3 := Option.some.inj (hit.symm.trans (by decide +kernel))
  obtain rfl : d = .vertical := Option.some.inj (runs.symm.trans (by decide))
  obtain ⟨-, y, there, straight⟩ := drags [⟨0, 0⟩] ⟨80, 90⟩
  have room : terrace.hasRoom .vertical 3 = true := by decide
  refine ⟨⟨valid, draggable, qs, dragged, stays.2 (Or.inr room)⟩, found, anchors, loaded, begun, y,
    there, fun lost => ?_⟩
  rw [straight, room] at lost
  exact Bool.noConfusion lost.2

/-- The first of the two pieces in a line has none: lowered, it is torn off the second. -/
theorem dragged_straight_terraced :
    (¬ ∀ token ps, Token.decode token = .ok ps → ∀ i, ps.isDraggable i = true → ∀ delta,
      ∃ qs, ps.drag i delta = some qs ∧ qs.isValid = true) ∧
    ¬ ∀ (c : Canvas) key x token a b ps origin position,
      c.scene.cable? key = some x → c.scene.anchors? key = some (a, b) →
      x.route = Route.ofToken token a b → x.route = .segmented ps →
      (c.beginSegment key origin).2 = true →
      ∀ y, ((c.beginSegment key origin).1.dragSegment position).1.scene.cable? key = some y →
        y.route ≠ .straight := by
  constructor
  · intro always
    obtain ⟨qs, dragged, valid⟩ := always terracedCable.token terrace (by decide +kernel) 1 (by decide)
      ⟨0, 10⟩
    obtain rfl := Option.some.inj (dragged.symm.trans (by rfl))
    revert valid
    decide
  · intro always
    have lost : ((terracedCanvas.beginSegment 1 ⟨30, 40⟩).1.dragSegment ⟨30, 50⟩).1.scene.cable? 1
        = some { terracedCable with route := .straight } := by decide +kernel
    exact always terracedCanvas 1 terracedCable terracedCable.token ⟨15, 20⟩ ⟨115, 101⟩ terrace
      ⟨30, 40⟩ ⟨30, 50⟩ (by decide +kernel) (by decide +kernel) (by decide +kernel) rfl
      (by decide +kernel) _ lost rfl

end Canvas

end Patchbay
