import Patchbay.Proofs.Room

/-!
# Straight cables that are bent

A straight cable that is dragged gets an initial plan and is held by its middle piece. That piece has
room, so the cable keeps the plan wherever the pointer goes. Between anchors of one column the piece is
upright and goes sideways, as long as the thirds of the way are two points. Anchors that are nearer have
an empty piece, and it goes up and down.
-/

namespace Patchbay

namespace Plan

variable {start stop p : Point}

def initialDirection (start stop : Point) : Direction :=
  if start.x = stop.x ∧ 2 ≤ (stop.y - start.y).natAbs then .vertical else .horizontal

theorem div_three_eq_iff (n : Nat) : n / 3 = 2 * n / 3 ↔ ¬2 ≤ n := by
  obtain short | rfl | long : n < 2 ∨ n = 2 ∨ 2 < n := by omega
  · omega
  · decide
  · omega

theorem tdiv_three_eq_iff (dy : Int) : dy.tdiv 3 = (2 * dy).tdiv 3 ↔ ¬2 ≤ dy.natAbs := by
  obtain ⟨n, rfl | rfl⟩ := dy.eq_nat_or_neg
  · have thirds := div_three_eq_iff n
    rw [Int.tdiv_eq_ediv_of_nonneg (by omega), Int.tdiv_eq_ediv_of_nonneg (by omega)]
    omega
  · have thirds := div_three_eq_iff n
    rw [Int.mul_neg, Int.neg_tdiv, Int.neg_tdiv, Int.tdiv_eq_ediv_of_nonneg (by omega),
      Int.tdiv_eq_ediv_of_nonneg (by omega)]
    omega

theorem direction?_initial (start stop : Point) :
    (initial start stop).direction? (initial start stop).middle
      = some (initialDirection start stop) := by
  unfold initial
  by_cases column : start.x = stop.x
  · by_cases far : 2 ≤ (stop.y - start.y).natAbs
    · simp [column, middle, direction?, direction, initialDirection, tdiv_three_eq_iff, far]
    · simp [column, middle, direction?, direction, initialDirection, tdiv_three_eq_iff, far]
  · simp [column, middle, direction?, direction, initialDirection]

theorem isDraggable_initial (start stop : Point) :
    (initial start stop).isDraggable (initial start stop).middle = true := by
  unfold initial
  split <;> simp [middle, isDraggable]

theorem hasRoom_initial (start stop : Point) :
    (initial start stop).hasRoom (initialDirection start stop) (initial start stop).middle = true := by
  unfold initial initialDirection
  by_cases column : start.x = stop.x
  · by_cases far : 2 ≤ (stop.y - start.y).natAbs <;>
      simp [column, far, middle, hasRoom, crosses, segments, isDraggable, Segment.isVertical,
        Segment.isHorizontal]
  · simp [column, middle, hasRoom, crosses, segments, Segment.isVertical]

theorem ends_initial (start stop : Point) :
    (initial start stop).head? = some start ∧ (initial start stop).getLast? = some stop := by
  unfold initial
  split <;> simp

theorem x_eq_of_mem_initial (column : start.x = stop.x) (mem : p ∈ initial start stop) :
    p.x = start.x := by
  rw [initial, if_pos column] at mem
  simp only [List.mem_cons, List.not_mem_nil, or_false] at mem
  rcases mem with rfl | rfl | rfl | rfl | rfl | rfl
  · rfl
  · rfl
  · rfl
  · rfl
  · rfl
  · exact column.symm

theorem shift_initialDirection {j : Nat} (there : (initial start stop)[j]? = some p) (delta : Point) :
    shift delta (initialDirection start stop) p =
      if start.x = stop.x ∧ 2 ≤ (stop.y - start.y).natAbs then ⟨start.x + delta.x, p.y⟩
      else ⟨p.x, p.y + delta.y⟩ := by
  unfold initialDirection
  split
  · next upright =>
    rw [← x_eq_of_mem_initial upright.1 (List.mem_of_getElem? there)]
    rfl
  · rfl

theorem exists_drag_initial (start stop delta : Point) :
    ∃ qs, (initial start stop).drag (initial start stop).middle delta = some qs ∧ qs.isValid = true ∧
      qs.head? = some start ∧ qs.getLast? = some stop ∧ ∀ j, qs[j]? = (initial start stop)[j]?.map fun p =>
        if j = (initial start stop).middle ∨ j = (initial start stop).middle + 1 then
          if start.x = stop.x ∧ 2 ≤ (stop.y - start.y).natAbs then ⟨start.x + delta.x, p.y⟩
          else ⟨p.x, p.y + delta.y⟩
        else p := by
  have draggable := isDraggable_initial start stop
  obtain ⟨head, last⟩ := ends_initial start stop
  obtain ⟨d, qs, runs, dragged, -, first', last', stays⟩ :=
    exists_drag (alternating_initial start stop).isValid draggable delta
  obtain rfl : initialDirection start stop = d :=
    Option.some.inj ((direction?_initial start stop).symm.trans runs)
  have moved := drag_eq draggable delta
  rw [dragged, runs, Option.map_some, Option.some.injEq] at moved
  refine ⟨qs, dragged, stays.2 (Or.inr (hasRoom_initial start stop)), first'.trans head,
    last'.trans last, fun j => ?_⟩
  rw [moved, getElem?_modify_pair]
  refine Option.map_congr fun p there => ?_
  split
  · exact shift_initialDirection there delta
  · rfl

end Plan

namespace Canvas

open Plan (initial)

/-- A drag of a straight cable begins when no other is going on, wherever the pointer is. The middle
piece of the initial plan can be dragged, and stays one of a plan from anchor to anchor that differs in
this piece only: pieces between anchors of one column, two apart or more, go sideways, all others up
and down. So the cable has a plan wherever the pointer goes. -/
theorem straight_kinked (start stop : Point) :
    let ps := initial start stop
    ps.isDraggable ps.middle = true ∧
    (∀ delta : Point, ∃ qs, ps.drag ps.middle delta = some qs ∧ qs.isValid = true ∧
      qs.head? = some start ∧ qs.getLast? = some stop ∧ ∀ j, qs[j]? = ps[j]?.map fun p =>
        if j = ps.middle ∨ j = ps.middle + 1 then
          if start.x = stop.x ∧ 2 ≤ (stop.y - start.y).natAbs then ⟨start.x + delta.x, p.y⟩
          else ⟨p.x, p.y + delta.y⟩
        else p) ∧
    ∀ (c : Canvas) key x origin,
      c.scene.cable? key = some x → c.scene.anchors? key = some (start, stop) → x.route = .straight →
      c.isBusy = false →
      let begun := c.beginSegment key origin
      begun.2 = true ∧ ∀ moves position,
        let r := (begun.1.dragSegments moves).dragSegment position
        r.2 = true ∧ ∃ y qs, r.1.scene.cable? key = some y ∧ y.route = .segmented qs ∧
          ps.drag ps.middle (position - origin) = some qs := by
  intro ps
  refine ⟨Plan.isDraggable_initial start stop, Plan.exists_drag_initial start stop, ?_⟩
  intro c key x origin found anchors straight free begun
  have grip : c.grip? x start stop origin = some (ps, ps.middle) := by rw [grip?, straight]
  have begins : begun.2 = true := by
    simp only [begun, beginSegment, free, found, anchors, grip, ps, Plan.isDraggable_initial]
    rfl
  obtain ⟨ps', i, grip', draggable, held⟩ := holdsPiece_beginSegment found anchors begins
  obtain ⟨rfl, rfl⟩ := Prod.mk.inj (Option.some.inj (grip.symm.trans grip'))
  obtain ⟨head, last⟩ := Plan.ends_initial start stop
  refine ⟨begins, fun moves position => ?_⟩
  obtain ⟨qs, dragged, valid, first', last', -⟩ := Plan.exists_drag_initial start stop (position - origin)
  have holds :=
    (held head last).dragSegments (Plan.alternating_initial start stop).isValid draggable moves
  obtain ⟨moved, -, y, there, route⟩ :=
    holds.dragSegment dragged (first'.trans head.symm) (last'.trans last.symm)
  exact ⟨moved, y, qs, there, route.trans (if_pos valid), dragged⟩

def stacked : Patch where
  nodes := [(1, ⟨"osc~", ⟨0, 0, 40, 20⟩, [], [true]⟩), (2, ⟨"dac~", ⟨0, 60, 40, 20⟩, [true], []⟩)]
  wires := [⟨3, ⟨1, 0, 2, 0⟩, ""⟩]
  next := 4

def stackedCanvas : Canvas := ((ofSettings {}).sync stacked).1

def stackedCable : Cable :=
  { handle := 3, outlet := ⟨1, .outlet, 0⟩, inlet := ⟨2, .inlet, 0⟩, route := .straight, token := "" }

/-- The cable is taken to the left and then to the right. -/
theorem straight_kinked_stacked :
    stackedCanvas.scene.cable? 1 = some stackedCable ∧
      stackedCanvas.scene.anchors? 1 = some (⟨15, 20⟩, ⟨15, 61⟩) ∧
      stackedCable.route = .straight ∧ stackedCanvas.isBusy = false ∧
      (stackedCanvas.beginSegment 1 ⟨15, 40⟩).2 = true ∧
      ∃ y, (((stackedCanvas.beginSegment 1 ⟨15, 40⟩).1.dragSegments [⟨0, 45⟩]).dragSegment
          ⟨55, 50⟩).1.scene.cable? 1 = some y ∧
        y.route = .segmented [⟨15, 20⟩, ⟨15, 33⟩, ⟨55, 33⟩, ⟨55, 47⟩, ⟨15, 47⟩, ⟨15, 61⟩] := by
  have found : stackedCanvas.scene.cable? 1 = some stackedCable := by decide +kernel
  have anchors : stackedCanvas.scene.anchors? 1 = some (⟨15, 20⟩, ⟨15, 61⟩) := by decide +kernel
  have free : stackedCanvas.isBusy = false := by decide +kernel
  obtain ⟨-, -, cables⟩ := straight_kinked ⟨15, 20⟩ ⟨15, 61⟩
  obtain ⟨begins, drags⟩ := cables stackedCanvas 1 stackedCable ⟨15, 40⟩ found anchors rfl free
  obtain ⟨-, y, qs, there, route, dragged⟩ := drags [⟨0, 45⟩] ⟨55, 50⟩
  obtain rfl := Option.some.inj (dragged.symm.trans (by rfl))
  exact ⟨found, anchors, rfl, free, begins, y, there, route⟩

/-- Anchors of one column that are one apart: the piece does not go sideways. -/
theorem straight_kinked_near :
    ¬ ∀ start stop delta : Point,
      let ps := initial start stop
      ∃ qs, ps.drag ps.middle delta = some qs ∧ ∀ j, qs[j]? = ps[j]?.map fun p =>
        if j = ps.middle ∨ j = ps.middle + 1 then
          if start.x = stop.x then ⟨start.x + delta.x, p.y⟩ else ⟨p.x, p.y + delta.y⟩
        else p := by
  intro always
  obtain ⟨qs, dragged, moved⟩ := always ⟨0, 0⟩ ⟨0, 1⟩ ⟨40, 0⟩
  obtain rfl := Option.some.inj (dragged.symm.trans (by rfl))
  exact absurd (moved 2) (by decide)

end Canvas

end Patchbay
