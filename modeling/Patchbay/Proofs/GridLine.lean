import Mathlib.Tactic.Linarith
import Patchbay.Proofs.Snapped

/-!
# Grid lines

Where only the grid counts, a moved box goes to the nearest grid line on each axis, the one farther
from the origin of two that are equally near. There it stays: moved by the offset that it was given,
it is given that offset again.
-/

namespace Patchbay

namespace Rounding

variable {n : Int} {d : Nat}

theorem halfAway_bounds (positive : 0 < d) (above : 0 ≤ n) :
    2 * (halfAway n d * d) ≤ 2 * n + d ∧ 2 * n < 2 * (halfAway n d * d) + d := by
  have q : halfAway n d = (((2 * n.natAbs + d) / (2 * d) : Nat) : Int) := if_neg (Int.not_lt.2 above)
  have low := Nat.mul_div_le (2 * n.natAbs + d) (2 * d)
  have high := Nat.lt_mul_div_succ (2 * n.natAbs + d) (show 0 < 2 * d by omega)
  rw [Nat.mul_succ, Nat.mul_assoc] at high
  rw [Nat.mul_assoc] at low
  rw [q, Int.mul_comm _ (d : Int), ← Int.natCast_mul]
  generalize d * ((2 * n.natAbs + d) / (2 * d)) = line at low high ⊢
  omega

theorem halfAway_near (positive : 0 < d) (n : Int) :
    2 * ((halfAway n d * d - n).natAbs : Int) ≤ d ∧
      (2 * ((halfAway n d * d - n).natAbs : Int) = d → n.natAbs < (halfAway n d * d).natAbs) := by
  rcases Int.le_total 0 n with above | below
  · obtain ⟨low, high⟩ := halfAway_bounds positive above
    omega
  · obtain ⟨low, high⟩ := halfAway_bounds positive (show 0 ≤ -n by omega)
    rw [halfAway_neg n positive, Int.neg_mul] at low high
    omega

end Rounding

section

variable {position origin size : Int}

theorem dvd_gridDelta (positive : 0 < size) (position origin : Int) :
    size ∣ position + gridDelta position origin size - origin := by
  have cast : ((size.toNat : Nat) : Int) = size := Int.toNat_of_nonneg (Int.le_of_lt positive)
  rw [gridDelta, if_neg (Int.not_le.2 positive)]
  exact ⟨Rounding.halfAway (position - origin) size.toNat, by rw [Int.mul_comm]; omega⟩

/-- The grid line is half a step away at most, and of two at that distance the farther from the
origin. -/
theorem gridDelta_near (positive : 0 < size) (position origin : Int) :
    2 * ((gridDelta position origin size).natAbs : Int) ≤ size ∧
      (2 * ((gridDelta position origin size).natAbs : Int) = size →
        (position - origin).natAbs
          < (position + gridDelta position origin size - origin).natAbs) := by
  have cast : ((size.toNat : Nat) : Int) = size := Int.toNat_of_nonneg (Int.le_of_lt positive)
  obtain ⟨near, away⟩ := Rounding.halfAway_near (show 0 < size.toNat by omega) (position - origin)
  rw [cast] at near away
  rw [gridDelta, if_neg (Int.not_le.2 positive)]
  refine ⟨near, fun tie => ?_⟩
  have farther := away tie
  generalize Rounding.halfAway (position - origin) size.toNat * size = line at *
  omega

theorem gridDelta_least (positive : 0 < size) (position origin : Int) {line : Int}
    (grid : size ∣ line - origin) :
    (gridDelta position origin size).natAbs ≤ (line - position).natAbs := by
  have apart : size ∣ line - (position + gridDelta position origin size) := by
    have both := Int.dvd_sub grid (dvd_gridDelta positive position origin)
    rwa [sub_sub_sub_cancel_right] at both
  obtain ⟨near, -⟩ := gridDelta_near positive position origin
  generalize gridDelta position origin size = step at *
  obtain ⟨k, apart⟩ := apart
  rcases Int.lt_trichotomy k 0 with before | rfl | after
  · have far : size * k ≤ -size := by nlinarith
    omega
  · omega
  · have far : size ≤ size * k := by nlinarith
    omega

theorem gridDelta_self (positive : 0 < size) (grid : size ∣ position - origin) :
    gridDelta position origin size = 0 := by
  have least := gridDelta_least positive position origin grid
  omega

end

namespace Snapper

variable {s : Snapper} {r : MoveRequest}

theorem settings_move (s : Snapper) (r : MoveRequest) (now : Nat) :
    (s.move r now).1.settings = s.settings := by
  unfold move
  split <;> rfl

theorem move_of_grid (grid : s.settings.mode = .grid) (on : r.bypass = false) {axis : Axis}
    (free : (s.axis axis).held = none) (now : Nat) :
    ((s.move r now).1.axis axis).held = none ∧
      axis.component (s.move r now).2 = axis.component r.offset
        + gridDelta (axis.start r.desired) (axis.component r.gridOrigin) s.settings.size := by
  have snaps : (r.bypass || s.settings.mode == .off) = false := by rw [on, grid]; rfl
  have outcome : freshOutcome s.settings axis r = .free (axis.component r.offset
      + gridDelta (axis.start r.desired) (axis.component r.gridOrigin) s.settings.size) := by
    simp only [freshOutcome, gridOutcome, grid, SnapMode.snapsToObjects, SnapMode.snapsToGrid,
      Bool.false_eq_true, if_false, if_true]
  have gone : kept? s.settings axis r (s.axis axis).held = none := by rw [free]; rfl
  obtain ⟨held, offset⟩ := move_axis snaps now axis
  obtain ⟨held', offset'⟩ := moveAxis_of_fresh now gone
  rw [outcome] at held' offset'
  exact ⟨held.trans held', offset.trans offset'⟩

theorem start_desired (axis : Axis) (r : MoveRequest) :
    axis.start r.desired = axis.start (r.home.reduced margin) + axis.component r.offset :=
  axis.feature_desired .start r

theorem corner_of_grid (grid : s.settings.mode = .grid) (on : r.bypass = false) {axis : Axis}
    (free : (s.axis axis).held = none) (now : Nat) :
    axis.start { r with offset := (s.move r now).2 }.desired = axis.start r.desired
      + gridDelta (axis.start r.desired) (axis.component r.gridOrigin) s.settings.size := by
  obtain ⟨-, answer⟩ := move_of_grid grid on free now
  rw [start_desired, start_desired axis r]
  rw [start_desired axis r] at answer
  dsimp only
  omega

theorem move_again (grid : s.settings.mode = .grid) (positive : 0 < s.settings.size)
    (on : r.bypass = false) (free : ∀ axis, (s.axis axis).held = none) (now later : Nat) :
    ((s.move r now).1.move { r with offset := (s.move r now).2 } later).2 = (s.move r now).2 := by
  have settings := settings_move s r now
  have still (axis : Axis) :
      axis.component ((s.move r now).1.move { r with offset := (s.move r now).2 } later).2
        = axis.component (s.move r now).2 := by
    have free' := (move_of_grid grid on (free axis) now).1
    have again := (move_of_grid (r := { r with offset := (s.move r now).2 }) (settings ▸ grid) on free'
      later).2
    have line := dvd_gridDelta positive (axis.start r.desired) (axis.component r.gridOrigin)
    rw [← corner_of_grid grid on (free axis) now] at line
    rw [again, settings, gridDelta_self positive line, Int.add_zero]
  exact Point.ext (still .horizontal) (still .vertical)

/-- The corner of the content goes to the nearest grid line on each axis, and moved to where it is
then it stays. -/
theorem grid_answer (grid : s.settings.mode = .grid) (positive : 0 < s.settings.size)
    (on : r.bypass = false) (free : ∀ axis, (s.axis axis).held = none) (now later : Nat) :
    let (t, offset) := s.move r now;
    let snapped := { r with offset := offset };
    (∀ axis : Axis,
      let origin := axis.component r.gridOrigin;
      let raw := axis.start r.desired;
      let corner := axis.start snapped.desired;
      s.settings.size ∣ corner - origin ∧
        2 * ((corner - raw).natAbs : Int) ≤ s.settings.size ∧
        (2 * ((corner - raw).natAbs : Int) = s.settings.size →
          (raw - origin).natAbs < (corner - origin).natAbs) ∧
        ∀ line, s.settings.size ∣ line - origin → (corner - raw).natAbs ≤ (line - raw).natAbs) ∧
      (t.move snapped later).2 = offset := by
  have corner (axis : Axis) := corner_of_grid grid on (free axis) now
  have again := move_again grid positive on free now later
  generalize s.move r now = answer at corner again
  obtain ⟨t, offset⟩ := answer
  dsimp only at corner again ⊢
  refine ⟨fun axis => ?_, again⟩
  rw [corner axis, add_sub_cancel_left]
  obtain ⟨near, away⟩ := gridDelta_near positive (axis.start r.desired) (axis.component r.gridOrigin)
  exact ⟨dvd_gridDelta positive _ _, near, away, fun line => gridDelta_least positive _ _⟩

def gridded : Snapper where
  settings := { mode := .grid, size := 20 }

/-- A box whose corner is halfway between two grid lines on both axes, on one side of the origin and
on the other. -/
def halfway : MoveRequest where
  home := ⟨0, 0, 50, 30⟩
  offset := ⟨8, -34⟩
  others := []
  cables := []
  gridOrigin := ⟨3, 1⟩

theorem grid_answer_halfway :
    gridded.settings.mode = .grid ∧ 0 < gridded.settings.size ∧ halfway.bypass = false ∧
      (∀ axis, (gridded.axis axis).held = none) ∧ (gridded.move halfway 0).2 = ⟨18, -44⟩ ∧
      (20 : Int) ∣ 23 - 3 ∧ (10 : Int).natAbs < (20 : Int).natAbs ∧
      (20 : Int) ∣ -39 - 1 ∧ (-30 : Int).natAbs < (-40 : Int).natAbs ∧
      ((gridded.move halfway 0).1.move { halfway with offset := ⟨18, -44⟩ } 7).2 = ⟨18, -44⟩ := by
  have free (axis : Axis) : (gridded.axis axis).held = none := by cases axis <;> rfl
  obtain ⟨corners, again⟩ := grid_answer (s := gridded) (r := halfway) rfl (by decide) rfl free 0 7
  obtain ⟨line, -, away, -⟩ := corners .horizontal
  obtain ⟨line', -, away', -⟩ := corners .vertical
  exact ⟨rfl, by decide, rfl, free, rfl, line, away rfl, line', away' rfl, again⟩

end Snapper

end Patchbay
