/-!
Rounding of quotients to whole numbers, each rule named for what it does with a half, and the
whole part of a square root.
-/

namespace Patchbay.Rounding

/-- The nearest whole number to `n / d`, the even one of two equally near. -/
def halfEven (n d : Nat) : Nat :=
  let q := n / d
  let r := n % d
  if 2 * r < d then q else if d < 2 * r then q + 1 else if q % 2 = 0 then q else q + 1

/-- The nearest whole number to `n / d`, the one farther from zero of two equally near. -/
def halfAway (n : Int) (d : Nat) : Int :=
  let q := ((2 * n.natAbs + d) / (2 * d) : Nat)
  if n < 0 then -(q : Int) else q

def clamp32 (z : Int) : Int := max (-2147483648) (min z 2147483647)

def extendRoot (n : Nat) : Nat → Nat → Nat
  | 0, root => root
  | bits + 1, root =>
    let wider := root + Nat.pow 2 bits
    if wider * wider ≤ n then extendRoot n bits wider else extendRoot n bits root

/-- The largest number whose square is at most `n`. -/
def wholeRoot (n : Nat) : Nat := extendRoot n (n.log2 / 2 + 1) 0

theorem halfEven_mul {d : Nat} (hd : 0 < d) (k : Nat) : halfEven (k * d) d = k := by
  simp [halfEven, Nat.mul_div_cancel _ hd, hd]

theorem halfAway_zero {d : Nat} (hd : 0 < d) : halfAway 0 d = 0 := by
  have half : (2 * (0 : Int).natAbs + d) / (2 * d) = 0 := Nat.div_eq_of_lt (by simp; omega)
  simp only [halfAway, half]
  rfl

theorem halfAway_neg (n : Int) {d : Nat} (hd : 0 < d) : halfAway (-n) d = -halfAway n d := by
  rcases Int.lt_trichotomy n 0 with h | rfl | h
  · simp only [halfAway, Int.natAbs_neg, if_pos h, if_neg (show ¬ -n < 0 by omega), Int.neg_neg]
  · rw [Int.neg_zero, halfAway_zero hd, Int.neg_zero]
  · simp only [halfAway, Int.natAbs_neg, if_neg (show ¬ n < 0 by omega), if_pos (show -n < 0 by omega)]

theorem clamp32_of_mem {z : Int} (hl : -2147483648 ≤ z) (hu : z ≤ 2147483647) : clamp32 z = z := by
  simp only [clamp32]; omega

end Patchbay.Rounding
