/-!
Whole numbers as bytes: small ones take one byte, larger ones a byte that announces the width of
the little-endian number after it. Signed numbers are folded, so that those near zero stay small.
-/

namespace Patchbay.Varint

def littleEndian : (width : Nat) → Nat → List UInt8
  | 0, _ => []
  | width + 1, n => UInt8.ofNat n :: littleEndian width (n / 256)

def readLittleEndian : (width : Nat) → List UInt8 → Option (Nat × List UInt8)
  | 0, bytes => some (0, bytes)
  | _ + 1, [] => none
  | width + 1, b :: bytes =>
    (readLittleEndian width bytes).map fun (n, rest) => (b.toNat + 256 * n, rest)

/-- Widths in bytes, with the byte that announces each. -/
def widths : List (UInt8 × Nat) := [(251, 2), (252, 4), (253, 8), (254, 16)]

/-- The shortest form of a number below `2 ^ 128`. -/
def write (n : Nat) : List UInt8 :=
  if n < 251 then [UInt8.ofNat n]
  else if n < 65536 then 251 :: littleEndian 2 n
  else if n < 4294967296 then 252 :: littleEndian 4 n
  else if n < 18446744073709551616 then 253 :: littleEndian 8 n
  else 254 :: littleEndian 16 n

/-- Reads a number, longer forms than needed included, but no wider one than `widest` bytes. -/
def read (widest : Nat) : List UInt8 → Option (Nat × List UInt8)
  | [] => none
  | b :: bytes =>
    if b < 251 then some (b.toNat, bytes)
    else match widths.lookup b with
      | some width => if width ≤ widest then readLittleEndian width bytes else none
      | none => none

/-- Folds the integers onto the naturals: 0, -1, 1, -2, 2, ... -/
def fold (z : Int) : Nat := if 0 ≤ z then 2 * z.natAbs else 2 * z.natAbs - 1

def unfold (n : Nat) : Int := if n % 2 = 0 then (n / 2 : Nat) else -((n / 2 : Nat) + 1 : Int)

theorem length_littleEndian (width n : Nat) : (littleEndian width n).length = width := by
  induction width generalizing n with
  | zero => rfl
  | succ width ih => simp [littleEndian, ih]

theorem readLittleEndian_littleEndian (rest : List UInt8) {width n : Nat}
    (h : n < Nat.pow 256 width) :
    readLittleEndian width (littleEndian width n ++ rest) = some (n, rest) := by
  induction width generalizing n with
  | zero =>
    obtain rfl : n = 0 := Nat.lt_one_iff.1 h
    rfl
  | succ width ih =>
    have small : n / 256 < Nat.pow 256 width := Nat.div_lt_of_lt_mul (by rwa [Nat.mul_comm])
    have sum : n % 256 + 256 * (n / 256) = n := Nat.mod_add_div n 256
    simp [littleEndian, readLittleEndian, ih small, sum]

theorem unfold_fold (z : Int) : unfold (fold z) = z := by
  simp only [fold, unfold]; split <;> split <;> omega

theorem fold_unfold (n : Nat) : fold (unfold n) = n := by
  simp only [fold, unfold]; split <;> split <;> omega

end Patchbay.Varint
