import Patchbay.Number.Rounding

/-!
Binary floating-point numbers as exact rationals.

A format rounds a rational to its nearest member, a tie to the even one. Every operation on
members is the exact one followed by this rounding, so single-precision results come out
bit for bit.
-/

namespace Patchbay

/-- A format keeps `digits` binary digits, none below `2 ^ lowest`, and reaches up to `2 ^ range`. -/
structure Binary where
  digits : Nat
  lowest : Int
  range : Nat

namespace Binary

def single : Binary := ⟨24, -149, 128⟩
def double : Binary := ⟨53, -1074, 1024⟩

/-- Multiplies a fraction by a power of two, given as numerator and denominator. -/
def scale (n d : Nat) (e : Int) : Nat × Nat :=
  if 0 ≤ e then (n * Nat.pow 2 e.toNat, d) else (n, d * Nat.pow 2 (-e).toNat)

def exponent (n d : Nat) : Int :=
  let e : Int := n.log2 - d.log2
  let (n, d) := scale n d (-e)
  if n < d then e - 1 else e

def ofScaled (k : Nat) (e : Int) : Rat :=
  let (n, d) := scale k 1 e
  mkRat n d

/-- Rounds to the nearest member. A magnitude past the range stays as the square of the bound,
so large that quotients by it vanish and products with it leave every integer range. -/
def round (f : Binary) (q : Rat) : Rat :=
  if q.num = 0 then 0 else
  let place := max (exponent q.num.natAbs q.den - (f.digits - 1 : Nat)) f.lowest
  let (n, d) := scale q.num.natAbs q.den (-place)
  let rounded := ofScaled (Rounding.halfEven n d) place
  let bound : Rat := Nat.pow 2 f.range
  let magnitude := if rounded < bound then rounded else bound * bound
  if q.num < 0 then -magnitude else magnitude

end Binary

namespace Single

def round (q : Rat) : Rat := Binary.single.round q

def ofInt (z : Int) : Rat := round z
def add (a b : Rat) : Rat := round (a + b)
def sub (a b : Rat) : Rat := round (a - b)
def mul (a b : Rat) : Rat := round (a * b)
def div (a b : Rat) : Rat := round (a / b)

def sqrt (q : Rat) : Rat :=
  if q.num ≤ 0 then 0 else
  let place := Int.fdiv (Binary.exponent q.num.natAbs q.den) 2 - 23
  let (n, d) := Binary.scale q.num.natAbs q.den (-2 * place)
  let root := Rounding.wholeRoot (n / d)
  let middle := (2 * root + 1) * (2 * root + 1) * d
  let nearest := if middle < 4 * n then root + 1
    else if 4 * n = middle && root % 2 = 1 then root + 1 else root
  Binary.ofScaled nearest place

def truncate (q : Rat) : Int := Rounding.clamp32 (q.num.tdiv q.den)

def nearest (q : Rat) : Int := Rounding.clamp32 (Rounding.halfAway q.num q.den)

def ceiling (q : Rat) : Int := Rounding.clamp32 (-((-q.num) / (q.den : Int)))

def bits (q : Rat) : Nat :=
  if q.num ≤ 0 then 0 else
  let e := Binary.exponent q.num.natAbs q.den
  let (n, d) := Binary.scale q.num.natAbs q.den (-(max (e - 23) (-149)))
  if e < -126 then n / d else (e + 126).toNat * 8388608 + n / d

end Single

end Patchbay
