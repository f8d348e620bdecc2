/-!
Base64 with the standard alphabet. Padding is always written and always required, and the unused
low bits of the last digit have to be zero, so each list of bytes has one written form.
-/

namespace Patchbay.Base64

def digit (n : Nat) : Char :=
  if n < 26 then Char.ofNat (65 + n)
  else if n < 52 then Char.ofNat (71 + n)
  else if n < 62 then Char.ofNat (n - 4)
  else if n = 62 then '+' else '/'

def value? (c : Char) : Option Nat :=
  let n := c.toNat
  if 65 ≤ n ∧ n ≤ 90 then some (n - 65)
  else if 97 ≤ n ∧ n ≤ 122 then some (n - 71)
  else if 48 ≤ n ∧ n ≤ 57 then some (n + 4)
  else if c = '+' then some 62
  else if c = '/' then some 63
  else none

def encode : List UInt8 → List Char
  | [] => []
  | [a] => [digit (a.toNat / 4), digit (a.toNat % 4 * 16), '=', '=']
  | [a, b] =>
    [digit (a.toNat / 4), digit (a.toNat % 4 * 16 + b.toNat / 16), digit (b.toNat % 16 * 4), '=']
  | a :: b :: c :: rest =>
    digit (a.toNat / 4) :: digit (a.toNat % 4 * 16 + b.toNat / 16)
      :: digit (b.toNat % 16 * 4 + c.toNat / 64) :: digit (c.toNat % 64) :: encode rest

def byte (n : Nat) : UInt8 := UInt8.ofNat n

/-- The bytes of four characters without padding. -/
def decodeGroup (a b c d : Char) : Option (List UInt8) := do
  let p ← value? a
  let q ← value? b
  let r ← value? c
  let s ← value? d
  return [byte (p * 4 + q / 16), byte (q % 16 * 16 + r / 4), byte (r % 4 * 64 + s)]

/-- The bytes of the three characters before a last padding character. -/
def decodeTail (a b c : Char) : Option (List UInt8) := do
  let p ← value? a
  let q ← value? b
  if c = '=' then
    if q % 16 = 0 then return [byte (p * 4 + q / 16)] else none
  else
    let r ← value? c
    if r % 4 = 0 then return [byte (p * 4 + q / 16), byte (q % 16 * 16 + r / 4)] else none

def decode : List Char → Option (List UInt8)
  | [] => some []
  | a :: b :: c :: d :: rest =>
    if d = '=' ∧ rest = [] then decodeTail a b c
    else do
      let bytes ← decodeGroup a b c d
      let more ← decode rest
      return bytes ++ more
  | _ => none

theorem value?_digit {n : Nat} (h : n < 64) : value? (digit n) = some n := by
  have all : ∀ k : Fin 64, value? (digit k) = some (k : Nat) := by decide +kernel
  exact all ⟨n, h⟩

end Patchbay.Base64
