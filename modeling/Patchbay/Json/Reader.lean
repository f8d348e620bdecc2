import Patchbay.Json.Basic

/-!
Reading JSON text. Each reader takes the characters that are left and answers with what it read
and with what is left after it. `fuel` bounds the values still to be read; a text has fewer of
them than characters.
-/

namespace Patchbay.Json

def isBlank (c : Char) : Bool := c = ' ' || c = '\t' || c = '\n' || c = '\r'

def skipBlanks (cs : List Char) : List Char := cs.dropWhile isBlank

/-- What is left after a word, if the text goes on with it. -/
def after? : (word : List Char) → List Char → Option (List Char)
  | [], cs => some cs
  | _ :: _, [] => none
  | w :: word, c :: cs => if w = c then after? word cs else none

def hexValue? (c : Char) : Option Nat :=
  let n := c.toNat
  if 48 ≤ n ∧ n ≤ 57 then some (n - 48)
  else if 97 ≤ n ∧ n ≤ 102 then some (n - 87)
  else if 65 ≤ n ∧ n ≤ 70 then some (n - 55)
  else none

def shortEscape? (c : Char) : Option Nat :=
  match c with
  | '"' => some 0x22
  | '\\' => some 0x5c
  | '/' => some 0x2f
  | 'b' => some 0x08
  | 'f' => some 0x0c
  | 'n' => some 0x0a
  | 'r' => some 0x0d
  | 't' => some 0x09
  | _ => none

def hexUnit? (a b c d : Char) : Option Nat := do
  let a ← hexValue? a
  let b ← hexValue? b
  let c ← hexValue? c
  let d ← hexValue? d
  return ((a * 16 + b) * 16 + c) * 16 + d

def readText : List Char → Option (Text × List Char)
  | [] => none
  | '"' :: cs => some ([], cs)
  | '\\' :: 'u' :: a :: b :: c :: d :: cs => do
    let n ← hexUnit? a b c d
    let (t, cs) ← readText cs
    return (.unit n :: t, cs)
  | '\\' :: c :: cs => do
    let n ← shortEscape? c
    let (t, cs) ← readText cs
    return (.unit n :: t, cs)
  | c :: cs =>
    if c = '\\' ∨ c.toNat < 0x20 then none
    else do
      let (t, cs) ← readText cs
      return (.char c :: t, cs)

def readDigits (cs : List Char) : Option (List Char × List Char) :=
  match cs.takeWhile Char.isDigit with
  | [] => none
  | ds => some (ds, cs.dropWhile Char.isDigit)

def readWhole : List Char → Option (List Char × List Char)
  | '0' :: cs =>
    match cs with
    | c :: _ => if c.isDigit then none else some (['0'], cs)
    | [] => some (['0'], [])
  | cs => readDigits cs

def readFraction : List Char → Option (List Char × List Char)
  | '.' :: cs => (readDigits cs).map fun (ds, cs) => ('.' :: ds, cs)
  | cs => some ([], cs)

def isExponentMark (c : Char) : Bool := c = 'e' || c = 'E'
def isSign (c : Char) : Bool := c = '+' || c = '-'

def readExponent : List Char → Option (List Char × List Char)
  | [] => some ([], [])
  | c :: cs =>
    if isExponentMark c then
      match cs with
      | s :: cs' =>
        if isSign s then (readDigits cs').map fun (ds, cs) => (c :: s :: ds, cs)
        else (readDigits cs).map fun (ds, cs) => (c :: ds, cs)
      | [] => none
    else some ([], c :: cs)

def readNumber (cs : List Char) : Option (List Char × List Char) := do
  let (sign, cs) := match cs with
    | '-' :: cs => (['-'], cs)
    | _ => ([], cs)
  let (whole, cs) ← readWhole cs
  let (fraction, cs) ← readFraction cs
  let (exponent, cs) ← readExponent cs
  return (sign ++ whole ++ fraction ++ exponent, cs)

mutual

def readValue : (fuel : Nat) → List Char → Option (Json × List Char)
  | 0, _ => none
  | fuel + 1, cs =>
    match skipBlanks cs with
    | [] => none
    | c :: cs =>
      if c = '{' then
        match after? ['}'] (skipBlanks cs) with
        | some cs => some (object [], cs)
        | none => (readMembers fuel cs).map fun (ms, cs) => (object ms, cs)
      else if c = '[' then
        match after? [']'] (skipBlanks cs) with
        | some cs => some (array [], cs)
        | none => (readElements fuel cs).map fun (xs, cs) => (array xs, cs)
      else if c = '"' then
        (readText cs).map fun (t, cs) => (text t, cs)
      else if c = 'n' then (after? ['u', 'l', 'l'] cs).map fun cs => (null, cs)
      else if c = 't' then (after? ['r', 'u', 'e'] cs).map fun cs => (bool true, cs)
      else if c = 'f' then (after? ['a', 'l', 's', 'e'] cs).map fun cs => (bool false, cs)
      else (readNumber (c :: cs)).map fun (ds, cs) => (number ds, cs)

def readElements : (fuel : Nat) → List Char → Option (List Json × List Char)
  | 0, _ => none
  | fuel + 1, cs => do
    let (x, cs) ← readValue fuel cs
    match skipBlanks cs with
    | ',' :: cs =>
      let (xs, cs) ← readElements fuel cs
      return (x :: xs, cs)
    | ']' :: cs => return ([x], cs)
    | _ => none

def readMembers : (fuel : Nat) → List Char → Option (List (Text × Json) × List Char)
  | 0, _ => none
  | fuel + 1, cs => do
    let cs ← after? ['"'] (skipBlanks cs)
    let (k, cs) ← readText cs
    let cs ← after? [':'] (skipBlanks cs)
    let (v, cs) ← readValue fuel cs
    match skipBlanks cs with
    | ',' :: cs =>
      let (ms, cs) ← readMembers fuel cs
      return ((k, v) :: ms, cs)
    | '}' :: cs => return ([(k, v)], cs)
    | _ => none

end

def parse? (s : String) : Option Json :=
  match readValue (s.toList.length + 1) s.toList with
  | some (j, cs) => if skipBlanks cs = [] then some j else none
  | none => none

end Patchbay.Json
