/-!
JSON values as they are written: a number keeps its literal and a string its escapes, so a reader
of values can tell `1` from `1.0` and a plain key from an escaped one.
-/

namespace Patchbay

/-- One part of a written string: a character as it is, or a 16-bit unit from an escape. -/
inductive Json.Piece where
  | char (c : Char)
  | unit (n : Nat)
  deriving DecidableEq, Repr

abbrev Json.Text := List Json.Piece

inductive Json where
  | null
  | bool (b : Bool)
  | number (literal : List Char)
  | text (pieces : Json.Text)
  | array (elements : List Json)
  | object (members : List (Json.Text × Json))
  deriving Repr, Inhabited

namespace Json

def needsEscape (c : Char) : Bool := c = '"' || c = '\\' || c.toNat < 0x20

def Piece.ofChar (c : Char) : Piece := if needsEscape c then unit c.toNat else char c

/-- The characters of a written string whose last unit was the first of a surrogate pair, or was
none. A pair makes one character; a unit without its partner makes the string unreadable. -/
def Text.charsAfter? : (high : Option Nat) → Text → Option (List Char)
  | none, [] => some []
  | some _, [] => none
  | none, .char c :: rest => (charsAfter? none rest).map (c :: ·)
  | some _, .char _ :: _ => none
  | none, .unit n :: rest =>
    if n < 0xd800 ∨ 0xe000 ≤ n then (charsAfter? none rest).map (Char.ofNat n :: ·)
    else if n < 0xdc00 then charsAfter? (some n) rest
    else none
  | some high, .unit n :: rest =>
    if 0xdc00 ≤ n ∧ n < 0xe000 then
      (charsAfter? none rest).map
        (Char.ofNat (0x10000 + (high - 0xd800) * 0x400 + (n - 0xdc00)) :: ·)
    else none

def Text.chars? (t : Text) : Option (List Char) := t.charsAfter? none

def Text.string? (t : Text) : Option String := t.chars?.map String.ofList

def Text.ofString (s : String) : Text := s.toList.map Piece.ofChar

def Text.plain? : Text → Option (List Char)
  | [] => some []
  | .char c :: rest => (plain? rest).map (c :: ·)
  | .unit _ :: _ => none

def natOfDigits? (ds : List Char) : Option Nat :=
  match ds with
  | ['0'] => some 0
  | c :: _ =>
    if ds.all Char.isDigit ∧ c ≠ '0' then some (Nat.ofDigitChars 10 ds 0) else none
  | [] => none

/-- The integer of a literal. A fraction, an exponent or a signed zero makes it something else. -/
def intOfLiteral? : List Char → Option Int
  | '-' :: ds =>
    match natOfDigits? ds with
    | some (n + 1) => some (Int.negSucc n)
    | _ => none
  | ds => (natOfDigits? ds).map Int.ofNat

def ofNat (n : Nat) : Json := number (Nat.toDigits 10 n)

def ofInt : Int → Json
  | Int.ofNat n => ofNat n
  | Int.negSucc n => number ('-' :: Nat.toDigits 10 (n + 1))

def ofString (s : String) : Json := text (Text.ofString s)
def ofList {α : Type} (f : α → Json) (xs : List α) : Json := array (xs.map f)

def record (members : List (String × Json)) : Json :=
  object (members.map fun m => (Text.ofString m.1, m.2))

theorem toNat_lt_of_needsEscape {c : Char} (h : needsEscape c = true) : c.toNat < 0xd800 := by
  rw [needsEscape, Bool.or_eq_true, Bool.or_eq_true, decide_eq_true_eq, decide_eq_true_eq,
    decide_eq_true_eq] at h
  rcases h with (rfl | rfl) | h
  · decide
  · decide
  · omega

theorem Text.chars?_map_ofChar (cs : List Char) : Text.chars? (cs.map Piece.ofChar) = some cs := by
  induction cs with
  | nil => rfl
  | cons c rest ih =>
    rw [chars?] at ih
    rw [List.map_cons, Piece.ofChar, chars?]
    split
    case isTrue h => simp [charsAfter?, toNat_lt_of_needsEscape h, ih]
    case isFalse => simp [charsAfter?, ih]

theorem Text.string?_ofString (s : String) : (Text.ofString s).string? = some s := by
  simp [Text.string?, Text.ofString, Text.chars?_map_ofChar]

end Json

end Patchbay
