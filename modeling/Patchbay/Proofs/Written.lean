import Mathlib.Data.List.TakeWhile
import Patchbay.Json.Printer
import Patchbay.Json.Reader

/-!
# Values that are read back

A value is written so that reading finds it again, whatever stands behind it, as long as that does not
go on with a number.
-/

namespace Patchbay.Json

variable {c : Char} {cs ds rest : List Char} {n depth fuel : Nat} {t : Text} {j : Json}

/-! ## Numbers -/

/-- What does not go on with a number. -/
def Ends (rest : List Char) : Prop :=
  ∀ c ∈ rest.head?, c.isDigit = false ∧ c ≠ '.' ∧ isExponentMark c = false

theorem ends_nil : Ends [] := by simp [Ends]

theorem ends_cons (digit : c.isDigit = false) (point : c ≠ '.') (mark : isExponentMark c = false)
    (cs : List Char) : Ends (c :: cs) := by
  simp [Ends, digit, point, mark]

theorem readDigits_append (digits : ∀ c ∈ ds, c.isDigit = true) (some_ : ds ≠ [])
    (ends : Ends rest) : readDigits (ds ++ rest) = some (ds, rest) := by
  have stop : rest.takeWhile Char.isDigit = [] ∧ rest.dropWhile Char.isDigit = rest := by
    cases rest with
    | nil => exact ⟨rfl, rfl⟩
    | cons c cs =>
      have digit := (ends c rfl).1
      simp [digit]
  rw [readDigits, List.takeWhile_append_of_pos digits, List.dropWhile_append_of_pos digits, stop.1,
    stop.2, List.append_nil]
  cases ds with
  | nil => exact absurd rfl some_
  | cons d ds => rfl

theorem isDigit_toDigits (n : Nat) : ∀ c ∈ Nat.toDigits 10 n, c.isDigit = true :=
  fun _ mem => Nat.isDigit_of_mem_toDigits (by decide) (by decide) mem

theorem exists_toDigits (n : Nat) : ∃ c cs, Nat.toDigits 10 n = c :: cs ∧ c.isDigit = true ∧
    (c = '0' → n = 0) := by
  induction n using Nat.strongRecOn with
  | ind n ih =>
    rw [Nat.toDigits_eq_if (by decide)]
    split
    · next small =>
      have all : ∀ k : Fin 10, (Nat.digitChar k).isDigit = true ∧ (Nat.digitChar k = '0' → k = 0) := by
        decide +kernel
      obtain ⟨digit, zero⟩ := all ⟨n, small⟩
      exact ⟨_, _, rfl, digit, fun same => congrArg Fin.val (zero same)⟩
    · next large =>
      obtain ⟨c, cs, written, digit, zero⟩ := ih (n / 10) (by omega)
      refine ⟨c, cs ++ [Nat.digitChar (n % 10)], by rw [written, List.cons_append], digit, ?_⟩
      intro same
      have none := zero same
      omega

theorem readWhole_toDigits (n : Nat) (ends : Ends rest) :
    readWhole (Nat.toDigits 10 n ++ rest) = some (Nat.toDigits 10 n, rest) := by
  by_cases zero : n = 0
  · subst zero
    have written : Nat.toDigits 10 0 = ['0'] := rfl
    cases rest with
    | nil => rfl
    | cons c cs =>
      have digit := (ends c rfl).1
      simp [written, readWhole, digit]
  · obtain ⟨c, cs, written, -, leading⟩ := exists_toDigits n
    have nonzero : c ≠ '0' := fun same => zero (leading same)
    have read := readDigits_append (isDigit_toDigits n) Nat.toDigits_ne_nil ends
    rw [written, List.cons_append] at read ⊢
    simpa [readWhole, nonzero] using read

theorem readFraction_of_ends (ends : Ends rest) : readFraction rest = some ([], rest) := by
  cases rest with
  | nil => rfl
  | cons c cs =>
    have point := (ends c rfl).2.1
    simp [readFraction, point]

theorem readExponent_of_ends (ends : Ends rest) : readExponent rest = some ([], rest) := by
  cases rest with
  | nil => rfl
  | cons c cs =>
    have mark := (ends c rfl).2.2
    simp [readExponent, mark]

theorem readNumber_toDigits (n : Nat) (ends : Ends rest) :
    readNumber (Nat.toDigits 10 n ++ rest) = some (Nat.toDigits 10 n, rest) := by
  obtain ⟨c, cs, written, digit, -⟩ := exists_toDigits n
  have positive : c ≠ '-' := by
    rintro rfl
    exact absurd digit (by decide)
  have whole := readWhole_toDigits n ends
  rw [written, List.cons_append] at whole ⊢
  simp [readNumber, positive, whole, readFraction_of_ends ends, readExponent_of_ends ends]

theorem readNumber_negative (n : Nat) (ends : Ends rest) :
    readNumber ('-' :: (Nat.toDigits 10 n ++ rest)) = some ('-' :: Nat.toDigits 10 n, rest) := by
  simp [readNumber, readWhole_toDigits n ends, readFraction_of_ends ends, readExponent_of_ends ends]

/-! ## Strings -/

def Piece.IsWritten : Piece → Prop
  | char c => needsEscape c = false
  | unit n => n < 65536

def Text.IsWritten (t : Text) : Prop := ∀ x ∈ t, x.IsWritten

theorem hexValue?_hexDigit (n : Nat) : hexValue? (hexDigit n) = some (n % 16) := by
  have all : ∀ k : Fin 16, hexValue? (Nat.digitChar k) = some (k : Nat) := by decide +kernel
  exact all ⟨n % 16, Nat.mod_lt n (by decide)⟩

theorem readText_print {x : Piece} (written : x.IsWritten) (cs : List Char) :
    readText (x.print ++ cs) = (readText cs).map fun (t, cs) => (x :: t, cs) := by
  cases x with
  | char c =>
    have plain : needsEscape c = false := written
    simp only [needsEscape, Bool.or_eq_false_iff, decide_eq_false_iff_not] at plain
    obtain ⟨⟨quote, backslash⟩, control⟩ := plain
    rw [Piece.print, List.singleton_append]
    cases read : readText cs <;> simp [readText, backslash, control, read]
  | unit n =>
    have small : n < 65536 := written
    rw [Piece.print]
    unfold escape
    split
    case h_8 =>
      have value : ((n / 4096 % 16 * 16 + n / 256 % 16) * 16 + n / 16 % 16) * 16 + n % 16 = n := by
        omega
      cases read : readText cs <;>
        simp [readText, hexUnit?, hexValue?_hexDigit, value, read]
    all_goals
      cases read : readText cs <;> simp [readText, shortEscape?, read]

theorem readText_text (written : t.IsWritten) (rest : List Char) :
    readText (t.flatMap Piece.print ++ '"' :: rest) = some (t, rest) := by
  induction t with
  | nil => rfl
  | cons x t ih =>
    obtain ⟨first, others⟩ := List.forall_mem_cons.1 written
    rw [List.flatMap_cons, List.append_assoc, readText_print first, ih others]
    rfl

/-! ## Values -/

/-- The values whose written form reading finds again: integers, and texts that escape what they
must and no unit above sixteen bits. -/
inductive Written : Json → Prop
  | null : Written null
  | bool (b : Bool) : Written (bool b)
  | int (z : Int) : Written (ofInt z)
  | text {t : Text} (pieces : t.IsWritten) : Written (text t)
  | array {xs : List Json} (elements : ∀ x ∈ xs, Written x) : Written (array xs)
  | object {ms : List (Text × Json)} (keys : ∀ m ∈ ms, m.1.IsWritten)
      (values : ∀ m ∈ ms, Written m.2) : Written (object ms)

/-- Reading finds the value again at every depth, with what stands behind it left over. -/
def Recovered (j : Json) : Prop :=
  ∀ depth fuel rest, (print depth j).length ≤ fuel → Ends rest →
    readValue fuel (print depth j ++ rest) = some (j, rest)

theorem skipBlanks_newline (depth : Nat) (cs : List Char) :
    skipBlanks (newline depth ++ cs) = skipBlanks cs := by
  have blanks : ∀ c ∈ newline depth, isBlank c = true := by
    intro c mem
    rcases List.mem_cons.1 mem with rfl | mem
    · rfl
    · rw [(List.mem_replicate.1 mem).2]
      rfl
  exact List.dropWhile_append_of_pos blanks

theorem readValue_congr (fuel : Nat) {cs cs' : List Char} (same : skipBlanks cs = skipBlanks cs') :
    readValue fuel cs = readValue fuel cs' := by
  cases fuel with
  | zero => simp only [readValue]
  | succ fuel => simp only [readValue, same]

theorem readValue_newline (depth fuel : Nat) (cs : List Char) :
    readValue fuel (newline depth ++ cs) = readValue fuel cs :=
  readValue_congr fuel (skipBlanks_newline depth cs)

theorem readValue_blank (fuel : Nat) (cs : List Char) :
    readValue fuel (' ' :: cs) = readValue fuel cs :=
  readValue_congr fuel rfl

theorem skipBlanks_newline_text (depth : Nat) (t : Text) (cs : List Char) :
    skipBlanks (newline depth ++ (t.print ++ cs)) = t.print ++ cs :=
  skipBlanks_newline depth (t.print ++ cs)

theorem ends_newline (depth : Nat) (cs : List Char) : Ends (newline depth ++ cs) :=
  ends_cons (by decide) (by decide) (by decide) _

theorem print_ofNat (depth n : Nat) : print depth (ofNat n) = Nat.toDigits 10 n := by
  simp only [ofNat, print]

theorem isBlank_of_isDigit (digit : c.isDigit = true) : isBlank c = false := by
  simp only [isBlank, Bool.or_eq_false_iff, decide_eq_false_iff_not]
  refine ⟨⟨⟨?_, ?_⟩, ?_⟩, ?_⟩ <;>
  · rintro rfl
    exact absurd digit (by decide)

theorem Written.head (written : j.Written) (depth : Nat) :
    ∃ c cs, print depth j = c :: cs ∧ isBlank c = false ∧ c ≠ ']' := by
  cases written with
  | null => exact ⟨_, _, by simp only [print]; rfl, by decide, by decide⟩
  | bool b => cases b <;> exact ⟨_, _, by simp only [print]; rfl, by decide, by decide⟩
  | int z =>
    cases z with
    | ofNat n =>
      obtain ⟨c, cs, written, digit, -⟩ := exists_toDigits n
      refine ⟨c, cs, by rw [ofInt, print_ofNat, written], isBlank_of_isDigit digit, ?_⟩
      rintro rfl
      exact absurd digit (by decide)
    | negSucc n => exact ⟨_, _, by simp only [ofInt, print]; rfl, by decide, by decide⟩
  | text pieces => exact ⟨_, _, by simp only [print, Text.print]; rfl, by decide, by decide⟩
  | @array xs elements =>
    cases xs <;> exact ⟨_, _, by simp only [print]; rfl, by decide, by decide⟩
  | @object ms keys values =>
    cases ms <;> exact ⟨_, _, by simp only [print]; rfl, by decide, by decide⟩

theorem ends_of_skipBlanks (blank : skipBlanks cs = []) : Ends cs := by
  cases cs with
  | nil => exact ends_nil
  | cons c cs =>
    have first : isBlank c = true := List.dropWhile_eq_nil_iff.1 blank c List.mem_cons_self
    simp only [isBlank, Bool.or_eq_true, decide_eq_true_eq] at first
    rcases first with ((rfl | rfl) | rfl) | rfl <;>
      exact ends_cons (by decide) (by decide) (by decide) _

theorem skipBlanks_cons (blank : isBlank c = false) (cs : List Char) :
    skipBlanks (c :: cs) = c :: cs := by
  simp [skipBlanks, blank]

theorem readValue_number (blank : isBlank c = false) (start : c.isDigit = true ∨ c = '-') :
    readValue (fuel + 1) (c :: cs) = (readNumber (c :: cs)).map fun (ds, cs) => (number ds, cs) := by
  have differs (d : Char) (other : d.isDigit = false ∧ d ≠ '-') : c ≠ d := by
    rintro rfl
    simp [other] at start
  simp [readValue, skipBlanks, blank, differs '{' (by decide), differs '[' (by decide),
    differs '"' (by decide), differs 'n' (by decide), differs 't' (by decide),
    differs 'f' (by decide)]

theorem Recovered.intro (written : j.Written) (read : ∀ depth fuel rest,
    (print depth j).length ≤ fuel + 1 → Ends rest →
      readValue (fuel + 1) (print depth j ++ rest) = some (j, rest)) : Recovered j := by
  intro depth fuel rest enough ends
  obtain ⟨c, cs, first, -⟩ := written.head depth
  have some_ : (print depth j).length ≠ 0 := by simp [first]
  obtain ⟨fuel, rfl⟩ := Nat.exists_eq_add_one_of_ne_zero (n := fuel) (by omega)
  exact read depth fuel rest enough ends

theorem Recovered.int (z : Int) : Recovered (ofInt z) := by
  refine .intro (.int z) fun depth fuel rest _ ends => ?_
  cases z with
  | ofNat n =>
    have read := readNumber_toDigits n ends
    obtain ⟨c, cs, written, digit, -⟩ := exists_toDigits n
    rw [written, List.cons_append] at read
    rw [ofInt, print_ofNat, written, List.cons_append,
      readValue_number (isBlank_of_isDigit digit) (.inl digit), read, ofNat, written]
    rfl
  | negSucc n =>
    rw [ofInt, print, List.cons_append, readValue_number rfl (.inr rfl),
      readNumber_negative (n + 1) ends]
    rfl

theorem Recovered.text (pieces : t.IsWritten) : Recovered (text t) := by
  refine .intro (.text pieces) fun depth fuel rest _ _ => ?_
  have read := readText_text pieces rest
  simp [print, readValue, skipBlanks, isBlank, Text.print, read]

section Lists

variable {x v : Json} {xs : List Json} {k : Text} {ms : List (Text × Json)}
  {body tail next : List Char}

theorem readElements_last (value : readValue fuel cs = some (x, tail))
    (close : skipBlanks tail = ']' :: rest) : readElements (fuel + 1) cs = some ([x], rest) := by
  rw [readElements, value]
  simp [close]

theorem readElements_cons (value : readValue fuel cs = some (x, tail))
    (comma : skipBlanks tail = ',' :: next) (others : readElements fuel next = some (xs, rest)) :
    readElements (fuel + 1) cs = some (x :: xs, rest) := by
  rw [readElements, value]
  simp [comma, others]

theorem readElements_print (depth outer fuel : Nat) (read : ∀ y ∈ x :: xs, Recovered y)
    (rest : List Char)
    (enough : (print depth x).length + (printElements depth xs).length < fuel) :
    readElements fuel (newline depth ++ (print depth x ++ (printElements depth xs ++
      (newline outer ++ ']' :: rest)))) = some (x :: xs, rest) := by
  induction xs generalizing x fuel with
  | nil =>
    obtain ⟨fuel, rfl⟩ := Nat.exists_eq_add_one_of_ne_zero (Nat.ne_zero_of_lt enough)
    refine readElements_last ?_ (skipBlanks_newline outer (']' :: rest))
    rw [readValue_newline, printElements, List.nil_append]
    exact read x (List.mem_singleton_self x) depth fuel _ (Nat.le_of_lt_succ enough)
      (ends_newline _ _)
  | cons x' xs ih =>
    obtain ⟨fuel, rfl⟩ := Nat.exists_eq_add_one_of_ne_zero (Nat.ne_zero_of_lt enough)
    obtain ⟨first, others⟩ := List.forall_mem_cons.1 read
    simp only [printElements, List.length_cons, List.length_append] at enough
    have others := ih fuel others (by omega)
    refine readElements_cons ?_ (skipBlanks_cons (c := ',') rfl _) others
    rw [readValue_newline, printElements, List.cons_append, List.append_assoc, List.append_assoc]
    exact first depth fuel _ (by omega) (ends_cons (by decide) (by decide) (by decide) _)

theorem readMembers_last (start : skipBlanks cs = k.print ++ ':' :: body) (key : k.IsWritten)
    (value : readValue fuel body = some (v, tail)) (close : skipBlanks tail = '}' :: rest) :
    readMembers (fuel + 1) cs = some ([(k, v)], rest) := by
  have colon : skipBlanks (':' :: body) = ':' :: body := rfl
  rw [readMembers, start]
  simp [Text.print, after?, readText_text key, colon, value, close]

theorem readMembers_cons (start : skipBlanks cs = k.print ++ ':' :: body) (key : k.IsWritten)
    (value : readValue fuel body = some (v, tail))
    (comma : skipBlanks tail = ',' :: next) (others : readMembers fuel next = some (ms, rest)) :
    readMembers (fuel + 1) cs = some ((k, v) :: ms, rest) := by
  have colon : skipBlanks (':' :: body) = ':' :: body := rfl
  rw [readMembers, start]
  simp [Text.print, after?, readText_text key, colon, value, comma, others]

theorem readMembers_print (depth outer fuel : Nat) (keys : ∀ m ∈ (k, v) :: ms, m.1.IsWritten)
    (read : ∀ m ∈ (k, v) :: ms, Recovered m.2) (rest : List Char)
    (enough : (print depth v).length + (printMembers depth ms).length < fuel) :
    readMembers fuel (newline depth ++ (k.print ++ (':' :: ' ' :: (print depth v ++
      (printMembers depth ms ++ (newline outer ++ '}' :: rest)))))) = some ((k, v) :: ms, rest) := by
  induction ms generalizing k v fuel with
  | nil =>
    obtain ⟨fuel, rfl⟩ := Nat.exists_eq_add_one_of_ne_zero (Nat.ne_zero_of_lt enough)
    refine readMembers_last (skipBlanks_newline_text depth k _) (keys _ (List.mem_singleton_self _))
      ?_ (skipBlanks_newline outer ('}' :: rest))
    rw [readValue_blank, printMembers, List.nil_append]
    exact read _ (List.mem_singleton_self _) depth fuel _ (Nat.le_of_lt_succ enough)
      (ends_newline _ _)
  | cons m ms ih =>
    obtain ⟨fuel, rfl⟩ := Nat.exists_eq_add_one_of_ne_zero (Nat.ne_zero_of_lt enough)
    obtain ⟨k', v'⟩ := m
    obtain ⟨key, keys⟩ := List.forall_mem_cons.1 keys
    obtain ⟨first, others⟩ := List.forall_mem_cons.1 read
    simp only [printMembers, List.length_cons, List.length_append] at enough
    have others := ih fuel keys others (by omega)
    refine readMembers_cons (skipBlanks_newline_text depth k _) key ?_
      (skipBlanks_cons (c := ',') rfl _) others
    rw [readValue_blank, printMembers]
    simp only [List.cons_append, List.append_assoc]
    exact first depth fuel _ (by dsimp only; omega) (ends_cons (by decide) (by decide) (by decide) _)

end Lists

theorem Recovered.array {xs : List Json} (written : ∀ x ∈ xs, x.Written)
    (read : ∀ x ∈ xs, Recovered x) : Recovered (array xs) := by
  refine .intro (.array written) fun depth fuel rest enough _ => ?_
  cases xs with
  | nil => simp [print, readValue, skipBlanks, isBlank, after?]
  | cons x xs =>
    simp only [print, List.length_cons, List.length_append] at enough
    have elements := readElements_print (depth + 1) depth fuel read rest (by omega)
    obtain ⟨c, cs, first, blank, open_⟩ := (written x List.mem_cons_self).head (depth + 1)
    -- the list is not empty: its first element does not start with the closing bracket
    have filled (cs : List Char) :
        after? [']'] (skipBlanks (newline (depth + 1) ++ (print (depth + 1) x ++ cs))) = none := by
      rw [skipBlanks_newline, first]
      simp [skipBlanks, blank, after?, open_.symm]
    simp only [print, List.cons_append, List.append_assoc, List.nil_append]
    rw [readValue]
    simp [skipBlanks_cons (c := '[') rfl, filled, elements]

theorem Recovered.object {ms : List (Text × Json)} (keys : ∀ m ∈ ms, m.1.IsWritten)
    (written : ∀ m ∈ ms, Written m.2) (read : ∀ m ∈ ms, Recovered m.2) : Recovered (object ms) := by
  refine .intro (.object keys written) fun depth fuel rest enough _ => ?_
  cases ms with
  | nil => simp [print, readValue, skipBlanks, isBlank, after?]
  | cons m ms =>
    obtain ⟨k, v⟩ := m
    simp only [print, List.length_cons, List.length_append] at enough
    have members := readMembers_print (depth + 1) depth fuel keys read rest (by omega)
    have filled (cs : List Char) :
        after? ['}'] (skipBlanks (newline (depth + 1) ++ (k.print ++ cs))) = none := by
      rw [skipBlanks_newline_text]
      rfl
    simp only [print, List.cons_append, List.append_assoc, List.nil_append]
    rw [readValue]
    simp [skipBlanks_cons (c := '{') rfl, filled, members]

theorem Written.recovered (written : j.Written) : Recovered j := by
  induction written with
  | null =>
    refine .intro .null fun depth fuel rest _ _ => ?_
    simp [print, readValue, skipBlanks, isBlank, after?]
  | bool b =>
    refine .intro (.bool b) fun depth fuel rest _ _ => ?_
    cases b <;> simp [print, readValue, skipBlanks, isBlank, after?]
  | int z => exact .int z
  | text pieces => exact .text pieces
  | array written read => exact .array written read
  | object keys written read => exact .object keys written read

/-- A written value is read back from its text, also with a line break behind it. -/
theorem Written.parse?_pretty (written : j.Written) (final : String)
    (blank : skipBlanks final.toList = []) : parse? (j.pretty ++ final) = some j := by
  have text : (j.pretty ++ final).toList = print 0 j ++ final.toList := by
    simp [pretty]
  have enough : (print 0 j).length ≤ (print 0 j ++ final.toList).length + 1 := by
    rw [List.length_append]
    omega
  rw [parse?, text, written.recovered 0 _ _ enough (ends_of_skipBlanks blank)]
  exact if_pos blank

end Patchbay.Json
