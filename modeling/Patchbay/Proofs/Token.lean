import Mathlib.Algebra.GroupWithZero.Nat
import Mathlib.Algebra.Ring.Int.Defs
import Mathlib.Tactic.Common
import Patchbay.Proofs.Anchor

/-!
# Tokens and plans

Every plan has a token from which it is read back, and a token that can be read is one of a plan. Of
the tokens of a plan the written one is the shortest.
-/

namespace Patchbay

/-! ## Base64 -/

namespace Base64

variable {a b c d : Char} {bs : List UInt8} {cs rest : List Char} {n : Nat}

theorem digit_of_value? (read : value? c = some n) : n < 64 ∧ digit n = c := by
  have ascii : c.toNat < 128 := by
    by_contra far
    have plus : c ≠ '+' := by
      rintro rfl
      exact far (by decide)
    have slash : c ≠ '/' := by
      rintro rfl
      exact far (by decide)
    have none : value? c = none := by
      simp only [value?]
      rw [if_neg (by omega), if_neg (by omega), if_neg (by omega), if_neg plus, if_neg slash]
    exact absurd (none.symm.trans read) (by simp)
  have all : ∀ k : Fin 128, (value? (Char.ofNat k)).all
      (fun n => n < 64 && digit n == Char.ofNat k) = true := by decide +kernel
  have here := all ⟨c.toNat, ascii⟩
  simpa only [Char.ofNat_toNat, read, Option.all_some, Bool.and_eq_true, decide_eq_true_eq,
    beq_iff_eq] using here

theorem value?_pad : value? '=' = none := by decide

theorem digit_ne_pad (small : n < 64) : digit n ≠ '=' := by
  intro pad
  have read := value?_digit small
  rw [pad, value?_pad] at read
  exact absurd read (by simp)

@[simp] theorem byte_toNat (x : UInt8) : byte x.toNat = x := UInt8.ofNat_toNat

theorem toNat_byte {n : Nat} (small : n < 256) : (byte n).toNat = n := by
  simp [byte, Nat.mod_eq_of_lt small]

theorem decodeGroup_eq_some_iff : decodeGroup a b c d = some bs ↔ ∃ p q r s,
    value? a = some p ∧ value? b = some q ∧ value? c = some r ∧ value? d = some s ∧
      [byte (p * 4 + q / 16), byte (q % 16 * 16 + r / 4), byte (r % 4 * 64 + s)] = bs := by
  simp only [decodeGroup, Option.bind_eq_bind, Option.bind_eq_some_iff, Option.pure_def,
    Option.some.injEq, exists_and_left]

theorem decodeTail_pad_eq_some_iff : decodeTail a b '=' = some bs ↔ ∃ p q,
    value? a = some p ∧ value? b = some q ∧ q % 16 = 0 ∧ [byte (p * 4 + q / 16)] = bs := by
  simp only [decodeTail, Option.bind_eq_bind, Option.bind_eq_some_iff, if_true, Option.pure_def,
    Option.ite_none_right_eq_some, Option.some.injEq, exists_and_left]

theorem decodeTail_eq_some_iff (digit : c ≠ '=') : decodeTail a b c = some bs ↔ ∃ p q r,
    value? a = some p ∧ value? b = some q ∧ value? c = some r ∧ r % 4 = 0 ∧
      [byte (p * 4 + q / 16), byte (q % 16 * 16 + r / 4)] = bs := by
  simp only [decodeTail, Option.bind_eq_bind, Option.bind_eq_some_iff, digit, if_false,
    Option.pure_def, Option.ite_none_right_eq_some, Option.some.injEq, exists_and_left]

theorem decode_tail (a b c : Char) : decode [a, b, c, '='] = decodeTail a b c := by
  rw [decode, if_pos ⟨rfl, rfl⟩]

theorem decode_group (digit : d ≠ '=') (rest : List Char) : decode (a :: b :: c :: d :: rest)
    = (decodeGroup a b c d).bind fun bytes => (decode rest).bind fun more => some (bytes ++ more) := by
  rw [decode, if_neg fun h => digit h.1]
  rfl

theorem decode_encode (bs : List UInt8) : decode (encode bs) = some bs := by
  fun_induction encode bs with
  | case1 => rfl
  | case2 a =>
    have ha := a.toNat_lt
    have first : a.toNat / 4 * 4 + a.toNat % 4 * 16 / 16 = a.toNat := by omega
    rw [decode_tail, decodeTail_pad_eq_some_iff]
    refine ⟨_, _, value?_digit (by omega), value?_digit (by omega), by omega, ?_⟩
    rw [first, byte_toNat]
  | case3 a b =>
    have ha := a.toNat_lt
    have hb := b.toNat_lt
    have first : a.toNat / 4 * 4 + (a.toNat % 4 * 16 + b.toNat / 16) / 16 = a.toNat := by omega
    have second : (a.toNat % 4 * 16 + b.toNat / 16) % 16 * 16 + b.toNat % 16 * 4 / 4 = b.toNat := by
      omega
    rw [decode_tail, decodeTail_eq_some_iff (digit_ne_pad (by omega))]
    refine ⟨_, _, _, value?_digit (by omega), value?_digit (by omega), value?_digit (by omega),
      by omega, ?_⟩
    rw [first, second, byte_toNat, byte_toNat]
  | case4 a b c more ih =>
    have ha := a.toNat_lt
    have hb := b.toNat_lt
    have hc := c.toNat_lt
    have first : a.toNat / 4 * 4 + (a.toNat % 4 * 16 + b.toNat / 16) / 16 = a.toNat := by omega
    have second : (a.toNat % 4 * 16 + b.toNat / 16) % 16 * 16
        + (b.toNat % 16 * 4 + c.toNat / 64) / 4 = b.toNat := by omega
    have third : (b.toNat % 16 * 4 + c.toNat / 64) % 4 * 64 + c.toNat % 64 = c.toNat := by omega
    have group : decodeGroup (digit (a.toNat / 4)) (digit (a.toNat % 4 * 16 + b.toNat / 16))
        (digit (b.toNat % 16 * 4 + c.toNat / 64)) (digit (c.toNat % 64)) = some [a, b, c] := by
      rw [decodeGroup_eq_some_iff]
      refine ⟨_, _, _, _, value?_digit (by omega), value?_digit (by omega),
        value?_digit (by omega), value?_digit (by omega), ?_⟩
      rw [first, second, third, byte_toNat, byte_toNat, byte_toNat]
    rw [decode_group (digit_ne_pad (by omega)), group, ih]
    rfl

theorem encode_of_decode (read : decode cs = some bs) : encode bs = cs := by
  fun_induction decode cs generalizing bs with
  | case1 =>
    obtain rfl := Option.some.inj read
    rfl
  | case2 a b c d rest last =>
    obtain ⟨rfl, rfl⟩ := last
    by_cases pad : c = '='
    · subst pad
      obtain ⟨p, q, ha, hb, zero, rfl⟩ := decodeTail_pad_eq_some_iff.1 read
      obtain ⟨hp, rfl⟩ := digit_of_value? ha
      obtain ⟨hq, rfl⟩ := digit_of_value? hb
      have first : (p * 4 + q / 16) / 4 = p := by omega
      have second : (p * 4 + q / 16) % 4 * 16 = q := by omega
      rw [encode, toNat_byte (by omega), first, second]
    · obtain ⟨p, q, r, ha, hb, hc, zero, rfl⟩ := (decodeTail_eq_some_iff pad).1 read
      obtain ⟨hp, rfl⟩ := digit_of_value? ha
      obtain ⟨hq, rfl⟩ := digit_of_value? hb
      obtain ⟨hr, rfl⟩ := digit_of_value? hc
      have first : (p * 4 + q / 16) / 4 = p := by omega
      have second : (p * 4 + q / 16) % 4 * 16 + (q % 16 * 16 + r / 4) / 16 = q := by omega
      have third : (q % 16 * 16 + r / 4) % 16 * 4 = r := by omega
      rw [encode, toNat_byte (by omega), toNat_byte (by omega), first, second, third]
  | case3 a b c d rest more ih =>
    simp only [Option.bind_eq_bind, Option.bind_eq_some_iff, Option.pure_def,
      Option.some.injEq] at read
    obtain ⟨group, hgroup, others, hrest, rfl⟩ := read
    obtain ⟨p, q, r, s, ha, hb, hc, hd, rfl⟩ := decodeGroup_eq_some_iff.1 hgroup
    obtain ⟨hp, rfl⟩ := digit_of_value? ha
    obtain ⟨hq, rfl⟩ := digit_of_value? hb
    obtain ⟨hr, rfl⟩ := digit_of_value? hc
    obtain ⟨hs, rfl⟩ := digit_of_value? hd
    have first : (p * 4 + q / 16) / 4 = p := by omega
    have second : (p * 4 + q / 16) % 4 * 16 + (q % 16 * 16 + r / 4) / 16 = q := by omega
    have third : (q % 16 * 16 + r / 4) % 16 * 4 + (r % 4 * 64 + s) / 64 = r := by omega
    have fourth : (r % 4 * 64 + s) % 64 = s := by omega
    rw [List.cons_append, List.cons_append, List.cons_append, List.nil_append, encode,
      toNat_byte (by omega), toNat_byte (by omega), toNat_byte (by omega), first, second, third,
      fourth, ih hrest]
  | case4 => exact absurd read (by simp)

theorem length_encode (bs : List UInt8) : (encode bs).length = (bs.length + 2) / 3 * 4 := by
  fun_induction encode bs with
  | case1 => rfl
  | case2 => simp
  | case3 => simp
  | case4 a b c rest ih =>
    simp only [List.length_cons, ih]
    omega

theorem isBlank_digit (small : n < 64) : Text.isBlank (digit n) = false := by
  have all : ∀ k : Fin 64, Text.isBlank (digit k) = false := by decide +kernel
  exact all ⟨n, small⟩

theorem isBlank_encode (bs : List UInt8) : ∀ c ∈ encode bs, Text.isBlank c = false := by
  have pad : Text.isBlank '=' = false := by decide
  fun_induction encode bs with
  | case1 => simp
  | case2 a =>
    have ha := a.toNat_lt
    simp only [List.forall_mem_cons, pad, List.not_mem_nil, false_imp_iff, forall_const, and_true]
    exact ⟨isBlank_digit (by omega), isBlank_digit (by omega)⟩
  | case3 a b =>
    have ha := a.toNat_lt
    have hb := b.toNat_lt
    simp only [List.forall_mem_cons, pad, List.not_mem_nil, false_imp_iff, forall_const, and_true]
    exact ⟨isBlank_digit (by omega), isBlank_digit (by omega), isBlank_digit (by omega)⟩
  | case4 a b c more ih =>
    have ha := a.toNat_lt
    have hb := b.toNat_lt
    have hc := c.toNat_lt
    simp only [List.forall_mem_cons]
    exact ⟨isBlank_digit (by omega), isBlank_digit (by omega), isBlank_digit (by omega),
      isBlank_digit (by omega), ih⟩

end Base64

theorem Text.trim_of_forall {cs : List Char} (full : ∀ c ∈ cs, isBlank c = false) : trim cs = cs := by
  have keep {ds : List Char} (full : ∀ c ∈ ds, isBlank c = false) : ds.dropWhile isBlank = ds := by
    cases ds with
    | nil => rfl
    | cons d ds => simp [full d List.mem_cons_self]
  have full' : ∀ c ∈ cs.reverse, isBlank c = false := fun c hc => full c (List.mem_reverse.1 hc)
  rw [trim, keep full, keep full', List.reverse_reverse]

theorem Base64.decode_trim_encode (bs : List UInt8) :
    decode (Text.trim (String.ofList (encode bs)).toList) = some bs := by
  rw [String.toList_ofList, Text.trim_of_forall (isBlank_encode bs), decode_encode]

/-! ## Numbers as bytes -/

namespace Varint

variable {bs rest : List UInt8} {n width widest : Nat} {z : Int}

theorem mem_widths {mark : UInt8} : (mark, width) ∈ widths ↔
    mark = 251 ∧ width = 2 ∨ mark = 252 ∧ width = 4 ∨ mark = 253 ∧ width = 8
      ∨ mark = 254 ∧ width = 16 := by
  simp [widths]

theorem lookup_widths {mark : UInt8} : widths.lookup mark = some width ↔ (mark, width) ∈ widths := by
  constructor
  · intro found
    obtain ⟨front, back, split, -⟩ := List.lookup_eq_some_iff.1 found
    rw [split]
    exact List.mem_append_right _ List.mem_cons_self
  · intro known
    rcases mem_widths.1 known with ⟨rfl, rfl⟩ | ⟨rfl, rfl⟩ | ⟨rfl, rfl⟩ | ⟨rfl, rfl⟩ <;> rfl

theorem read_of_mark {mark : UInt8} (known : (mark, width) ∈ widths) (narrow : width ≤ widest)
    (bs : List UInt8) : read widest (mark :: bs) = readLittleEndian width bs := by
  have high : ¬mark < 251 := by
    rcases mem_widths.1 known with ⟨rfl, -⟩ | ⟨rfl, -⟩ | ⟨rfl, -⟩ | ⟨rfl, -⟩ <;> decide
  rw [read, if_neg high, lookup_widths.2 known]
  exact if_pos narrow

theorem write_cases (small : n < 256 ^ 16) : n < 251 ∧ write n = [UInt8.ofNat n] ∨
    ∃ mark width, (mark, width) ∈ widths ∧ n < 256 ^ width ∧
      write n = mark :: littleEndian width n := by
  unfold write
  split
  · next low => exact Or.inl ⟨low, rfl⟩
  split
  · next low => exact Or.inr ⟨251, 2, by decide, low, rfl⟩
  split
  · next low => exact Or.inr ⟨252, 4, by decide, low, rfl⟩
  split
  · next low => exact Or.inr ⟨253, 8, by decide, low, rfl⟩
  · exact Or.inr ⟨254, 16, by decide, small, rfl⟩

theorem length_write_le {mark : UInt8} (known : (mark, width) ∈ widths) (small : n < 256 ^ width) :
    (write n).length ≤ width + 1 := by
  have length : (write n).length = if n < 251 then 1 else if n < 65536 then 3
      else if n < 4294967296 then 5 else if n < 18446744073709551616 then 9 else 17 := by
    unfold write
    split_ifs <;> simp [length_littleEndian]
  rw [length]
  rcases mem_widths.1 known with ⟨-, rfl⟩ | ⟨-, rfl⟩ | ⟨-, rfl⟩ | ⟨-, rfl⟩ <;> split_ifs <;> omega

theorem read_write (small : n < 256 ^ 16) (narrow : (write n).length ≤ widest + 1)
    (rest : List UInt8) : read widest (write n ++ rest) = some (n, rest) := by
  rcases write_cases small with ⟨low, written⟩ | ⟨mark, width, known, small, written⟩
  · have byte : (UInt8.ofNat n).toNat = n := by simp; omega
    have low : UInt8.ofNat n < 251 := by
      rw [UInt8.lt_iff_toNat_lt, byte]
      exact low
    rw [written, List.singleton_append, read, if_pos low, byte]
  · rw [written, List.length_cons, length_littleEndian] at narrow
    rw [written, List.cons_append, read_of_mark known (by omega)]
    exact readLittleEndian_littleEndian rest small

theorem of_readLittleEndian (read : readLittleEndian width bs = some (n, rest)) :
    n < 256 ^ width ∧ width + rest.length = bs.length := by
  induction width generalizing bs n with
  | zero =>
    obtain ⟨rfl, rfl⟩ := Prod.mk.inj (Option.some.inj read)
    simp
  | succ width ih =>
    cases bs with
    | nil => exact absurd read (by simp [readLittleEndian])
    | cons b bs =>
      obtain ⟨⟨m, more⟩, lower, same⟩ := Option.map_eq_some_iff.1 read
      obtain ⟨rfl, rfl⟩ := Prod.mk.inj same
      obtain ⟨small, length⟩ := ih lower
      have hb := b.toNat_lt
      have power : 256 ^ (width + 1) = 256 ^ width * 256 := pow_succ 256 width
      rw [List.length_cons]
      omega

/-- What is read is no wider than what may be read, and no shorter form of it exists than the one that
is written. -/
theorem of_read (wide : 1 ≤ widest) (read : read widest bs = some (n, rest)) :
    n < 256 ^ widest ∧ (write n).length + rest.length ≤ bs.length := by
  cases bs with
  | nil => exact absurd read (by simp [Varint.read])
  | cons b bs =>
    rw [Varint.read] at read
    split at read
    · next low =>
      obtain ⟨rfl, rfl⟩ := Prod.mk.inj (Option.some.inj read)
      have low : b.toNat < 251 := by simpa [UInt8.lt_iff_toNat_lt] using low
      have power : 256 ^ 1 ≤ 256 ^ widest := Nat.pow_le_pow_right (by decide) wide
      refine ⟨by omega, ?_⟩
      simp [write, low]
      omega
    · split at read
      · next width found =>
        split at read
        · next narrow =>
          obtain ⟨small, length⟩ := of_readLittleEndian read
          refine ⟨Nat.lt_of_lt_of_le small (Nat.pow_le_pow_right (by decide) narrow), ?_⟩
          have short := length_write_le (lookup_widths.1 found) small
          rw [List.length_cons]
          omega
        · exact absurd read (by simp)
      · exact absurd read (by simp)

theorem fold_lt (low : -2 ^ 31 ≤ z) (high : z < 2 ^ 31) : fold z < 256 ^ 4 := by
  unfold fold
  split <;> omega

theorem unfold_bounds (small : n < 256 ^ 4) : -2 ^ 31 ≤ unfold n ∧ unfold n < 2 ^ 31 := by
  unfold Varint.unfold
  split <;> omega

end Varint

/-! ## Points as bytes -/

/-- Both coordinates are numbers of 32 bits. -/
def Point.Fits (p : Point) : Prop := (-2 ^ 31 ≤ p.x ∧ p.x < 2 ^ 31) ∧ -2 ^ 31 ≤ p.y ∧ p.y < 2 ^ 31

instance Point.decidableFits (p : Point) : Decidable p.Fits := inferInstanceAs (Decidable (_ ∧ _))

namespace Token

open Varint (write fold)

variable {ps : List Point} {p : Point} {z : Int} {bs rest : List UInt8} {token : String}

/-- What memory can hold: points of 32 bits, and no more of them than 64 bits count. -/
structure Fits (ps : List Point) : Prop where
  points : ∀ p ∈ ps, p.Fits
  length : ps.length < 2 ^ 64

theorem readCoordinate_write (low : -2 ^ 31 ≤ z) (high : z < 2 ^ 31) (rest : List UInt8) :
    readCoordinate (write (fold z) ++ rest) = some (z, rest) := by
  have small := Varint.fold_lt low high
  have narrow := Varint.length_write_le (by decide : (252, 4) ∈ Varint.widths) small
  rw [readCoordinate, Varint.read_write (Nat.lt_trans small (by decide)) narrow, Option.map_some]
  simp only [Varint.unfold_fold]

theorem of_readCoordinate (read : readCoordinate bs = some (z, rest)) :
    (-2 ^ 31 ≤ z ∧ z < 2 ^ 31) ∧ (write (fold z)).length + rest.length ≤ bs.length := by
  obtain ⟨⟨n, more⟩, hn, same⟩ := Option.map_eq_some_iff.1 read
  obtain ⟨rfl, rfl⟩ := Prod.mk.inj same
  obtain ⟨small, length⟩ := Varint.of_read (by decide) hn
  exact ⟨Varint.unfold_bounds small, by rwa [Varint.fold_unfold]⟩

theorem readPoint_pointBytes (fits : p.Fits) (rest : List UInt8) :
    readPoint (pointBytes p ++ rest) = some (p, rest) := by
  obtain ⟨⟨lowX, highX⟩, lowY, highY⟩ := fits
  rw [readPoint, pointBytes, List.append_assoc, readCoordinate_write lowX highX]
  simp only [Option.bind_eq_bind, Option.bind_some, readCoordinate_write lowY highY]
  rfl

theorem of_readPoint (read : readPoint bs = some (p, rest)) :
    p.Fits ∧ (pointBytes p).length + rest.length ≤ bs.length := by
  simp only [readPoint, Option.bind_eq_bind, Option.bind_eq_some_iff, Option.pure_def] at read
  obtain ⟨⟨x, more⟩, hx, ⟨y, more'⟩, hy, same⟩ := read
  obtain ⟨rfl, rfl⟩ := Prod.mk.inj (Option.some.inj same)
  obtain ⟨rangeX, lengthX⟩ := of_readCoordinate hx
  obtain ⟨rangeY, lengthY⟩ := of_readCoordinate hy
  dsimp only at lengthY
  refine ⟨⟨rangeX, rangeY⟩, ?_⟩
  simp only [pointBytes, List.length_append]
  omega

theorem readPoints_flatMap (fits : ∀ p ∈ ps, p.Fits) (rest : List UInt8) :
    readPoints ps.length (ps.flatMap pointBytes ++ rest) = some (ps, rest) := by
  induction ps with
  | nil => rfl
  | cons p ps ih =>
    obtain ⟨first, others⟩ := List.forall_mem_cons.1 fits
    rw [List.length_cons, readPoints, List.flatMap_cons, List.append_assoc,
      readPoint_pointBytes first]
    simp only [Option.bind_eq_bind, Option.bind_some, ih others]
    rfl

theorem of_readPoints {count : Nat} (read : readPoints count bs = some (ps, rest)) :
    ps.length = count ∧ (∀ p ∈ ps, p.Fits) ∧
      (ps.flatMap pointBytes).length + rest.length ≤ bs.length := by
  induction count generalizing bs ps with
  | zero =>
    obtain ⟨rfl, rfl⟩ := Prod.mk.inj (Option.some.inj read)
    simp
  | succ count ih =>
    simp only [readPoints, Option.bind_eq_bind, Option.bind_eq_some_iff, Option.pure_def] at read
    obtain ⟨⟨p, more⟩, hp, ⟨qs, more'⟩, hqs, same⟩ := read
    obtain ⟨rfl, rfl⟩ := Prod.mk.inj (Option.some.inj same)
    obtain ⟨first, lengthP⟩ := of_readPoint hp
    obtain ⟨count, others, lengthQs⟩ := ih hqs
    dsimp only at lengthQs
    refine ⟨by rw [List.length_cons, count], List.forall_mem_cons.2 ⟨first, others⟩, ?_⟩
    simp only [List.flatMap_cons, List.length_append]
    omega

theorem readBytes_bytes (fits : Fits ps) : readBytes (bytes ps) = some (ps, []) := by
  have small : ps.length < 256 ^ 8 := fits.length
  have narrow := Varint.length_write_le (by decide : (253, 8) ∈ Varint.widths) small
  have points := readPoints_flatMap fits.points []
  rw [List.append_nil] at points
  rw [readBytes, bytes, Varint.read_write (Nat.lt_trans small (by decide)) narrow]
  exact points

theorem of_readBytes (read : readBytes bs = some (ps, rest)) :
    Fits ps ∧ (bytes ps).length + rest.length ≤ bs.length := by
  simp only [readBytes, Option.bind_eq_bind, Option.bind_eq_some_iff] at read
  obtain ⟨⟨count, more⟩, hcount, hps⟩ := read
  obtain ⟨small, lengthCount⟩ := Varint.of_read (by decide) hcount
  obtain ⟨rfl, fits, lengthPs⟩ := of_readPoints hps
  dsimp only at lengthPs
  refine ⟨⟨fits, small⟩, ?_⟩
  simp only [bytes, List.length_append]
  omega

/-! ## Tokens -/

theorem base64_encode (ps : List Point) :
    Base64.decode (Text.trim (encode ps).toList) = some (bytes ps) :=
  Base64.decode_trim_encode (bytes ps)

theorem decode_encode (fits : Fits ps) :
    decode (encode ps) = if Plan.isValid ps then .ok ps else .error .invalidPlan := by
  simp only [decode, base64_encode, readBytes_bytes fits]

theorem decode_eq_ok_iff : decode token = .ok ps ↔ ∃ bs,
    Base64.decode (Text.trim token.toList) = some bs ∧ readBytes bs = some (ps, []) ∧
      Plan.isValid ps = true := by
  constructor
  · intro read
    unfold decode at read
    split at read
    · exact absurd read (by simp)
    next bs hbs =>
    split at read
    · exact absurd read (by simp)
    · exact absurd read (by simp)
    next qs hqs =>
    split at read
    · next valid =>
      obtain rfl := Except.ok.inj read
      exact ⟨bs, hbs, hqs, valid⟩
    · exact absurd read (by simp)
  · rintro ⟨bs, hbs, hps, valid⟩
    simp only [decode, hbs, hps, valid, if_true]

theorem of_decode (read : decode token = .ok ps) : Fits ps ∧ Plan.isValid ps = true ∧
    (encode ps).length ≤ (Text.trim token.toList).length := by
  obtain ⟨bs, hbs, hps, valid⟩ := decode_eq_ok_iff.1 read
  obtain ⟨fits, length⟩ := of_readBytes hps
  refine ⟨fits, valid, ?_⟩
  rw [encode, String.length_ofList, ← Base64.encode_of_decode hbs, Base64.length_encode,
    Base64.length_encode]
  rw [List.length_nil] at length
  omega

theorem encode_ne_empty (ps : List Point) : encode ps ≠ "" := by
  intro empty
  have none : (encode ps).length = 0 := by rw [empty, String.length_empty]
  have some : (Varint.write ps.length).length ≠ 0 := by
    simp only [Varint.write]
    split_ifs <;> simp
  rw [encode, String.length_ofList, Base64.length_encode, bytes, List.length_append] at none
  omega

/-- A plan is read back from its token, and what is no plan is refused. Whatever can be read is a plan,
whose own token means the same and is no longer. And a route from one anchor to another comes back
from its token. -/
theorem token_roundTrip :
    (∀ ps, Fits ps →
      decode (encode ps) = if Plan.isValid ps then .ok ps else .error .invalidPlan) ∧
    (∀ token ps, decode token = .ok ps → Plan.isValid ps = true ∧ decode (encode ps) = .ok ps ∧
      (encode ps).length ≤ (Text.trim token.toList).length) ∧
    ∀ r a b, (r = .straight ∨ ∃ ps, r = .segmented ps ∧ Fits ps ∧ Plan.isValid ps = true ∧
        ps.head? = some a ∧ ps.getLast? = some b) →
      Route.ofToken (Route.token r) a b = r := by
  refine ⟨fun ps => decode_encode, fun token ps read => ?_, ?_⟩
  · obtain ⟨fits, valid, short⟩ := of_decode read
    exact ⟨valid, by rw [decode_encode fits, if_pos valid], short⟩
  · rintro r a b (rfl | ⟨ps, rfl, fits, valid, first, last⟩)
    · rfl
    · have read : decode (encode ps) = .ok ps := by rw [decode_encode fits, if_pos valid]
      simp only [Route.ofToken, Route.token, encode_ne_empty, if_false, read]
      exact Route.reanchor_eq_segmented_iff.2
        ⟨valid, valid, (Plan.anchor_eq_self_iff valid).2 ⟨first, last⟩⟩

def far : List Point :=
  [⟨-2147483648, 0⟩, ⟨-2147483648, 2147483647⟩, ⟨7, 2147483647⟩, ⟨7, -300⟩]

/-- The second token has a blank at each end, and a count that is wider than it has to be. -/
theorem token_roundTrip_far :
    (Fits far ∧ decode (encode far) = .ok far ∧
      Route.ofToken (Route.token (.segmented far)) ⟨-2147483648, 0⟩ ⟨7, -300⟩ = .segmented far) ∧
    decode " +wQAAAAAAgICAgQ= " = .ok [⟨0, 0⟩, ⟨0, 1⟩, ⟨1, 1⟩, ⟨1, 2⟩] ∧
      decode (encode [⟨0, 0⟩, ⟨0, 1⟩, ⟨1, 1⟩, ⟨1, 2⟩]) = .ok [⟨0, 0⟩, ⟨0, 1⟩, ⟨1, 1⟩, ⟨1, 2⟩] := by
  have fits : Fits far := ⟨by decide, by decide⟩
  have valid : Plan.isValid far = true := by decide
  have back := token_roundTrip.1 far fits
  rw [if_pos valid] at back
  have read : decode " +wQAAAAAAgICAgQ= " = .ok [⟨0, 0⟩, ⟨0, 1⟩, ⟨1, 1⟩, ⟨1, 2⟩] := by
    decide +kernel
  exact ⟨⟨fits, back, token_roundTrip.2.2 _ _ _ (.inr ⟨far, rfl, fits, valid, rfl, rfl⟩)⟩, read,
    (token_roundTrip.2.1 _ _ read).2.1⟩

end Token

end Patchbay
