import Mathlib.Algebra.GroupWithZero.Nat
import Mathlib.Algebra.Ring.Int.Defs
import Mathlib.Tactic.Common
import Patchbay.Proofs.Joined
import Patchbay.Proofs.Written

/-!
# Patches that are saved and read again

A patch in memory is printed so that reading the text brings back its nodes and wires in their order.
The history is not kept, and the next handle comes back above every handle in use. What was read once
is read again as it is, so the text of a patch that was read never changes.
-/

namespace Patchbay

open Keyed (keys)

namespace Json

section Typed

variable {α : Type} {z : Int} {n : Nat}

theorem natOfDigits?_toDigits (n : Nat) : natOfDigits? (Nat.toDigits 10 n) = some n := by
  by_cases zero : n = 0
  · subst zero
    rfl
  · obtain ⟨c, cs, written, -, leading⟩ := exists_toDigits n
    have nonzero : c ≠ '0' := fun same => zero (leading same)
    have digits : (c :: cs).all Char.isDigit := by
      rw [← written]
      exact List.all_eq_true.2 (isDigit_toDigits n)
    have value : Nat.ofDigitChars 10 (c :: cs) 0 = n := by
      rw [← written, Nat.ofDigitChars_ten_toDigits]
    rw [written, natOfDigits?, if_pos ⟨digits, nonzero⟩, value]
    exact fun same _ => nonzero same

theorem asInt?_ofInt (z : Int) : asInt? (ofInt z) = some z := by
  cases z with
  | ofNat n =>
    obtain ⟨c, cs, written, digit, -⟩ := exists_toDigits n
    have positive : c ≠ '-' := by
      rintro rfl
      exact absurd digit (by decide)
    have read := natOfDigits?_toDigits n
    rw [written] at read
    simp [ofInt, ofNat, asInt?, written, intOfLiteral?, positive, read]
  | negSucc n => simp [ofInt, asInt?, intOfLiteral?, natOfDigits?_toDigits]

theorem ofInt_injective : Function.Injective ofInt := by
  intro y z same
  have read := congrArg asInt? same
  simpa only [asInt?_ofInt, Option.some.injEq] using read

theorem asInt32?_ofInt (low : -2 ^ 31 ≤ z) (high : z < 2 ^ 31) : asInt32? (ofInt z) = some z := by
  rw [asInt32?, asInt?_ofInt, Option.bind_some, if_pos (by omega)]

theorem asNat64?_ofNat (small : n < 2 ^ 64) : asNat64? (ofNat n) = some n := by
  have read : asInt? (ofNat n) = some (n : Int) := asInt?_ofInt n
  rw [asNat64?, read, Option.bind_some, if_pos (by omega), Int.toNat_natCast]

theorem of_asInt32? {j : Json} (read : asInt32? j = some z) : -2 ^ 31 ≤ z ∧ z < 2 ^ 31 := by
  obtain ⟨y, -, read⟩ := Option.bind_eq_some_iff.1 read
  obtain ⟨range, read⟩ := Option.ite_none_right_eq_some.1 read
  obtain rfl := Option.some.inj read
  omega

theorem of_asNat64? {j : Json} (read : asNat64? j = some n) : n < 2 ^ 64 := by
  obtain ⟨y, -, read⟩ := Option.bind_eq_some_iff.1 read
  obtain ⟨range, read⟩ := Option.ite_none_right_eq_some.1 read
  obtain rfl := Option.some.inj read
  omega

theorem of_required {read : Json → Option α} {field : Option Json} {a : α}
    (given : required read field = some a) : ∃ j, read j = some a :=
  let ⟨j, _, given⟩ := Option.bind_eq_some_iff.1 given
  ⟨j, given⟩

theorem int32_of_required {field : Option Json} (given : required asInt32? field = some z) :
    -2 ^ 31 ≤ z ∧ z < 2 ^ 31 :=
  let ⟨_, read⟩ := of_required given
  of_asInt32? read

theorem nat64_of_required {field : Option Json} (given : required asNat64? field = some n) :
    n < 2 ^ 64 :=
  let ⟨_, read⟩ := of_required given
  of_asNat64? read

theorem nat64_of_optional {field : Option Json} (given : optional asNat64? 0 field = some n) :
    n < 2 ^ 64 := by
  cases field with
  | none =>
    obtain rfl := Option.some.inj given
    decide
  | some j => exact of_asNat64? given

theorem of_asList? {read : Json → Option α} {j : Json} {xs : List α}
    (listed : asList? read j = some xs) : ∀ x ∈ xs, ∃ j, read j = some x := by
  unfold asList? at listed
  split at listed
  · next js =>
    induction js generalizing xs with
    | nil =>
      obtain rfl : [] = xs := by simpa using listed
      exact List.forall_mem_nil _
    | cons j js ih =>
      simp only [List.mapM_cons, Option.bind_eq_bind, Option.bind_eq_some_iff] at listed
      obtain ⟨x, first, ys, others, listed⟩ := listed
      obtain rfl := Option.some.inj listed
      exact List.forall_mem_cons.2 ⟨⟨j, first⟩, ih others⟩
  · exact absurd listed (by simp)

theorem asString?_ofString (s : String) : asString? (ofString s) = some s :=
  Text.string?_ofString s

theorem asList?_ofList {read : Json → Option α} {write : α → Json} {xs : List α}
    (back : ∀ x ∈ xs, read (write x) = some x) : asList? read (ofList write xs) = some xs := by
  rw [ofList, asList?]
  induction xs with
  | nil => rfl
  | cons x xs ih =>
    obtain ⟨first, others⟩ := List.forall_mem_cons.1 back
    simp [first, ih others]

end Typed

/-! ## Records -/

theorem select_record {ms : List (String × Json)} (before : List String)
    (distinct : (before ++ ms.map (·.1)).Nodup) :
    select (before ++ ms.map (·.1)) (ms.map fun m => (Text.ofString m.1, m.2))
      = some (before.map (fun _ => none) ++ ms.map fun m => some m.2) := by
  induction ms generalizing before with
  | nil => simp [select]
  | cons m ms ih =>
    obtain ⟨k, v⟩ := m
    have others := ih (before ++ [k]) (by simpa using distinct)
    have fresh : k ∉ before := fun there =>
      List.disjoint_of_nodup_append distinct there List.mem_cons_self
    have first : (before ++ k :: ms.map (·.1)).findIdx? (· == k) = some before.length := by
      have none : before.findIdx? (· == k) = none := by
        rw [List.findIdx?_eq_none_iff]
        exact fun x there => beq_false_of_ne fun same => fresh (same ▸ there)
      simp [List.findIdx?_append, List.findIdx?_cons, none]
    simp only [List.append_assoc, List.singleton_append, List.map_append, List.map_cons] at others
    simp only [List.map_cons, select, Text.string?_ofString, others, Option.bind_eq_bind,
      Option.bind_some, first]
    simp

theorem fields?_record {names : List String} {ms : List (String × Json)}
    (known : ms.map (·.1) = names) (distinct : names.Nodup) :
    fields? names (record ms) = some (ms.map fun m => some m.2) := by
  subst known
  simpa [fields?, record] using select_record [] distinct

theorem isWritten_ofString (s : String) : (Text.ofString s).IsWritten := by
  intro x mem
  obtain ⟨c, -, rfl⟩ := List.mem_map.1 mem
  rw [Piece.ofChar]
  split
  · next special => exact Nat.lt_trans (toNat_lt_of_needsEscape special) (by decide)
  · next plain => exact Bool.eq_false_iff.2 plain

theorem Written.ofNat (n : Nat) : Written (Json.ofNat n) := .int n

theorem Written.ofString (s : String) : Written (Json.ofString s) := .text (isWritten_ofString s)

theorem Written.ofList {α : Type} {write : α → Json} {xs : List α}
    (each : ∀ x ∈ xs, Written (write x)) : Written (Json.ofList write xs) :=
  .array (List.forall_mem_map.2 each)

theorem Written.record {ms : List (String × Json)} (values : ∀ m ∈ ms, Written m.2) :
    Written (Json.record ms) :=
  .object (List.forall_mem_map.2 fun m _ => isWritten_ofString m.1) (List.forall_mem_map.2 values)

end Json

/-! ## Nodes and wires -/

structure Rect.Fits (r : Rect) : Prop where
  x : -2 ^ 31 ≤ r.x ∧ r.x < 2 ^ 31
  y : -2 ^ 31 ≤ r.y ∧ r.y < 2 ^ 31
  width : -2 ^ 31 ≤ r.width ∧ r.width < 2 ^ 31
  height : -2 ^ 31 ≤ r.height ∧ r.height < 2 ^ 31

instance Rect.decidableFits (r : Rect) : Decidable r.Fits :=
  decidable_of_iff ((-2 ^ 31 ≤ r.x ∧ r.x < 2 ^ 31) ∧ (-2 ^ 31 ≤ r.y ∧ r.y < 2 ^ 31) ∧
      (-2 ^ 31 ≤ r.width ∧ r.width < 2 ^ 31) ∧ -2 ^ 31 ≤ r.height ∧ r.height < 2 ^ 31)
    ⟨fun ⟨x, y, width, height⟩ => ⟨x, y, width, height⟩, fun ⟨x, y, width, height⟩ =>
      ⟨x, y, width, height⟩⟩

structure Ends.Fits (e : Ends) : Prop where
  outletOwner : e.outletOwner < 2 ^ 64
  outlet : e.outlet < 2 ^ 64
  inletOwner : e.inletOwner < 2 ^ 64
  inlet : e.inlet < 2 ^ 64

instance Ends.decidableFits (e : Ends) : Decidable e.Fits :=
  decidable_of_iff (e.outletOwner < 2 ^ 64 ∧ e.outlet < 2 ^ 64 ∧ e.inletOwner < 2 ^ 64 ∧
      e.inlet < 2 ^ 64)
    ⟨fun ⟨outletOwner, outlet, inletOwner, inlet⟩ => ⟨outletOwner, outlet, inletOwner, inlet⟩,
      fun ⟨outletOwner, outlet, inletOwner, inlet⟩ => ⟨outletOwner, outlet, inletOwner, inlet⟩⟩

theorem Rect.ofJson?_toJson {r : Rect} (fits : r.Fits) : Rect.ofJson? r.toJson = some r := by
  rw [Rect.ofJson?, Rect.toJson, Json.fields?_record]
  · simp [Json.required, Json.asInt32?_ofInt fits.x.1 fits.x.2,
      Json.asInt32?_ofInt fits.y.1 fits.y.2, Json.asInt32?_ofInt fits.width.1 fits.width.2,
      Json.asInt32?_ofInt fits.height.1 fits.height.2]
  · rfl
  · decide

theorem Node.ofJson?_toJson {n : Node} (fits : n.bounds.Fits) : Node.ofJson? n.toJson = some n := by
  have flags (bs : List Bool) : Json.asList? Json.asBool? (Json.ofList .bool bs) = some bs :=
    Json.asList?_ofList fun _ _ => rfl
  rw [Node.ofJson?, Node.toJson, Json.fields?_record]
  · simp [Json.required, Json.optional, Json.asString?_ofString, Rect.ofJson?_toJson fits, flags]
  · rfl
  · decide

theorem Wire.ofJson?_toJson {w : Wire} (handle : w.handle < 2 ^ 64) (ends : w.ends.Fits) :
    Wire.ofJson? w.toJson = some w := by
  rw [Wire.ofJson?, Wire.toJson, Json.fields?_record]
  · simp [Json.required, Json.optional, Json.asString?_ofString, Json.asNat64?_ofNat handle,
      Json.asNat64?_ofNat ends.outletOwner, Json.asNat64?_ofNat ends.outlet,
      Json.asNat64?_ofNat ends.inletOwner, Json.asNat64?_ofNat ends.inlet]
  · rfl
  · decide

theorem Rect.fits_of_ofJson? {j : Json} {r : Rect} (read : Rect.ofJson? j = some r) : r.Fits := by
  simp only [Rect.ofJson?, Option.bind_eq_bind, Option.bind_eq_some_iff] at read
  obtain ⟨fields, -, read⟩ := read
  split at read
  · simp only [Option.bind_eq_some_iff] at read
    obtain ⟨x, hx, y, hy, width, hwidth, height, hheight, read⟩ := read
    obtain rfl := Option.some.inj read
    exact ⟨Json.int32_of_required hx, Json.int32_of_required hy, Json.int32_of_required hwidth,
      Json.int32_of_required hheight⟩
  · exact absurd read (by simp)

theorem Node.fits_of_ofJson? {j : Json} {n : Node} (read : Node.ofJson? j = some n) :
    n.bounds.Fits := by
  simp only [Node.ofJson?, Option.bind_eq_bind, Option.bind_eq_some_iff] at read
  obtain ⟨fields, -, read⟩ := read
  split at read
  · simp only [Option.bind_eq_some_iff] at read
    obtain ⟨text, -, bounds, hbounds, inlets, -, outlets, -, read⟩ := read
    obtain rfl := Option.some.inj read
    obtain ⟨j, hbounds⟩ := Json.of_required hbounds
    exact Rect.fits_of_ofJson? hbounds
  · exact absurd read (by simp)

theorem Wire.fits_of_ofJson? {j : Json} {w : Wire} (read : Wire.ofJson? j = some w) :
    w.ends.Fits := by
  simp only [Wire.ofJson?, Option.bind_eq_bind, Option.bind_eq_some_iff] at read
  obtain ⟨fields, -, read⟩ := read
  split at read
  · simp only [Option.bind_eq_some_iff] at read
    obtain ⟨handle, -, outletOwner, h₁, outlet, h₂, inletOwner, h₃, inlet, h₄, token, -, read⟩ :=
      read
    obtain rfl := Option.some.inj read
    exact ⟨Json.nat64_of_required h₁, Json.nat64_of_required h₂, Json.nat64_of_required h₃,
      Json.nat64_of_required h₄⟩
  · exact absurd read (by simp)

theorem Rect.written (r : Rect) : r.toJson.Written := by
  refine .record ?_
  simp only [List.forall_mem_cons]
  exact ⟨.int _, .int _, .int _, .int _, List.forall_mem_nil _⟩

theorem Node.written (n : Node) : n.toJson.Written := by
  refine .record ?_
  simp only [List.forall_mem_cons]
  exact ⟨.ofString _, n.bounds.written, .ofList fun b _ => .bool b, .ofList fun b _ => .bool b,
    List.forall_mem_nil _⟩

theorem Wire.written (w : Wire) : w.toJson.Written := by
  refine .record ?_
  simp only [List.forall_mem_cons]
  exact ⟨.ofNat _, .ofNat _, .ofNat _, .ofNat _, .ofNat _, .ofString _, List.forall_mem_nil _⟩

namespace Contents

def member (k : Nat × Node) : Json.Text × Json :=
  ((Nat.toDigits 10 k.1).map .char, k.2.toJson)

theorem plain?_map_char (cs : List Char) : Json.Text.plain? (cs.map .char) = some cs := by
  induction cs with
  | nil => rfl
  | cons c cs ih => simp [Json.Text.plain?, ih]

theorem handle?_toDigits {h : Nat} (small : h < 2 ^ 64) :
    handle? ((Nat.toDigits 10 h).map .char) = some h := by
  have small : h < 18446744073709551616 := small
  simp [handle?, plain?_map_char, Json.natOfDigits?_toDigits, small]

theorem isWritten_toDigits (h : Nat) : Json.Text.IsWritten ((Nat.toDigits 10 h).map .char) := by
  intro x mem
  obtain ⟨c, there, rfl⟩ := List.mem_map.1 mem
  have digit := Json.isDigit_toDigits h c there
  have above : 48 ≤ c.toNat := by
    simp only [Char.isDigit, Bool.and_eq_true, decide_eq_true_eq] at digit
    exact digit.1
  show Json.needsEscape c = false
  simp only [Json.needsEscape, Bool.or_eq_false_iff, decide_eq_false_iff_not]
  refine ⟨⟨?_, ?_⟩, by omega⟩
  · rintro rfl
    exact absurd digit (by decide)
  · rintro rfl
    exact absurd digit (by decide)

theorem putNode_fresh {h : Nat} {n : Node} {nodes : Keyed Node} (fresh : h ∉ keys nodes) :
    putNode h n nodes = nodes ++ [(h, n)] := by
  induction nodes with
  | nil => rfl
  | cons k nodes ih =>
    obtain ⟨other, fresh⟩ := not_or.1 (fresh ∘ List.mem_cons.2)
    rw [putNode, if_neg (Ne.symm other), ih fresh, List.cons_append]

theorem putMembers_member {nodes : Keyed Node} (before : Keyed Node)
    (nodup : (keys (before ++ nodes)).Nodup) (handles : ∀ k ∈ nodes, k.1 < 2 ^ 64)
    (bounds : ∀ k ∈ nodes, k.2.bounds.Fits) :
    putMembers (nodes.map member) before = some (before ++ nodes) := by
  induction nodes generalizing before with
  | nil => simp [putMembers]
  | cons k nodes ih =>
    obtain ⟨h, n⟩ := k
    obtain ⟨handle, handles⟩ := List.forall_mem_cons.1 handles
    obtain ⟨fits, bounds⟩ := List.forall_mem_cons.1 bounds
    have fresh : h ∉ keys before := fun there => by
      rw [Keyed.keys_append] at nodup
      exact List.disjoint_of_nodup_append nodup there List.mem_cons_self
    have put := putNode_fresh (n := n) fresh
    simp only [List.map_cons, member, putMembers, handle?_toDigits handle, Node.ofJson?_toJson fits,
      Option.bind_eq_bind, Option.bind_some, put]
    rw [ih _ (by simpa using nodup) handles bounds, List.append_assoc]
    rfl

theorem fits_putMembers {ms : List (Json.Text × Json)} {nodes made : Keyed Node}
    (fits : ∀ k ∈ nodes, k.2.bounds.Fits) (put : putMembers ms nodes = some made) :
    ∀ k ∈ made, k.2.bounds.Fits := by
  induction ms generalizing nodes with
  | nil => exact Option.some.inj put ▸ fits
  | cons m ms ih =>
    simp only [putMembers, Option.bind_eq_bind, Option.bind_eq_some_iff] at put
    obtain ⟨h, -, n, node, put⟩ := put
    refine ih (fun k there => ?_) put
    rcases mem_putNode there with rfl | there
    · exact Node.fits_of_ofJson? node
    · exact fits k there

theorem fits_nodes? {j : Json} {nodes : Keyed Node} (made : nodes? j = some nodes) :
    ∀ k ∈ nodes, k.2.bounds.Fits := by
  unfold nodes? at made
  split at made
  · exact fits_putMembers (List.forall_mem_nil _) made
  · exact absurd made (by simp)

end Contents

namespace Patch

/-! ## Patches -/

variable {p : Patch} {text : String}

/-- What a patch in memory is like: a handle has one node, numbers have the width of their type, and
the last handle is not in use. -/
structure Fits (p : Patch) : Prop where
  nodup : (keys p.nodes).Nodup
  handles : ∀ h ∈ keys p.nodes ++ p.wires.map (·.handle), h < 2 ^ 64 - 1
  bounds : ∀ k ∈ p.nodes, k.2.bounds.Fits
  ends : ∀ w ∈ p.wires, w.ends.Fits
  next : p.next < 2 ^ 64

theorem written (p : Patch) : p.toJson.Written := by
  refine .record ?_
  simp only [List.forall_mem_cons]
  exact ⟨.object (List.forall_mem_map.2 fun k _ => Contents.isWritten_toDigits k.1)
    (List.forall_mem_map.2 fun k _ => k.2.written), .ofList fun w _ => w.written, .ofNat _,
    List.forall_mem_nil _⟩

theorem ofJson?_toJson (fits : p.Fits) : ofJson? p.toJson =
    some { toContents := p.toContents, next := max p.next (p.highest?.getD 0 + 1) } := by
  have nodes : Contents.nodes? (.object (p.nodes.map Contents.member)) = some p.nodes :=
    Contents.putMembers_member [] fits.nodup
      (fun k there => Nat.lt_of_lt_of_le (fits.handles _ (List.mem_append_left _
        (List.mem_map_of_mem there))) (by decide)) fits.bounds
  have wires : Json.asList? Wire.ofJson? (.ofList Wire.toJson p.wires) = some p.wires :=
    Json.asList?_ofList fun w there => Wire.ofJson?_toJson (Nat.lt_of_lt_of_le (fits.handles _
      (List.mem_append_right _ (List.mem_map_of_mem there))) (by decide)) (fits.ends w there)
  have free : p.highest?.getD 0 + 1 < 18446744073709551616 := by
    cases top : p.highest? with
    | none => decide
    | some m =>
      have used := fits.handles m (List.max?_mem top)
      simp only [Option.getD_some]
      omega
  have shape : p.toJson = .record [("objects", .object (p.nodes.map Contents.member)),
    ("connections", .ofList Wire.toJson p.wires), ("next_id", .ofNat p.next)] := rfl
  rw [ofJson?, shape, Json.fields?_record]
  · simp [Json.required, Json.optional, Json.asNat64?_ofNat fits.next, nodes, wires, free]
  · rfl
  · decide

theorem parse?_print (fits : p.Fits) : parse? p.print =
    some { toContents := p.toContents, next := max p.next (p.highest?.getD 0 + 1) } := by
  have read := p.written.parse?_pretty "" rfl
  rw [String.append_empty] at read
  rw [parse?, print, read, Option.bind_some, ofJson?_toJson fits]

theorem of_parse? (read : parse? text = some p) :
    p.Fits ∧ p.highest?.getD 0 < p.next ∧ p = { toContents := p.toContents, next := p.next } := by
  obtain ⟨j, -, read⟩ := Option.bind_eq_some_iff.1 read
  simp only [ofJson?, Option.bind_eq_bind, Option.bind_eq_some_iff] at read
  obtain ⟨fields, -, read⟩ := read
  split at read
  · next objects connections next_ =>
    simp only [Option.bind_eq_some_iff] at read
    obtain ⟨nodes, hnodes, wires, hwires, next, hnext, read⟩ := read
    obtain ⟨free, read⟩ := Option.ite_none_right_eq_some.1 read
    obtain rfl := Option.some.inj read
    obtain ⟨_, hnodes⟩ := Json.of_required hnodes
    refine ⟨⟨Contents.nodup_nodes? hnodes, fun h used => ?_, Contents.fits_nodes? hnodes, ?_, ?_⟩,
      Nat.lt_of_lt_of_le (Nat.lt_succ_self _) (Nat.le_max_right _ _), rfl⟩
    · have below : h ≤ (Contents.mk nodes wires).highest?.getD 0 := List.le_max?_getD_of_mem used
      omega
    · cases connections with
      | none =>
        obtain rfl := Option.some.inj hwires
        exact List.forall_mem_nil _
      | some j =>
        intro w there
        obtain ⟨_, read⟩ := Json.of_asList? hwires w there
        exact Wire.fits_of_ofJson? read
    · exact Nat.max_lt.2 ⟨Json.nat64_of_optional hnext, free⟩
  · exact absurd read (by simp)

theorem parse?_print_of_parse? (read : parse? text = some p) : parse? p.print = some p := by
  obtain ⟨fits, free, plain⟩ := of_parse? read
  rw [parse?_print fits, Nat.max_eq_left free, ← plain]

/-- Every patch is read back from its text, with a next handle above those in use, and a text made of
one that was read stays as it is from then on. -/
theorem json_roundTrip :
    (∀ p : Patch, p.Fits → parse? p.print =
      some { toContents := p.toContents, next := max p.next (p.highest?.getD 0 + 1) }) ∧
    ∀ (text : String) (p : Patch), parse? text = some p →
      (parse? p.print).map print = some p.print := by
  refine ⟨fun p fits => parse?_print fits, fun text p read => ?_⟩
  rw [parse?_print_of_parse? read, Option.map_some]

/-- Escapes and a character above sixteen bits, the ends of the number ranges, two wires of one handle
and a next handle that is in use. -/
def crowded : Patch where
  nodes := [(7, ⟨"print \"\\\n\u0001𝄞", ⟨-2147483648, 0, 2147483647, 1⟩, [true, false], []⟩),
    (3, ⟨"", ⟨0, 0, 0, 0⟩, [], [false]⟩)]
  wires := [⟨18446744073709551614, ⟨7, 0, 3, 18446744073709551615⟩, ""⟩,
    ⟨9, ⟨3, 0, 7, 0⟩, "AA=="⟩, ⟨9, ⟨3, 0, 7, 1⟩, "\t"⟩]
  next := 7

theorem json_roundTrip_crowded :
    let saved : Patch := { toContents := crowded.toContents, next := 18446744073709551615 }
    crowded.Fits ∧ parse? crowded.print = some saved ∧
      (parse? saved.print).map print = some saved.print := by
  have fits : crowded.Fits :=
    ⟨by decide, by decide, by decide, by decide, by decide⟩
  have read := json_roundTrip.1 crowded fits
  exact ⟨fits, read, json_roundTrip.2 crowded.print _ read⟩

end Patch

end Patchbay
