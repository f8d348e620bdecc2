import Patchbay.Proofs.Token

/-!
# Damaged tokens

The bytes of a plan say themselves where they end: a reader takes what it needs from their front, and
takes the same whatever comes behind. So a token that was cut off anywhere, or that goes on, is none,
and its cable is straight.
-/

namespace Patchbay

/-- What is read does not depend on the bytes behind it, and these are left. -/
def Sequential {α : Type} (read : List UInt8 → Option (α × List UInt8)) : Prop :=
  ∀ bs x rest, read bs = some (x, rest) → ∀ more, read (bs ++ more) = some (x, rest ++ more)

namespace Sequential

variable {α β : Type} {read : List UInt8 → Option (α × List UInt8)} {bs front : List UInt8} {x : α}

theorem done (x : α) : Sequential fun bs => some (x, bs) := by
  intro bs y rest taken more
  obtain ⟨rfl, rfl⟩ := Prod.mk.inj (Option.some.inj taken)
  rfl

theorem bind (first : Sequential read) {next : α → List UInt8 → Option (β × List UInt8)}
    (second : ∀ x, Sequential (next x)) :
    Sequential fun bs => (read bs).bind fun r => next r.1 r.2 := by
  intro bs y rest taken more
  obtain ⟨⟨x, middle⟩, begun, ended⟩ := Option.bind_eq_some_iff.1 taken
  show (read (bs ++ more)).bind _ = _
  rw [first bs x middle begun more]
  exact second x middle y rest ended more

theorem map (first : Sequential read) (f : α → β) :
    Sequential fun bs => (read bs).map fun r => (f r.1, r.2) := by
  intro bs y rest taken more
  obtain ⟨⟨x, left⟩, begun, same⟩ := Option.map_eq_some_iff.1 taken
  obtain ⟨rfl, rfl⟩ := Prod.mk.inj same
  show (read (bs ++ more)).map _ = _
  rw [first bs x left begun more, Option.map_some]

/-- What is read to its end is not read from less: the missing bytes would be left. -/
theorem eq_none_of_cut (sequential : Sequential read) (whole : read bs = some (x, []))
    (cut : front <+: bs) (short : front ≠ bs) : read front = none := by
  obtain ⟨back, rfl⟩ := cut
  cases early : read front with
  | none => rfl
  | some r =>
    obtain ⟨y, rest⟩ := r
    have left := sequential front y rest early back
    rw [whole] at left
    obtain ⟨-, none⟩ := Prod.mk.inj (Option.some.inj left)
    obtain ⟨-, rfl⟩ := List.append_eq_nil_iff.1 none.symm
    exact absurd (List.append_nil front).symm short

end Sequential

namespace Varint

theorem sequential_readLittleEndian (width : Nat) : Sequential (readLittleEndian width) := by
  induction width with
  | zero => exact .done 0
  | succ width ih =>
    rintro (_ | ⟨b, bs⟩) n rest taken more
    · exact absurd taken (by simp [readLittleEndian])
    · exact ih.map (fun n => b.toNat + 256 * n) bs n rest taken more

theorem sequential_read (widest : Nat) : Sequential (read widest) := by
  rintro (_ | ⟨b, bs⟩) n rest taken more
  · exact absurd taken (by simp [read])
  · rw [List.cons_append]
    by_cases low : b < 251
    · simp only [read, low, if_true] at taken ⊢
      exact Sequential.done b.toNat bs n rest taken more
    · cases known : widths.lookup b with
      | none => exact absurd taken (by simp [read, low, known])
      | some width =>
        by_cases narrow : width ≤ widest
        · simp only [read, low, known, narrow, if_true, if_false] at taken ⊢
          exact sequential_readLittleEndian width bs n rest taken more
        · exact absurd taken (by simp [read, low, known, narrow])

end Varint

namespace Token

variable {ps : List Point} {bs front more : List UInt8} {token : String} {e : TokenError}

theorem sequential_readCoordinate : Sequential readCoordinate :=
  (Varint.sequential_read 4).map Varint.unfold

theorem sequential_readPoint : Sequential readPoint :=
  sequential_readCoordinate.bind fun x =>
    sequential_readCoordinate.bind fun y => .done (⟨x, y⟩ : Point)

theorem sequential_readPoints (count : Nat) : Sequential (readPoints count) := by
  induction count with
  | zero => exact .done []
  | succ count ih => exact sequential_readPoint.bind fun p => ih.bind fun ps => .done (p :: ps)

theorem sequential_readBytes : Sequential readBytes :=
  (Varint.sequential_read 8).bind sequential_readPoints

def ofBytes (bs : List UInt8) : String := String.ofList (Base64.encode bs)

theorem encode_eq_ofBytes (ps : List Point) : encode ps = ofBytes (bytes ps) := rfl

theorem decode_ofBytes_eq_payload (unread : readBytes bs = none) :
    decode (ofBytes bs) = .error .payload := by
  simp only [decode, ofBytes, Base64.decode_trim_encode, unread]

theorem decode_ofBytes_eq_trailingBytes (read : readBytes bs = some (ps, more)) (left : more ≠ []) :
    decode (ofBytes bs) = .error .trailingBytes := by
  obtain ⟨b, more, rfl⟩ := List.exists_cons_of_ne_nil left
  simp only [decode, ofBytes, Base64.decode_trim_encode, read]

theorem ofToken_of_error (refused : decode token = .error e) (a b : Point) :
    Route.ofToken token a b = .straight := by
  simp only [Route.ofToken, refused, ite_self]

/-- The token of points stands for their bytes. These, cut off at any place, are no payload; with
anything behind them they have trailing bytes. Either way the cable is straight wherever its anchors
are. -/
theorem damaged_refused (fits : Fits ps) :
    encode ps = ofBytes (bytes ps) ∧
    (∀ front, front <+: bytes ps → front ≠ bytes ps →
      decode (ofBytes front) = .error .payload ∧
        ∀ a b, Route.ofToken (ofBytes front) a b = .straight) ∧
    ∀ more, more ≠ [] →
      decode (ofBytes (bytes ps ++ more)) = .error .trailingBytes ∧
        ∀ a b, Route.ofToken (ofBytes (bytes ps ++ more)) a b = .straight := by
  have whole := readBytes_bytes fits
  refine ⟨encode_eq_ofBytes ps, ?_, ?_⟩
  · intro front cut short
    have refused := decode_ofBytes_eq_payload (sequential_readBytes.eq_none_of_cut whole cut short)
    exact ⟨refused, ofToken_of_error refused⟩
  · intro more left
    have refused := decode_ofBytes_eq_trailingBytes (sequential_readBytes _ _ _ whole more) left
    exact ⟨refused, ofToken_of_error refused⟩

def uneven : List Point := [⟨5, -70000⟩, ⟨5, 300⟩, ⟨-300, 300⟩, ⟨-300, 70000⟩]

/-- Cut off inside a coordinate of five bytes, and with a single zero behind. -/
theorem damaged_refused_uneven :
    Fits uneven ∧ Plan.isValid uneven = true ∧
      ((bytes uneven).take 4 <+: bytes uneven ∧ (bytes uneven).take 4 ≠ bytes uneven ∧
        decode (ofBytes ((bytes uneven).take 4)) = .error .payload ∧
        Route.ofToken (ofBytes ((bytes uneven).take 4)) ⟨0, 0⟩ ⟨50, 100⟩ = .straight) ∧
      ([(0 : UInt8)] ≠ [] ∧ decode (ofBytes (bytes uneven ++ [0])) = .error .trailingBytes ∧
        Route.ofToken (ofBytes (bytes uneven ++ [0])) ⟨0, 0⟩ ⟨50, 100⟩ = .straight) := by
  have fits : Fits uneven := ⟨by decide, by decide⟩
  have cut : (bytes uneven).take 4 <+: bytes uneven := List.take_prefix 4 _
  have short : (bytes uneven).take 4 ≠ bytes uneven := by decide +kernel
  obtain ⟨-, cuts, trails⟩ := damaged_refused fits
  obtain ⟨payload, straight⟩ := cuts _ cut short
  obtain ⟨trailing, straight'⟩ := trails [0] (List.cons_ne_nil 0 [])
  exact ⟨fits, by decide, ⟨cut, short, payload, straight _ _⟩, List.cons_ne_nil 0 [], trailing,
    straight' _ _⟩

end Token

end Patchbay
