import Patchbay.Token.Basic

/-!
# Plans that follow their anchors

Anchoring overwrites the ends of a plan and the columns of their neighbours, and nothing else. So
only the last anchors count, as long as the plan was still one in between. It always is one when its
second piece and its last but one are horizontal: these give way whatever the anchors do.
-/

namespace Patchbay

theorem segments_append (ps : List Point) (p q : Point) :
    segments (ps ++ [p, q]) = segments (ps ++ [p]) ++ [⟨p, q⟩] := by
  induction ps with
  | nil => rfl
  | cons r ps ih =>
    cases ps with
    | nil => rfl
    | cons t ps => simpa [segments] using ih

namespace Plan

variable {ps : Plan} {a b a' b' p q r s : Point} {mid : List Point}

theorem exists_ends (long : 4 ≤ ps.length) : ∃ p q mid r s, ps = p :: q :: (mid ++ [r, s]) := by
  match ps with
  | p :: q :: rest =>
    have two : 2 ≤ rest.length := by simpa using long
    refine ⟨p, q, rest.take (rest.length - 2), rest[rest.length - 2], rest[rest.length - 1], ?_⟩
    have tail : rest.drop (rest.length - 2) = [rest[rest.length - 2], rest[rest.length - 1]] := by
      rw [List.drop_eq_getElem_cons (by omega), List.drop_eq_getElem_cons (by omega),
        List.drop_of_length_le (by omega)]
      congr 2
      congr 1
      omega
    rw [← tail, List.take_append_drop]

theorem anchor_ends (a b p q r s : Point) (mid : List Point) :
    anchor a b (p :: q :: (mid ++ [r, s])) = a :: q.withX a.x :: (mid ++ [r.withX b.x, b]) := by
  simp [anchor, anchorHead]

theorem segments_ends (p q r s : Point) (mid : List Point) :
    segments (p :: q :: (mid ++ [r, s])) = ⟨p, q⟩ :: (segments (q :: (mid ++ [r])) ++ [⟨r, s⟩]) := by
  rw [segments, ← List.cons_append, segments_append, List.cons_append]

theorem isValid_ends : isValid (p :: q :: (mid ++ [r, s])) = true ↔
    p.x = q.x ∧ r.x = s.x ∧ ∀ t ∈ segments (q :: (mid ++ [r])), t.isAxisAligned = true := by
  simp only [isValid, segments_ends, List.length_cons, List.length_append, List.length_nil,
    List.all_cons, List.all_append, List.all_nil, List.head?_cons, Option.all_some, Bool.and_true,
    List.getLast?_cons, List.getLast?_append, Option.some_or, Option.getD_some, Bool.and_eq_true,
    decide_eq_true_iff, List.all_eq_true, Segment.isVertical]
  constructor
  · rintro ⟨⟨⟨-, -, inner, -⟩, first⟩, last⟩
    exact ⟨first, last, inner⟩
  · rintro ⟨first, last, inner⟩
    refine ⟨⟨⟨by omega, ?_, inner, ?_⟩, first⟩, last⟩
    · simp [Segment.isAxisAligned, Segment.isVertical, first]
    · simp [Segment.isAxisAligned, Segment.isVertical, last]

theorem length_of_isValid (valid : ps.isValid = true) : 4 ≤ ps.length := by
  simp only [isValid, Bool.and_eq_true, decide_eq_true_iff] at valid
  exact valid.1.1.1

theorem anchor_anchor (long : 4 ≤ ps.length) : (ps.anchor a b).anchor a' b' = ps.anchor a' b' := by
  obtain ⟨p, q, mid, r, s, rfl⟩ := exists_ends long
  simp only [anchor_ends]
  rfl

theorem anchor_eq_self_iff (valid : ps.isValid = true) :
    ps.anchor a b = ps ↔ ps.head? = some a ∧ ps.getLast? = some b := by
  obtain ⟨p, q, mid, r, s, rfl⟩ := exists_ends (length_of_isValid valid)
  obtain ⟨first, last, -⟩ := isValid_ends.1 valid
  have inner : (p :: q :: (mid ++ [r, s])).getLast? = some s := by
    rw [← List.cons_append, ← List.cons_append, ← List.singleton_append (l := [s]),
      ← List.append_assoc, List.getLast?_concat]
  rw [inner, anchor_ends]
  simp only [List.cons.injEq, List.append_cancel_left_eq, List.head?_cons, Option.some.injEq, and_true]
  constructor
  · rintro ⟨rfl, -, -, rfl⟩
    exact ⟨rfl, rfl⟩
  · rintro ⟨rfl, rfl⟩
    exact ⟨rfl, Point.ext first rfl, Point.ext last.symm rfl, rfl⟩

theorem exists_segments_cons (m : Point) (mid : List Point) : ∃ n, ∀ q r : Point,
    segments (q :: (m :: mid ++ [r])) = ⟨q, m⟩ :: (segments (m :: mid) ++ [⟨n, r⟩]) := by
  obtain ⟨front, n, hfront⟩ : ∃ front n, m :: mid = front ++ [n] :=
    ⟨_, _, (List.dropLast_concat_getLast (List.cons_ne_nil m mid)).symm⟩
  refine ⟨n, fun q r => ?_⟩
  rw [List.cons_append, segments, ← List.cons_append, hfront, List.append_assoc,
    List.singleton_append, segments_append]

/-- The second piece and the last but one are horizontal, so the end pieces can slide along them. -/
def isPliable (ps : Plan) : Bool :=
  let inner := (segments ps).tail.dropLast
  inner.head?.all Segment.isHorizontal && inner.getLast?.all Segment.isHorizontal

theorem isPliable_ends : isPliable (p :: q :: (mid ++ [r, s])) = true ↔
    (segments (q :: (mid ++ [r]))).head?.all Segment.isHorizontal = true ∧
      (segments (q :: (mid ++ [r]))).getLast?.all Segment.isHorizontal = true := by
  simp only [isPliable, segments_ends, List.tail_cons, List.dropLast_concat, Bool.and_eq_true]

theorem isValid_anchor (valid : ps.isValid = true) (pliable : ps.isPliable = true) (a b : Point) :
    (ps.anchor a b).isValid = true := by
  obtain ⟨p, q, mid, r, s, rfl⟩ := exists_ends (length_of_isValid valid)
  rw [anchor_ends, isValid_ends]
  obtain ⟨-, -, inner⟩ := isValid_ends.1 valid
  obtain ⟨first, last⟩ := isPliable_ends.1 pliable
  refine ⟨rfl, rfl, ?_⟩
  cases mid with
  | nil =>
    have level : q.y = r.y := by simpa [segments, Segment.isHorizontal] using first
    intro t ht
    obtain rfl : t = ⟨q.withX a.x, r.withX b.x⟩ := by simpa [segments] using ht
    simp [Segment.isAxisAligned, Segment.isHorizontal, Point.withX, level]
  | cons m mid =>
    have level : q.y = m.y := by simpa [segments, Segment.isHorizontal] using first
    obtain ⟨n, pieces⟩ := exists_segments_cons m mid
    rw [pieces] at inner last
    rw [← List.cons_append, List.getLast?_concat] at last
    have level' : n.y = r.y := by simpa [Segment.isHorizontal] using last
    rw [pieces]
    intro t ht
    simp only [List.mem_cons, List.mem_append, List.not_mem_nil, or_false] at ht
    rcases ht with rfl | ht | rfl
    · simp [Segment.isAxisAligned, Segment.isHorizontal, Point.withX, level]
    · exact inner t (List.mem_cons_of_mem _ (List.mem_append_left _ ht))
    · simp [Segment.isAxisAligned, Segment.isHorizontal, Point.withX, level']

end Plan

namespace Route

variable {r : Route} {a b a' b' : Point} {token : String}

theorem reanchor_eq_segmented_iff {ps qs : Plan} : (segmented qs).reanchor a b = segmented ps ↔
    qs.isValid = true ∧ ps.isValid = true ∧ qs.anchor a b = ps := by
  simp only [reanchor, ofPlan]
  constructor
  · intro same
    split at same
    · next valid =>
      split at same
      · next kept =>
        obtain rfl := segmented.inj same
        exact ⟨valid, kept, rfl⟩
      · exact absurd same (by simp)
    · exact absurd same (by simp)
  · rintro ⟨valid, kept, rfl⟩
    rw [if_pos valid, if_pos kept]

/-- A route that stayed a plan at some anchors goes on from them as if it had never been there. -/
theorem reanchor_reanchor (r : Route) (a b a' b' : Point) :
    (r.reanchor a b).reanchor a' b' = r.reanchor a' b' ∨ r.reanchor a b = straight := by
  cases r with
  | straight => exact Or.inr rfl
  | segmented ps =>
    by_cases valid : ps.isValid = true
    · by_cases kept : (ps.anchor a b).isValid = true
      · left
        simp only [reanchor, valid, ofPlan, kept, if_true,
          Plan.anchor_anchor (Plan.length_of_isValid valid)]
      · right
        simp [reanchor, valid, ofPlan, kept]
    · right
      simp [reanchor, valid]

theorem reanchor_self (r : Route) (a b : Point) : (r.reanchor a b).reanchor a b = r.reanchor a b := by
  rcases reanchor_reanchor r a b a b with same | lost
  · exact same
  · rw [lost, reanchor_straight]

/-- A route has a plan, which does not fit between two anchors. -/
def Misfits (r : Route) (a b : Point) : Prop := r ≠ straight ∧ r.reanchor a b = straight

instance (r : Route) (a b : Point) : Decidable (r.Misfits a b) := inferInstanceAs (Decidable (_ ∧ _))

/-- What a token says, before it is brought to any anchors. -/
def raw (token : String) : Route :=
  if token = "" then straight
  else match Token.decode token with
    | .ok ps => segmented ps
    | .error _ => straight

theorem raw_of_decode {ps : Plan} (read : Token.decode token = .ok ps) (some : token ≠ "") :
    raw token = segmented ps := by
  rw [raw, if_neg some, read]

theorem ofToken_eq (token : String) (a b : Point) : ofToken token a b = (raw token).reanchor a b := by
  by_cases none : token = ""
  · simp [ofToken, raw, none]
  · cases hps : Token.decode token <;> simp [ofToken, raw, none, hps]

end Route

end Patchbay
