import Patchbay.Proofs.Anchor

/-!
# Plans that travel whole

A plan between two boxes that are both moved is shifted as a whole. Re-anchoring the plan that its
token means moves only the ends and what hangs on them. The two agree exactly on the shifts that
leave the inner part where it is: none at all, or sideways along a plan of a single inner piece.
-/

namespace Patchbay

theorem Point.add_origin (p : Point) : p + .origin = p := by
  ext <;> simp [origin]

theorem Rect.shifted_origin (r : Rect) : r.shifted .origin = r := by
  simp [shifted, Point.origin]

theorem segments_map_add (d : Point) (ps : List Point) :
    segments (ps.map (· + d)) = (segments ps).map fun s => ⟨s.start + d, s.stop + d⟩ := by
  match ps with
  | [] => rfl
  | [_] => rfl
  | p :: q :: rest =>
    have ih := segments_map_add d (q :: rest)
    simp only [List.map_cons] at ih
    simp only [List.map_cons, segments, ih]

namespace Plan

variable {ps : Plan} {a b d : Point}

theorem isValid_map_add (d : Point) (ps : Plan) : isValid (ps.map (· + d)) = ps.isValid := by
  have vertical (s : Segment) : Segment.isVertical ⟨s.start + d, s.stop + d⟩ = s.isVertical := by
    simp [Segment.isVertical]
  have aligned (s : Segment) :
      Segment.isAxisAligned ⟨s.start + d, s.stop + d⟩ = s.isAxisAligned := by
    simp [Segment.isAxisAligned, Segment.isHorizontal, Segment.isVertical]
  simp [isValid, segments_map_add, List.all_map, Function.comp_def, vertical, aligned,
    Option.all_map]

theorem anchor_map_add (long : 4 ≤ ps.length) (a b d : Point) :
    anchor (a + d) (b + d) (ps.map (· + d)) = (ps.anchor a b).map (· + d) := by
  obtain ⟨p, q, mid, r, s, rfl⟩ := exists_ends long
  simp only [List.map_cons, List.map_append, List.map_nil, anchor_ends]
  rfl

theorem anchor_map_add_eq_iff (long : 4 ≤ ps.length) :
    anchor a b (ps.map (· + d)) = ps.anchor a b ↔ d = .origin ∨ d.y = 0 ∧ ps.length = 4 := by
  obtain ⟨p, q, mid, r, s, rfl⟩ := exists_ends long
  have inner : mid.map (· + d) = mid ↔ d = .origin ∨ mid = [] := by
    cases mid with
    | nil => simp
    | cons m mid =>
      simp only [List.map_cons, List.cons.injEq, reduceCtorEq, or_false]
      constructor
      · rintro ⟨same, -⟩
        simp only [Point.ext_iff, Point.add_x, Point.add_y, Point.origin] at same ⊢
        omega
      · rintro rfl
        exact ⟨Point.add_origin m, by simp only [Point.add_origin, List.map_id']⟩
  have level (p : Point) (x : Int) : (p + d).withX x = p.withX x ↔ d.y = 0 := by
    simp only [Point.withX, Point.mk.injEq, true_and, Point.add_y]
    omega
  have four : (p :: q :: (mid ++ [r, s])).length = 4 ↔ mid = [] := by
    simp [← List.length_eq_zero_iff]
  have flat : d = .origin → d.y = 0 := fun none => none ▸ rfl
  have split : mid.map (· + d) ++ [(r + d).withX b.x, b] = mid ++ [r.withX b.x, b] ↔
      mid.map (· + d) = mid ∧ d.y = 0 := by
    constructor
    · intro same
      obtain ⟨same, ends⟩ := List.append_inj same (by simp)
      exact ⟨same, (level r b.x).1 (List.cons.inj ends).1⟩
    · rintro ⟨same, flat⟩
      rw [same, (level r b.x).2 flat]
  rw [four]
  simp only [List.map_cons, List.map_append, List.map_nil, anchor_ends, List.cons.injEq, level,
    true_and, split, inner]
  constructor
  · rintro ⟨level, none | bare, -⟩
    · exact Or.inl none
    · exact Or.inr ⟨level, bare⟩
  · rintro (none | ⟨level, bare⟩)
    · exact ⟨flat none, Or.inl none, flat none⟩
    · exact ⟨level, Or.inr bare, level⟩

end Plan

namespace Route

variable {r : Route} {a b d : Point} {ps : Plan}

def shifted (r : Route) (d : Point) : Route :=
  match r with
  | straight => straight
  | segmented ps => segmented (ps.map (· + d))

theorem shifted_origin (r : Route) : r.shifted .origin = r := by
  cases r <;> simp [shifted, Point.add_origin]

theorem reanchor_shifted (r : Route) (a b d : Point) :
    (r.shifted d).reanchor (a + d) (b + d) = (r.reanchor a b).shifted d := by
  cases r with
  | straight => rfl
  | segmented ps =>
    by_cases valid : ps.isValid = true
    · simp only [shifted, reanchor, Plan.isValid_map_add, valid, if_true, ofPlan,
        Plan.anchor_map_add (Plan.length_of_isValid valid)]
      split <;> rfl
    · simp [shifted, reanchor, Plan.isValid_map_add, valid]

theorem head_of_reanchor (still : (segmented ps).reanchor a b = segmented ps) :
    ∃ qs, ps = a :: qs := by
  obtain ⟨valid, -, same⟩ := reanchor_eq_segmented_iff.1 still
  obtain ⟨p, q, mid, r, s, rfl⟩ := Plan.exists_ends (Plan.length_of_isValid valid)
  rw [Plan.anchor_ends] at same
  exact ⟨_, same.symm⟩

/-- A shift that the plan of a token makes with its anchors. -/
def Slides (r : Route) (d : Point) : Prop :=
  match r with
  | straight => True
  | segmented ps => d = .origin ∨ d.y = 0 ∧ ps.length = 4

instance (r : Route) (d : Point) : Decidable (r.Slides d) := by
  unfold Slides
  split <;> infer_instance

/-- Between anchors that its plan fits, a shift of a route does not show exactly if it is one that the
plan makes with its anchors. -/
theorem reanchor_shifted_eq_iff (fits : r.reanchor a b ≠ straight) :
    (r.shifted d).reanchor a b = r.reanchor a b ↔ r.Slides d := by
  cases r with
  | straight => exact absurd rfl fits
  | segmented ps =>
    cases there : (segmented ps).reanchor a b with
    | straight => exact absurd there fits
    | segmented qs =>
      obtain ⟨valid, kept, rfl⟩ := reanchor_eq_segmented_iff.1 there
      rw [shifted, reanchor_eq_segmented_iff, Plan.isValid_map_add,
        Plan.anchor_map_add_eq_iff (Plan.length_of_isValid valid), Slides]
      exact ⟨fun h => h.2.2, fun h => ⟨valid, kept, h⟩⟩

theorem Slides.reanchor_shifted (slides : r.Slides d) (a b : Point) :
    (r.shifted d).reanchor a b = r.reanchor a b := by
  cases r with
  | straight => rfl
  | segmented ps =>
    by_cases valid : ps.isValid = true
    · simp only [shifted, reanchor, Plan.isValid_map_add,
        (Plan.anchor_map_add_eq_iff (Plan.length_of_isValid valid)).2 slides]
    · simp [shifted, reanchor, Plan.isValid_map_add, valid]

def offset : Route → Route → Point
  | segmented (a :: _), segmented (b :: _) => b - a
  | _, _ => .origin

/-- A route that was shifted as a whole, in a way that its token does not say. -/
def Strayed (r r' : Route) : Prop := r' = r.shifted (r.offset r') ∧ ¬r.Slides (r.offset r')

instance (r r' : Route) : Decidable (r.Strayed r') := inferInstanceAs (Decidable (_ ∧ ¬_))

theorem slides_of_not_strayed (still : r.reanchor a b = r) (stays : ¬r.Strayed (r.shifted d)) :
    r.Slides d := by
  cases r with
  | straight => exact trivial
  | segmented ps =>
    obtain ⟨qs, rfl⟩ := head_of_reanchor still
    have offset : (segmented (a :: qs)).offset ((segmented (a :: qs)).shifted d) = d := by
      simp only [Route.offset, shifted, List.map_cons, Point.ext_iff, Point.sub_x, Point.sub_y,
        Point.add_x, Point.add_y]
      omega
    exact Decidable.of_not_not fun other => stays ⟨by rw [offset], by rwa [offset]⟩

end Route

end Patchbay
