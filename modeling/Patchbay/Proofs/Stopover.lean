import Patchbay.Proofs.Alternating

/-!
# Anchors on the way

A plan that follows its anchors keeps everything inside its ends: the rows of their neighbours and all
other points. One plan at most has given ends and the same inside, and the route becomes that plan, or
straight when there is none. So the anchors that a route has had on its way leave no trace, as long as
it was a plan at each of them.
-/

namespace Patchbay

namespace Plan

variable {ps qs : Plan} {a b p q : Point} {i n : Nat}

/-- Two lists of points differ in the first and the last one and in the columns next to them at most. -/
structure SameInside (ps qs : Plan) : Prop where
  length : qs.length = ps.length
  rows : ∀ i, 0 < i → i + 1 < ps.length → qs[i]?.map Point.y = ps[i]?.map Point.y
  columns : ∀ i, 1 < i → i + 2 < ps.length → qs[i]?.map Point.x = ps[i]?.map Point.x

theorem SameInside.refl (ps : Plan) : ps.SameInside ps :=
  ⟨rfl, fun _ _ _ => rfl, fun _ _ _ => rfl⟩

theorem sameInside_anchor (long : 4 ≤ ps.length) (a b : Point) : ps.SameInside (ps.anchor a b) where
  length := length_anchor a b ps
  rows i first last := by
    rw [getElem?_anchor long, Option.map_map]
    exact Option.map_congr fun p _ => pin_y first last
  columns i first last := by
    rw [getElem?_anchor long, Option.map_map]
    exact Option.map_congr fun p _ => pin_x_inner first last

theorem pin_outer (outer : i = 0 ∨ i + 1 = n) (p q : Point) : pin a b n i q = pin a b n i p := by
  rcases outer with rfl | rfl
  · rfl
  · cases i <;> simp [pin]

theorem pin_congr (long : 4 ≤ n) (within : i < n) (rows : 0 < i → i + 1 < n → q.y = p.y)
    (columns : 1 < i → i + 2 < n → q.x = p.x) : pin a b n i q = pin a b n i p := by
  obtain outer | ⟨low, high⟩ : (i = 0 ∨ i + 1 = n) ∨ 0 < i ∧ i + 1 < n := by omega
  · exact pin_outer outer p q
  · refine Point.ext ?_ (by rw [pin_y low high, pin_y low high, rows low high])
    obtain first | last | ⟨first, last⟩ : i ≤ 1 ∨ n ≤ i + 2 ∨ 1 < i ∧ i + 2 < n := by omega
    · rw [pin_x_first first long, pin_x_first first long]
    · rw [pin_x_last last within long, pin_x_last last within long]
    · rw [pin_x_inner first last, pin_x_inner first last, columns first last]

theorem SameInside.anchor_eq (same : ps.SameInside qs) (long : 4 ≤ ps.length) (a b : Point) :
    qs.anchor a b = ps.anchor a b := by
  refine List.ext_getElem? fun i => ?_
  rw [getElem?_anchor (same.length ▸ long), getElem?_anchor long, same.length]
  by_cases within : i < ps.length
  · obtain ⟨p, hp⟩ : ∃ p, ps[i]? = some p := ⟨_, List.getElem?_eq_getElem within⟩
    obtain ⟨q, hq⟩ : ∃ q, qs[i]? = some q := ⟨_, List.getElem?_eq_getElem (same.length ▸ within)⟩
    have rows := same.rows i
    have columns := same.columns i
    rw [hp, hq, Option.map_some, Option.map_some, Option.some.injEq] at rows columns ⊢
    exact pin_congr long within rows columns
  · have past : ps.length ≤ i := Nat.le_of_not_lt within
    rw [List.getElem?_eq_none past, List.getElem?_eq_none (Nat.le_trans (Nat.le_of_eq same.length) past)]

/-- There is one plan at most that has given ends and the inside of another, and anchoring finds it. -/
theorem anchor_eq_iff (long : 4 ≤ ps.length) (valid : qs.isValid = true) : ps.anchor a b = qs ↔
    qs.head? = some a ∧ qs.getLast? = some b ∧ ps.SameInside qs := by
  constructor
  · rintro rfl
    obtain ⟨first, last⟩ := (anchor_eq_self_iff valid).1 (anchor_anchor long)
    exact ⟨first, last, sameInside_anchor long a b⟩
  · rintro ⟨first, last, same⟩
    rw [← same.anchor_eq long, (anchor_eq_self_iff valid).2 ⟨first, last⟩]

end Plan

namespace Route

variable {r : Route} {a b : Point} {qs : Plan} {stops : List (Point × Point)}

theorem reanchor_eq_segmented_iff_sameInside : r.reanchor a b = segmented qs ↔
    qs.isValid = true ∧ qs.head? = some a ∧ qs.getLast? = some b ∧
      ∃ ps, r = segmented ps ∧ ps.isValid = true ∧ ps.SameInside qs := by
  cases r with
  | straight => simp
  | segmented ps =>
    rw [reanchor_eq_segmented_iff]
    constructor
    · rintro ⟨valid, kept, anchored⟩
      obtain ⟨first, last, same⟩ :=
        (Plan.anchor_eq_iff (Plan.length_of_isValid valid) kept).1 anchored
      exact ⟨kept, first, last, ps, rfl, valid, same⟩
    · rintro ⟨kept, first, last, ts, was, valid, same⟩
      obtain rfl := segmented.inj was
      exact ⟨valid, kept,
        (Plan.anchor_eq_iff (Plan.length_of_isValid valid) kept).2 ⟨first, last, same⟩⟩

theorem reanchor_reanchor_of_isSegmented (kept : (r.reanchor a b).isSegmented = true) (a' b' : Point) :
    (r.reanchor a b).reanchor a' b' = r.reanchor a' b' := by
  rcases reanchor_reanchor r a b a' b' with same | lost
  · exact same
  · rw [lost] at kept
    exact absurd kept (by decide)

def via (r : Route) (stops : List (Point × Point)) : Route :=
  stops.foldl (fun r stop => r.reanchor stop.1 stop.2) r

theorem via_cons (r : Route) (stop : Point × Point) (stops : List (Point × Point)) :
    r.via (stop :: stops) = (r.reanchor stop.1 stop.2).via stops := rfl

theorem via_straight (stops : List (Point × Point)) : straight.via stops = straight := by
  induction stops with
  | nil => rfl
  | cons stop stops ih => rw [via_cons, reanchor_straight, ih]

/-- A route that is straight stays so, hence one that is a plan at the last stop was one at each. -/
theorem reanchor_via_of_isSegmented (kept : (r.via stops).isSegmented = true) (a b : Point) :
    (r.via stops).reanchor a b = r.reanchor a b := by
  induction stops generalizing r with
  | nil => rfl
  | cons stop stops ih =>
    rw [via_cons] at kept ⊢
    rw [ih kept]
    cases early : r.reanchor stop.1 stop.2 with
    | straight =>
      rw [early, via_straight] at kept
      exact absurd kept (by decide)
    | segmented ps => rw [← early, reanchor_reanchor_of_isSegmented (by rw [early]; rfl)]

/-- A route that follows its anchors becomes straight, or the one plan between them that has the inside
of the plan it was; a plan stays as it is at the anchors it has. A route that is a plan at some anchors
goes on from them as it would have without, and so does one that was at any number of anchors. -/
theorem reanchor_via (r : Route) (a b : Point) :
    (∀ qs, r.reanchor a b = segmented qs ↔
      qs.isValid = true ∧ qs.head? = some a ∧ qs.getLast? = some b ∧
        ∃ ps, r = segmented ps ∧ ps.isValid = true ∧ ps.SameInside qs) ∧
    (∀ ps, r = segmented ps → ps.isValid = true → ps.head? = some a → ps.getLast? = some b →
      r.reanchor a b = r) ∧
    ((r.reanchor a b).isSegmented = true →
      ∀ a' b', (r.reanchor a b).reanchor a' b' = r.reanchor a' b') ∧
    ∀ stops, (r.via stops).isSegmented = true → (r.via stops).reanchor a b = r.reanchor a b := by
  refine ⟨fun qs => reanchor_eq_segmented_iff_sameInside, ?_, ?_, ?_⟩
  · rintro ps rfl valid first last
    exact reanchor_eq_segmented_iff_sameInside.2
      ⟨valid, first, last, ps, rfl, valid, Plan.SameInside.refl ps⟩
  · exact reanchor_reanchor_of_isSegmented
  · intro stops kept
    exact reanchor_via_of_isSegmented kept a b

/-- A plan whose first two pieces are upright: it bears its outlet in one column only. -/
def stiff : Plan := [⟨0, 0⟩, ⟨0, 10⟩, ⟨0, 20⟩, ⟨40, 20⟩, ⟨40, 40⟩]

/-- Over two stops in that column the plan comes to where it goes at once; a stop in another column
loses it, and the way back does not bring it back. -/
theorem reanchor_via_stiff :
    (stiff.isValid = true ∧ stiff.head? = some ⟨0, 0⟩ ∧ stiff.getLast? = some ⟨40, 40⟩ ∧
      (segmented stiff).reanchor ⟨0, 0⟩ ⟨40, 40⟩ = segmented stiff) ∧
    (((segmented stiff).reanchor ⟨0, -5⟩ ⟨70, 60⟩).isSegmented = true ∧
      ((segmented stiff).reanchor ⟨0, -5⟩ ⟨70, 60⟩).reanchor ⟨0, 0⟩ ⟨40, 40⟩ = segmented stiff) ∧
    (((segmented stiff).via [(⟨0, -5⟩, ⟨70, 60⟩), (⟨0, 30⟩, ⟨-20, 0⟩)]).isSegmented = true ∧
      ((segmented stiff).via [(⟨0, -5⟩, ⟨70, 60⟩), (⟨0, 30⟩, ⟨-20, 0⟩)]).reanchor ⟨0, 0⟩ ⟨40, 40⟩
        = segmented stiff) ∧
    ((segmented stiff).reanchor ⟨5, 0⟩ ⟨40, 40⟩).reanchor ⟨0, 0⟩ ⟨40, 40⟩ = straight := by
  obtain ⟨-, stays, -, travels⟩ := reanchor_via (segmented stiff) ⟨0, 0⟩ ⟨40, 40⟩
  obtain ⟨-, -, goesOn, -⟩ := reanchor_via (segmented stiff) ⟨0, -5⟩ ⟨70, 60⟩
  have home : (segmented stiff).reanchor ⟨0, 0⟩ ⟨40, 40⟩ = segmented stiff :=
    stays stiff rfl (by decide) rfl rfl
  have stopped : ((segmented stiff).reanchor ⟨0, -5⟩ ⟨70, 60⟩).isSegmented = true := by decide
  have stoppedTwice :
      ((segmented stiff).via [(⟨0, -5⟩, ⟨70, 60⟩), (⟨0, 30⟩, ⟨-20, 0⟩)]).isSegmented = true := by decide
  exact ⟨⟨by decide, rfl, rfl, home⟩, ⟨stopped, (goesOn stopped _ _).trans home⟩,
    ⟨stoppedTwice, (travels _ stoppedTwice).trans home⟩, by decide⟩

end Route

end Patchbay
