import Patchbay.Proofs.Optimal

/-!
# Routes under a budget

Every visit is paid from one budget, over all lattices and bend limits, and a visit that finds it
spent does nothing. So the budget bounds how many points are visited, and not what a found route
is: where the search breaks off, the best route so far is as admissible as any other.
-/

namespace Patchbay.Lattice

namespace Field

variable {f : Field} {heading : Heading} {current start : Point} {trail : List Point}
  {length : Nat} {s : Progress}

theorem visited_complete (f : Field) (trail : List Point) (score : Score) (s : Progress) :
    (f.complete trail score s).visited = s.visited := by
  unfold complete
  split <;> rfl

theorem visited_visit (depth : Nat) (within : s.visited ≤ f.budget) :
    (f.visit depth heading current trail length s).visited ≤ f.budget := by
  induction depth generalizing heading current trail length s with
  | zero => exact within
  | succ depth ih =>
    by_cases spent : f.budget ≤ s.visited
    · rw [visit, if_pos spent]
      exact within
    · have paid : s.tick.visited ≤ f.budget := Nat.lt_of_not_le spent
      refine visit_cases (motive := fun t : Progress => t.visited ≤ f.budget) ?_ ?_ ?_ ?_
      · intro _
        exact within
      · intro _
        rw [visited_complete]
        exact paid
      · intro _ _
        exact paid
      · intro _ _
        refine List.foldlRecOn (motive := fun t : Progress => t.visited ≤ f.budget) _ _ paid ?_
        intro s within next _
        exact ih within

end Field

variable {start stop : Point} {budget : Nat} {fs : List Field} {s : Progress}

theorem visited_searchAll (budgets : ∀ f ∈ fs, f.budget = budget) (within : s.visited ≤ budget) :
    (searchAll start fs s).visited ≤ budget := by
  induction fs generalizing s with
  | nil => exact within
  | cons f fs ih =>
    obtain ⟨hf, hfs⟩ := List.forall_mem_cons.1 budgets
    have first : (f.search start s).visited ≤ budget := by
      rw [← hf] at within ⊢
      exact Field.visited_visit _ within
    simp only [searchAll]
    split
    · exact first
    · exact ih hfs first

theorem visited_deepen {fields : Nat → List Field}
    (budgets : ∀ limit, ∀ f ∈ fields limit, f.budget = budget) (rounds limit : Nat) {visited : Nat}
    (within : visited ≤ budget) :
    (deepen fields start budget rounds limit visited).visited ≤ budget := by
  induction rounds generalizing limit visited with
  | zero => exact within
  | succ rounds ih =>
    have round : (searchAll start (fields limit) ⟨visited, none⟩).visited ≤ budget :=
      visited_searchAll (budgets limit) within
    simp only [deepen]
    split
    · exact round
    · exact ih (limit + 2) round

theorem deepen_keeps {P : Score → Plan → Prop} {fields : Nat → List Field} (rounds limit visited : Nat)
    (found : ∀ j < rounds, ∀ f ∈ fields (limit + 2 * j), ∀ ps, f.Offers start ps → P ps.score ps) :
    (deepen fields start budget rounds limit visited).Keeps P := by
  induction rounds generalizing limit visited with
  | zero =>
    intro score ps held
    exact absurd held (by simp [deepen])
  | succ rounds ih =>
    simp only [deepen]
    split
    · refine searchAll_sound ?_ (found 0 (Nat.succ_pos rounds))
      intro score ps held
      exact absurd held (by simp)
    · refine ih (limit + 2) _ fun j hj => ?_
      have next : limit + 2 + 2 * j = limit + 2 * (j + 1) := by omega
      rw [next]
      exact found (j + 1) (Nat.succ_lt_succ hj)

theorem Alternates.isAxisAligned {heading : Heading} {ss : List Segment}
    (alternates : Alternates heading ss) : ∀ s ∈ ss, s.isAxisAligned = true := by
  induction ss generalizing heading with
  | nil =>
    intro s hs
    exact absurd hs List.not_mem_nil
  | cons s ss ih =>
    obtain ⟨first, rest⟩ := Field.alternates_cons.1 alternates
    refine List.forall_mem_cons.2 ⟨?_, ih rest⟩
    cases heading with
    | vertical => simp [Segment.isAxisAligned, Segment.isVertical, first.1]
    | horizontal => simp [Segment.isAxisAligned, Segment.isHorizontal, first.1]

variable {obstacles : List Rect} {settings : RoutingSettings} {ps : Plan}

theorem Admissible.isValid (route : Admissible start stop obstacles settings ps)
    (bent : 2 < ps.length) : ps.isValid = true := by
  obtain ⟨first, hfirst, down, -⟩ := route.leaves
  obtain ⟨last, hlast, up, -⟩ := route.enters
  have long : 4 ≤ ps.length := by
    have even := route.bends_mod
    simp only [Plan.bends] at even
    omega
  simp [Plan.isValid, long, hfirst, hlast, Segment.isVertical, down, up,
    List.all_eq_true.2 route.alternates.isAxisAligned]

/-- Whatever was found, with the budget spent or not. -/
theorem admissible_of_findPlan {start stop : Point}
    (found : findPlan start stop obstacles settings = some ps) :
    Admissible start stop obstacles settings ps := by
  obtain ⟨⟨score, qs⟩, hbest, rfl⟩ := Option.map_eq_some_iff.1 found
  refine deepen_keeps (P := fun _ ps => Admissible start stop obstacles settings ps) _ _ _ ?_ score qs
    hbest
  intro j hj f hf ps offered
  exact ((offers_iff (by omega)).1 ⟨f, hf, offered⟩).1

/-- A search visits no more points than its budget allows. Whatever it then found, with the budget
spent or not, is admissible, and the route that a cable gets from it is a plan if it bends. -/
theorem findPlan_sound (start stop : Point) (obstacles : List Rect) (settings : RoutingSettings) :
    (explore start stop obstacles settings).visited ≤ settings.maxExpansions ∧
    (∀ ps, findPlan start stop obstacles settings = some ps →
      Admissible start stop obstacles settings ps) ∧
    ∀ ps, Route.around start stop obstacles settings = .segmented ps → ps.isValid = true := by
  have sound : ∀ ps, findPlan start stop obstacles settings = some ps →
      Admissible start stop obstacles settings ps := fun ps found => admissible_of_findPlan found
  refine ⟨?_, sound, ?_⟩
  · refine visited_deepen ?_ _ _ (Nat.zero_le _)
    intro limit f hf
    obtain ⟨n, -, rfl⟩ := List.mem_map.1 hf
    rfl
  · intro ps hps
    unfold Route.around at hps
    split at hps
    · next qs hplan =>
      split at hps
      · next bent =>
        obtain rfl := Route.segmented.inj hps
        exact (sound qs hplan).isValid bent
      · exact absurd hps (by simp)
    · exact absurd hps (by simp)

/-- A budget that is spent with a route at hand, which is not yet known to be the best. -/
example : (explore ⟨60, 120⟩ ⟨0, 0⟩ [] { maxExpansions := 40 }).visited = 40 ∧
    (findPlan ⟨60, 120⟩ ⟨0, 0⟩ [] { maxExpansions := 40 }).isSome := by
  decide +kernel

end Patchbay.Lattice
