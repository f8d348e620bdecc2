import Patchbay.Proofs.Branch

/-!
# The best route

The lattices of one bend limit share the best route, and the limit grows until there is one. The
first limit that has a route has the one with the fewest bends: what a higher limit adds bends more
often than the limit before it allowed.
-/

namespace Patchbay

def Plan.score (ps : Plan) : Lattice.Score := ⟨ps.bends, ps.stretch⟩

namespace Lattice

namespace Field

variable {f : Field} {start : Point} {ps : Plan} {s : Progress} {rest : List Point}

/-- The routes from a point that a search on the lattice may find. -/
def Offers (f : Field) (start : Point) (ps : Plan) : Prop :=
  ∃ rest, ps = start :: rest ∧ f.Leaves start rest ∧ ps.bends ≤ f.maxBends

theorem way_iff_leaves : f.Way .vertical start [] rest ↔
    f.Leaves start rest ∧ Plan.bends (start :: rest) ≤ f.maxBends := by
  have hlen : Plan.bends (start :: rest) = rest.length - 1 := rfl
  constructor
  · intro way
    have few := way.few
    rw [List.length_nil] at few
    exact ⟨⟨way.walk, way.down rfl rfl⟩, by omega⟩
  · rintro ⟨⟨walk, down⟩, bends⟩
    refine ⟨walk, fun _ _ => down, ?_⟩
    rw [List.length_nil]
    omega

theorem reach_start : reach start [] 0 rest = Plan.score (start :: rest) := by
  simp only [reach, Plan.score, Plan.bends, List.length_nil, List.length_cons, Score.mk.injEq]
  omega

theorem search_sound {P : Score → Plan → Prop} (held : s.Keeps P)
    (found : ∀ ps, f.Offers start ps → P ps.score ps) : (f.search start s).Keeps P := by
  refine visit_sound _ held (fun _ => Nat.zero_le _) ?_
  intro rest way
  obtain ⟨leaves, bends⟩ := way_iff_leaves.1 way
  have hfound := found (start :: rest) ⟨rest, rfl, leaves, bends⟩
  rw [← reach_start] at hfound
  exact hfound

theorem search_covers (within : (f.search start s).visited < f.budget)
    (offers : f.Offers start ps) : (f.search start s).isBeatenBy ps.score = false := by
  obtain ⟨rest, rfl, leaves, bends⟩ := offers
  rw [← reach_start]
  exact visit_covers _ (by simp) within (way_iff_leaves.2 ⟨leaves, bends⟩)

end Field

variable {start : Point} {budget : Nat} {fs : List Field} {s : Progress}

theorem leads_searchAll (start : Point) (fs : List Field) (s : Progress) :
    s.Leads (searchAll start fs s) := by
  induction fs generalizing s with
  | nil => exact .refl s
  | cons f fs ih =>
    have first : s.Leads (f.search start s) := Field.leads_visit f _ _ _ _ _ _
    simp only [searchAll]
    split
    · exact first
    · exact first.trans (ih _)

theorem searchAll_sound {P : Score → Plan → Prop} (held : s.Keeps P)
    (found : ∀ f ∈ fs, ∀ ps, f.Offers start ps → P ps.score ps) :
    (searchAll start fs s).Keeps P := by
  induction fs generalizing s with
  | nil => exact held
  | cons f fs ih =>
    obtain ⟨hf, hfs⟩ := List.forall_mem_cons.1 found
    have first := Field.search_sound held hf
    simp only [searchAll]
    split
    · exact first
    · exact ih first hfs

theorem searchAll_covers (budgets : ∀ f ∈ fs, f.budget = budget)
    (within : (searchAll start fs s).visited < budget) {f : Field} (mem : f ∈ fs) {ps : Plan}
    (offers : f.Offers start ps) : (searchAll start fs s).isBeatenBy ps.score = false := by
  induction fs generalizing s with
  | nil => exact absurd mem List.not_mem_nil
  | cons g fs ih =>
    obtain ⟨hg, hfs⟩ := List.forall_mem_cons.1 budgets
    simp only [searchAll] at within ⊢
    split at within
    · next spent => omega
    · next unspent =>
      rw [if_neg unspent]
      rcases List.mem_cons.1 mem with rfl | mem
      · exact (leads_searchAll start fs _).unbeaten _
          (Field.search_covers (Nat.lt_of_not_le unspent) offers)
      · exact ih hfs within mem

/-- The route is one of those on some lattices, and none of them is better. -/
def IsBest (fs : List Field) (start : Point) (score : Score) (ps : Plan) : Prop :=
  (∃ f ∈ fs, f.Offers start ps) ∧ score = ps.score ∧
    ∀ f ∈ fs, ∀ other, f.Offers start other → ps.score ≤ other.score

theorem searchAll_isBest (budgets : ∀ f ∈ fs, f.budget = budget) {visited : Nat}
    (within : (searchAll start fs ⟨visited, none⟩).visited < budget) :
    (searchAll start fs ⟨visited, none⟩).Keeps (IsBest fs start) := by
  intro score ps hbest
  have sound : (searchAll start fs ⟨visited, none⟩).Keeps fun score ps =>
      (∃ f ∈ fs, f.Offers start ps) ∧ score = ps.score := by
    refine searchAll_sound ?_ ?_
    · intro score ps held
      exact absurd held (by simp)
    · intro f hf ps offers
      exact ⟨⟨f, hf, offers⟩, rfl⟩
  obtain ⟨offered, rfl⟩ := sound score ps hbest
  refine ⟨offered, rfl, ?_⟩
  intro f hf other offers
  obtain ⟨best, qs, hheld, hle⟩ := Progress.isBeatenBy_eq_false_iff.1
    (searchAll_covers budgets within hf offers)
  obtain ⟨rfl, -⟩ := Prod.mk.inj (Option.some.inj (hbest.symm.trans hheld))
  exact hle

theorem searchAll_best_none (budgets : ∀ f ∈ fs, f.budget = budget)
    (within : (searchAll start fs s).visited < budget) (none : (searchAll start fs s).best = none) :
    ∀ f ∈ fs, ∀ ps, ¬f.Offers start ps := by
  intro f hf ps offers
  obtain ⟨best, qs, held, -⟩ := Progress.isBeatenBy_eq_false_iff.1
    (searchAll_covers budgets within hf offers)
  rw [none] at held
  exact absurd held (by simp)

/-- Within the budget, the limit is raised until there is a route, and then the best is kept. -/
theorem deepen_spec {fields : Nat → List Field}
    (budgets : ∀ limit, ∀ f ∈ fields limit, f.budget = budget) (rounds limit visited : Nat)
    (within : (deepen fields start budget rounds limit visited).visited < budget) :
    ((deepen fields start budget rounds limit visited).best = none →
      ∀ j < rounds, ∀ f ∈ fields (limit + 2 * j), ∀ ps, ¬f.Offers start ps) ∧
    (deepen fields start budget rounds limit visited).Keeps fun score ps =>
      ∃ j < rounds, IsBest (fields (limit + 2 * j)) start score ps := by
  induction rounds generalizing limit visited with
  | zero =>
    refine ⟨fun _ j hj => absurd hj (Nat.not_lt_zero j), ?_⟩
    intro score ps held
    exact absurd held (by simp [deepen])
  | succ rounds ih =>
    simp only [deepen] at within ⊢
    split at within
    · next stop =>
      rw [if_pos stop]
      constructor
      · intro none
        simp only [none, Bool.or_eq_true, decide_eq_true_iff, Option.isSome_none,
          Bool.false_eq_true, or_false] at stop
        omega
      · intro score ps hbest
        exact ⟨0, Nat.succ_pos rounds, searchAll_isBest (budgets limit) within score ps hbest⟩
    · next go =>
      rw [if_neg go]
      obtain ⟨unspent, nothing⟩ :
          (searchAll start (fields limit) ⟨visited, none⟩).visited < budget ∧
          (searchAll start (fields limit) ⟨visited, none⟩).best = none := by
        simpa using go
      obtain ⟨hnone, hsome⟩ := ih (limit + 2) _ within
      have next (j : Nat) : limit + 2 * (j + 1) = limit + 2 + 2 * j := by omega
      constructor
      · intro none j hj
        cases j with
        | zero => exact searchAll_best_none (budgets limit) unspent nothing
        | succ j =>
          rw [next]
          exact hnone none j (Nat.lt_of_succ_lt_succ hj)
      · intro score ps hbest
        obtain ⟨j, hj, best⟩ := hsome score ps hbest
        refine ⟨j + 1, Nat.succ_lt_succ hj, ?_⟩
        rw [next]
        exact best

variable {stop : Point} {obstacles : List Rect} {settings : RoutingSettings} {ps : Plan}

theorem Admissible.bends_mod (route : Admissible start stop obstacles settings ps) :
    ps.bends % 2 = 0 := by
  obtain ⟨n, -, rest, rfl, ⟨walk, -⟩, -⟩ := (admissible_iff 0).1 route
  have hmod := walk.length_mod
  have hbends : Plan.bends (start :: rest) = rest.length - 1 := rfl
  rw [if_pos rfl] at hmod
  omega

theorem offers_iff {limit : Nat} (low : limit ≤ settings.maxBends) :
    (∃ f ∈ resolutions.map (field start stop obstacles settings limit), f.Offers start ps) ↔
      Admissible start stop obstacles settings ps ∧ ps.bends ≤ limit := by
  constructor
  · rintro ⟨f, hf, rest, hps, leaves, bends⟩
    obtain ⟨n, hn, rfl⟩ := List.mem_map.1 hf
    exact ⟨(admissible_iff limit).2 ⟨n, hn, rest, hps, leaves, Nat.le_trans bends low⟩, bends⟩
  · rintro ⟨route, bends⟩
    obtain ⟨n, hn, rest, hps, leaves, -⟩ := (admissible_iff limit).1 route
    exact ⟨_, List.mem_map_of_mem hn, rest, hps, leaves, bends⟩

/-- A search within its budget finds no route only where none is admissible, and else an admissible
one with the fewest bends and, among those, of the least length. -/
theorem findPlan_optimal (start stop : Point) (obstacles : List Rect) (settings : RoutingSettings)
    (within : (explore start stop obstacles settings).visited < settings.maxExpansions) :
    (findPlan start stop obstacles settings = none ↔
      ¬∃ ps, Admissible start stop obstacles settings ps) ∧
    ∀ ps, findPlan start stop obstacles settings = some ps →
      Admissible start stop obstacles settings ps ∧
      ∀ other, Admissible start stop obstacles settings other →
        ps.bends < other.bends ∨ ps.bends = other.bends ∧ ps.stretch ≤ other.stretch := by
  have budgets (limit : Nat) : ∀ f ∈ resolutions.map (field start stop obstacles settings limit),
      f.budget = settings.maxExpansions := by
    intro f hf
    obtain ⟨n, -, rfl⟩ := List.mem_map.1 hf
    rfl
  obtain ⟨hnone, hsome⟩ := deepen_spec budgets (settings.maxBends / 2 + 1) 0 0 within
  have low {j : Nat} (hj : j < settings.maxBends / 2 + 1) : 0 + 2 * j ≤ settings.maxBends := by
    omega
  have best : ∀ ps, findPlan start stop obstacles settings = some ps →
      Admissible start stop obstacles settings ps ∧
      ∀ other, Admissible start stop obstacles settings other → ps.score ≤ other.score := by
    intro ps hps
    obtain ⟨⟨score, qs⟩, hbest, rfl⟩ := Option.map_eq_some_iff.1 hps
    obtain ⟨j, hj, offered, -, least⟩ := hsome score qs hbest
    obtain ⟨route, bends⟩ := (offers_iff (low hj)).1 offered
    refine ⟨route, fun other hother => ?_⟩
    -- Either the limit that found the route has the other one too, or the other one bends more.
    by_cases few : other.bends ≤ 0 + 2 * j
    · obtain ⟨f, hf, offers⟩ := (offers_iff (low hj)).2 ⟨hother, few⟩
      exact least f hf other offers
    · exact Or.inl (Nat.lt_of_le_of_lt bends (Nat.lt_of_not_le few))
  refine ⟨⟨?_, ?_⟩, best⟩
  · rintro nothing ⟨ps, route⟩
    have last : settings.maxBends / 2 < settings.maxBends / 2 + 1 := Nat.lt_succ_self _
    have hmod := route.bends_mod
    have hbends := route.bends
    obtain ⟨f, hf, offers⟩ := (offers_iff (low last)).2 ⟨route, by omega⟩
    exact hnone (Option.map_eq_none_iff.1 nothing) _ last f hf ps offers
  · intro nothing
    cases hplan : findPlan start stop obstacles settings with
    | none => rfl
    | some ps => exact absurd ⟨ps, (best ps hplan).1⟩ nothing

/-- From an outlet below and beside the inlet. -/
theorem findPlan_upward :
    (explore ⟨60, 120⟩ ⟨0, 0⟩ [] {}).visited < ({} : RoutingSettings).maxExpansions ∧
      ∃ ps, findPlan ⟨60, 120⟩ ⟨0, 0⟩ [] {} = some ps ∧ Admissible ⟨60, 120⟩ ⟨0, 0⟩ [] {} ps ∧
        ∀ other, Admissible ⟨60, 120⟩ ⟨0, 0⟩ [] {} other →
          ps.bends < other.bends ∨ ps.bends = other.bends ∧ ps.stretch ≤ other.stretch := by
  have within :
      (explore ⟨60, 120⟩ ⟨0, 0⟩ [] {}).visited < ({} : RoutingSettings).maxExpansions := by
    decide +kernel
  have found : (findPlan ⟨60, 120⟩ ⟨0, 0⟩ [] {}).isSome := by decide +kernel
  obtain ⟨ps, hps⟩ := Option.isSome_iff_exists.1 found
  obtain ⟨route, least⟩ := (findPlan_optimal ⟨60, 120⟩ ⟨0, 0⟩ [] {} within).2 ps hps
  exact ⟨within, ps, hps, route, least⟩

end Lattice

end Patchbay
