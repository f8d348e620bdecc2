import Patchbay.Proofs.Budget

/-!
# Routes under larger limits

A search with more to spend does what one with less does until that one has spent it, and goes on from
there to better routes only. A higher bend limit comes after all that were tried before, and the search
ends at the first that has a route.
-/

namespace Patchbay.Lattice

namespace Progress

variable {s t : Progress} {budget : Nat} {score : Score} {ps : Plan}

theorem Leads.exists_le (leads : s.Leads t) (held : s.best = some (score, ps)) :
    ∃ best qs, t.best = some (best, qs) ∧ best ≤ score := by
  have unbeaten : s.isBeatenBy score = false :=
    isBeatenBy_eq_false_iff.2 ⟨score, ps, held, Score.le_rfl⟩
  exact isBeatenBy_eq_false_iff.1 (leads.unbeaten score unbeaten)

/-- Two searches stand at one point, or one has spent its budget there and the other went on. -/
def OutrunBy (budget : Nat) (s t : Progress) : Prop := s = t ∨ budget ≤ s.visited ∧ s.Leads t

theorem Leads.outrunBy (leads : s.Leads t) (spent : budget ≤ s.visited) : s.OutrunBy budget t :=
  Or.inr ⟨spent, leads⟩

theorem OutrunBy.leads (outrun : s.OutrunBy budget t) : s.Leads t := by
  rcases outrun with rfl | ⟨-, leads⟩
  · exact .refl s
  · exact leads

theorem OutrunBy.eq_of_lt (outrun : s.OutrunBy budget t) (within : s.visited < budget) : s = t := by
  rcases outrun with same | ⟨spent, -⟩
  · exact same
  · omega

end Progress

namespace Field

variable {f : Field} {s t : Progress} {larger : Nat}

def withBudget (f : Field) (budget : Nat) : Field := { f with budget := budget }

theorem withBudget_self (f : Field) : f.withBudget f.budget = f := rfl

theorem visit_withBudget (depth : Nat) (heading : Heading) (current : Point) (trail : List Point)
    (length : Nat) (within : s.visited < larger) :
    (f.withBudget larger).visit (depth + 1) heading current trail length s =
      if f.finishes heading current then
        f.complete (current :: trail) ⟨trail.length, length + current.manhattan f.goal⟩ s.tick
      else if f.maxBends < trail.length + f.bendsLeft heading current then s.tick
      else if !s.tick.isBeatenBy (f.bound heading current trail length) then s.tick
      else (f.moves heading current trail.length).foldl
        (fun s next => (f.withBudget larger).visit depth heading.turn next (current :: trail)
          (length + current.manhattan next) s) s.tick := by
  have unspent : ¬(f.withBudget larger).budget ≤ s.visited := Nat.not_le.2 within
  rw [visit, if_neg unspent]
  rfl

theorem outrun_visit (more : f.budget ≤ larger) (depth : Nat) {heading : Heading} {current : Point}
    {trail : List Point} {length : Nat} (outrun : s.OutrunBy f.budget t) :
    (f.visit depth heading current trail length s).OutrunBy f.budget
      ((f.withBudget larger).visit depth heading current trail length t) := by
  induction depth generalizing heading current trail length s t with
  | zero => exact outrun
  | succ depth ih =>
    by_cases spent : f.budget ≤ s.visited
    · have halts : f.visit (depth + 1) heading current trail length s = s := by
        rw [visit, if_pos spent]
      rw [halts]
      exact (outrun.leads.trans (leads_visit _ _ _ _ _ _ _)).outrunBy spent
    · have within : s.visited < f.budget := Nat.lt_of_not_le spent
      obtain rfl := outrun.eq_of_lt within
      have paid := visit_withBudget (f := f) depth heading current trail length within
      rw [withBudget_self] at paid
      rw [paid, visit_withBudget depth heading current trail length (Nat.lt_of_lt_of_le within more)]
      -- Both complete a route, are cut or branch, and only where they branch do the budgets tell.
      split
      · exact Or.inl rfl
      · split
        · exact Or.inl rfl
        · split
          · exact Or.inl rfl
          · exact List.foldl_rel (Or.inl rfl) fun next _ s t outrun => ih outrun

end Field

variable {start stop : Point} {budget larger : Nat} {fs : List Field} {s t : Progress}

theorem outrun_searchAll (budgets : ∀ f ∈ fs, f.budget = budget) (more : budget ≤ larger)
    (outrun : s.OutrunBy budget t) : (searchAll start fs s).OutrunBy budget
      (searchAll start (fs.map (·.withBudget larger)) t) := by
  induction fs generalizing s t with
  | nil => exact outrun
  | cons f fs ih =>
    obtain ⟨rfl, rest⟩ := List.forall_mem_cons.1 budgets
    have first : (f.search start s).OutrunBy f.budget ((f.withBudget larger).search start t) :=
      Field.outrun_visit more _ outrun
    simp only [searchAll, List.map_cons]
    split
    · next spent =>
      refine (first.leads.trans ?_).outrunBy spent
      split
      · exact .refl _
      · exact leads_searchAll start _ _
    · next unspent =>
      have same := first.eq_of_lt (Nat.lt_of_not_le unspent)
      have unspent' : ¬(f.withBudget larger).budget ≤ ((f.withBudget larger).search start t).visited := by
        rw [← same]
        exact fun spent => unspent (Nat.le_trans more spent)
      rw [if_neg unspent']
      exact ih rest first

/-- Where the smaller budget was enough to find a route, the larger one ends at the same limit. -/
theorem outrun_deepen {fields : Nat → List Field}
    (budgets : ∀ limit, ∀ f ∈ fields limit, f.budget = budget) (more : budget ≤ larger)
    (rounds limit visited : Nat)
    (found : (deepen fields start budget rounds limit visited).best.isSome = true) :
    (deepen fields start budget rounds limit visited).OutrunBy budget
      (deepen (fun limit => (fields limit).map (·.withBudget larger)) start larger rounds limit
        visited) := by
  induction rounds generalizing limit visited with
  | zero => exact Or.inl rfl
  | succ rounds ih =>
    have round : (searchAll start (fields limit) ⟨visited, none⟩).OutrunBy budget
        (searchAll start ((fields limit).map (·.withBudget larger)) ⟨visited, none⟩) :=
      outrun_searchAll (budgets limit) more (Or.inl rfl)
    simp only [deepen] at found ⊢
    split at found
    · next halts =>
      obtain ⟨⟨score, ps⟩, held⟩ := Option.isSome_iff_exists.1 found
      obtain ⟨best, qs, held', -⟩ := round.leads.exists_le held
      rw [if_pos halts, if_pos (by rw [held', Option.isSome_some, Bool.or_true])]
      exact round
    · next goesOn =>
      obtain ⟨unspent, nothing⟩ : (searchAll start (fields limit) ⟨visited, none⟩).visited < budget ∧
          (searchAll start (fields limit) ⟨visited, none⟩).best = none := by
        simpa using goesOn
      have unspent' : ¬larger ≤ (searchAll start (fields limit) ⟨visited, none⟩).visited := by omega
      rw [← round.eq_of_lt unspent, if_neg goesOn, if_neg (by simp [nothing, unspent'])]
      exact ih (limit + 2) _ found

theorem deepen_of_le {fields : Nat → List Field} {rounds further : Nat} (le : rounds ≤ further)
    (limit visited : Nat)
    (found : (deepen fields start budget rounds limit visited).best.isSome = true) :
    deepen fields start budget further limit visited
      = deepen fields start budget rounds limit visited := by
  induction rounds generalizing further limit visited with
  | zero => exact absurd found (by simp [deepen])
  | succ rounds ih =>
    obtain ⟨further, rfl⟩ := Nat.exists_eq_add_of_le' (Nat.lt_of_lt_of_le (Nat.succ_pos rounds) le)
    simp only [deepen] at found ⊢
    split at found
    · next halts => rw [if_pos halts, if_pos halts]
    · next goesOn =>
      rw [if_neg goesOn, if_neg goesOn]
      exact ih (Nat.le_of_succ_le_succ le) (limit + 2) _ found

variable {obstacles : List Rect} {settings : RoutingSettings} {ps : Plan}

theorem score_explore :
    (explore start stop obstacles settings).Keeps fun score ps => score = ps.score :=
  deepen_keeps _ _ _ fun _ _ _ _ _ _ => rfl

theorem budget_lattices (limit : Nat) :
    ∀ f ∈ resolutions.map (field start stop obstacles settings limit),
      f.budget = settings.maxExpansions := by
  intro f hf
  obtain ⟨n, -, rfl⟩ := List.mem_map.1 hf
  rfl

theorem explore_withBudget (start stop : Point) (obstacles : List Rect) (settings : RoutingSettings)
    (budget : Nat) : explore start stop obstacles { settings with maxExpansions := budget } =
      deepen (fun limit => (resolutions.map (field start stop obstacles settings limit)).map
        (·.withBudget budget)) start budget (settings.maxBends / 2 + 1) 0 0 := by
  simp only [List.map_map]
  rfl

/-- A route that is found is found under every larger budget, unless a better one is then, and it is
the one that is found under every higher bend limit. -/
theorem findPlan_mono (start stop : Point) (obstacles : List Rect) (settings : RoutingSettings)
    (found : findPlan start stop obstacles settings = some ps) :
    (∀ budget, settings.maxExpansions ≤ budget → ∃ qs,
      findPlan start stop obstacles { settings with maxExpansions := budget } = some qs ∧
      (qs.bends < ps.bends ∨ qs.bends = ps.bends ∧ qs.stretch ≤ ps.stretch)) ∧
    ∀ limit, settings.maxBends ≤ limit →
      findPlan start stop obstacles { settings with maxBends := limit } = some ps := by
  obtain ⟨⟨score, route⟩, held, rfl⟩ := Option.map_eq_some_iff.1 found
  have some : (explore start stop obstacles settings).best.isSome = true := by
    rw [held, Option.isSome_some]
  constructor
  · intro budget larger
    have outrun := outrun_deepen budget_lattices larger (settings.maxBends / 2 + 1) 0 0 some
    rw [← explore_withBudget] at outrun
    obtain ⟨best, qs, held', le⟩ := outrun.leads.exists_le held
    obtain rfl := score_explore score route held
    obtain rfl := score_explore best qs held'
    exact ⟨qs, by rw [findPlan, held', Option.map_some], le⟩
  · intro limit higher
    have rounds : settings.maxBends / 2 + 1 ≤ limit / 2 + 1 := by omega
    have same : explore start stop obstacles { settings with maxBends := limit }
        = explore start stop obstacles settings := deepen_of_le rounds 0 0 some
    rw [findPlan, same]
    exact found

/-- Twenty visits find a way around from an outlet below the inlet, and fifty a shorter one. -/
theorem findPlan_mono_hurried :
    let hurried : Plan := [⟨60, 120⟩, ⟨60, 160⟩, ⟨20, 160⟩, ⟨20, -40⟩, ⟨0, -40⟩, ⟨0, 0⟩];
    findPlan ⟨60, 120⟩ ⟨0, 0⟩ [] { maxExpansions := 20 } = some hurried ∧
    (∃ qs, findPlan ⟨60, 120⟩ ⟨0, 0⟩ [] { maxExpansions := 50 } = some qs ∧
      (qs.bends < hurried.bends ∨ qs.bends = hurried.bends ∧ qs.stretch ≤ hurried.stretch)) ∧
    findPlan ⟨60, 120⟩ ⟨0, 0⟩ [] { maxExpansions := 50 } ≠ some hurried ∧
    findPlan ⟨60, 120⟩ ⟨0, 0⟩ [] { maxExpansions := 20, maxBends := 9 } = some hurried := by
  intro hurried
  have found : findPlan ⟨60, 120⟩ ⟨0, 0⟩ [] { maxExpansions := 20 } = some hurried := by
    decide +kernel
  obtain ⟨richer, laxer⟩ := findPlan_mono ⟨60, 120⟩ ⟨0, 0⟩ [] { maxExpansions := 20 } found
  exact ⟨found, richer 50 (by decide), by decide +kernel, laxer 9 (by decide)⟩

end Patchbay.Lattice
