import Patchbay.Proofs.Walk

/-!
# The search on one lattice

A way is a walk that goes on from a trail within the bend limit. Each rule that cuts the search
leaves out no way that could become the best, so that a search that stays within its budget keeps a
route that no way beats. What it keeps is itself a way from the start.
-/

namespace Patchbay.Lattice

/-- Fewer bends come first, then less length. -/
instance : LE Score := ⟨fun a b => a.bends < b.bends ∨ a.bends = b.bends ∧ a.length ≤ b.length⟩

namespace Score

variable {a b c : Score}

theorem le_def : a ≤ b ↔ a.bends < b.bends ∨ a.bends = b.bends ∧ a.length ≤ b.length := Iff.rfl

theorem beats_eq_false_iff : a.beats b = false ↔ b ≤ a := by
  simp only [beats, le_def, Bool.or_eq_false_iff, Bool.and_eq_false_iff, decide_eq_false_iff_not,
    beq_eq_false_iff_ne]
  omega

theorem le_of_beats (h : a.beats b = true) : a ≤ b := by
  simp only [beats, le_def, Bool.or_eq_true, Bool.and_eq_true, decide_eq_true_iff, beq_iff_eq]
    at h ⊢
  omega

theorem le_rfl : a ≤ a := Or.inr ⟨rfl, Nat.le_refl _⟩

theorem le_trans (hab : a ≤ b) (hbc : b ≤ c) : a ≤ c := by
  simp only [le_def] at *
  omega

end Score

namespace Progress

variable {s t u : Progress} {a b : Score}

theorem isBeatenBy_eq_false_iff :
    s.isBeatenBy a = false ↔ ∃ best ps, s.best = some (best, ps) ∧ best ≤ a := by
  cases h : s.best with
  | none => simp [isBeatenBy, h]
  | some held =>
    obtain ⟨best, ps⟩ := held
    simp [isBeatenBy, h, Score.beats_eq_false_iff]

theorem unbeaten_of_le (unbeaten : s.isBeatenBy a = false) (le : a ≤ b) :
    s.isBeatenBy b = false := by
  obtain ⟨best, ps, held, hle⟩ := isBeatenBy_eq_false_iff.1 unbeaten
  exact isBeatenBy_eq_false_iff.2 ⟨best, ps, held, Score.le_trans hle le⟩

/-- What a search may go on to: it has visited as many nodes and its best route is as good. -/
structure Leads (s t : Progress) : Prop where
  visited : s.visited ≤ t.visited
  unbeaten : ∀ score, s.isBeatenBy score = false → t.isBeatenBy score = false

theorem Leads.refl (s : Progress) : s.Leads s := ⟨Nat.le_refl _, fun _ h => h⟩

theorem Leads.trans (h₁ : s.Leads t) (h₂ : t.Leads u) : s.Leads u :=
  ⟨Nat.le_trans h₁.visited h₂.visited, fun score h => h₂.unbeaten score (h₁.unbeaten score h)⟩

def tick (s : Progress) : Progress := { s with visited := s.visited + 1 }

theorem leads_tick (s : Progress) : s.Leads s.tick := ⟨Nat.le_succ _, fun _ h => h⟩

def Keeps (P : Score → Plan → Prop) (s : Progress) : Prop :=
  ∀ score ps, s.best = some (score, ps) → P score ps

section fold

variable {α : Type} {g : Progress → α → Progress}

theorem leads_foldl (leads : ∀ (s : Progress) x, s.Leads (g s x)) (xs : List α) (s : Progress) :
    s.Leads (xs.foldl g s) := by
  induction xs generalizing s with
  | nil => exact .refl s
  | cons x xs ih => exact (leads s x).trans (ih (g s x))

theorem exists_leads_foldl (leads : ∀ (s : Progress) x, s.Leads (g s x)) {xs : List α} {x : α}
    (mem : x ∈ xs) (s : Progress) : ∃ t, (g t x).Leads (xs.foldl g s) := by
  induction xs generalizing s with
  | nil => exact absurd mem List.not_mem_nil
  | cons y ys ih =>
    rcases List.mem_cons.1 mem with rfl | mem
    · exact ⟨s, leads_foldl leads ys (g s x)⟩
    · exact ih mem (g s y)

end fold

end Progress

namespace Field

variable {f : Field} {heading : Heading} {current : Point} {trail rest : List Point}
  {length depth : Nat} {s : Progress}

theorem leads_complete (f : Field) (trail : List Point) (score : Score) (s : Progress) :
    s.Leads (f.complete trail score s) := by
  unfold complete
  split
  · next beaten =>
    refine ⟨Nat.le_refl _, fun other unbeaten => ?_⟩
    obtain ⟨best, ps, held, hle⟩ := Progress.isBeatenBy_eq_false_iff.1 unbeaten
    have hbeats : score.beats best = true := by simpa [Progress.isBeatenBy, held] using beaten
    exact Progress.isBeatenBy_eq_false_iff.2
      ⟨score, _, rfl, Score.le_trans (Score.le_of_beats hbeats) hle⟩
  · exact .refl s

theorem unbeaten_complete (f : Field) (trail : List Point) (score : Score) (s : Progress) :
    (f.complete trail score s).isBeatenBy score = false := by
  unfold complete
  split
  · exact Progress.isBeatenBy_eq_false_iff.2 ⟨score, _, rfl, Score.le_rfl⟩
  · next unbeaten => simpa using unbeaten

def bound (f : Field) (heading : Heading) (current : Point) (trail : List Point) (length : Nat) :
    Score :=
  ⟨trail.length + f.bendsLeft heading current, length + current.manhattan f.goal⟩

/-- What a visit comes to: the budget is spent, a route is complete, the search is cut, or it
branches. -/
theorem visit_cases {motive : Progress → Prop} (spent : f.budget ≤ s.visited → motive s)
    (complete : f.finishes heading current = true →
      motive
        (f.complete (current :: trail) ⟨trail.length, length + current.manhattan f.goal⟩ s.tick))
    (cut : f.finishes heading current = false →
      f.maxBends < trail.length + f.bendsLeft heading current
        ∨ s.tick.isBeatenBy (f.bound heading current trail length) = false → motive s.tick)
    (branch : f.finishes heading current = false →
      trail.length + f.bendsLeft heading current ≤ f.maxBends →
      motive ((f.moves heading current trail.length).foldl
        (fun s next => f.visit depth heading.turn next (current :: trail)
          (length + current.manhattan next) s) s.tick)) :
    motive (f.visit (depth + 1) heading current trail length s) := by
  unfold visit
  split
  · next h => exact spent h
  · split
    · next h => exact complete h
    · next h =>
      have hf : f.finishes heading current = false := by simpa using h
      dsimp only
      split
      · next h => exact cut hf (Or.inl h)
      · next hl =>
        split
        · next h => exact cut hf (Or.inr ((Bool.not_eq_true' _).mp h))
        · exact branch hf (Nat.le_of_not_lt hl)

theorem leads_visit (f : Field) (depth : Nat) (heading : Heading) (current : Point)
    (trail : List Point) (length : Nat) (s : Progress) :
    s.Leads (f.visit depth heading current trail length s) := by
  induction depth generalizing heading current trail length s with
  | zero => exact .refl s
  | succ depth ih =>
    refine visit_cases ?_ ?_ ?_ ?_
    · intro _
      exact .refl s
    · intro _
      exact s.leads_tick.trans (leads_complete f _ _ _)
    · intro _ _
      exact s.leads_tick
    · intro _ _
      refine s.leads_tick.trans (Progress.leads_foldl ?_ _ _)
      intro s next
      exact ih _ _ _ _ _

/-- A walk that goes on from a trail within the bend limit, downward where it begins. -/
structure Way (f : Field) (heading : Heading) (current : Point) (trail rest : List Point) :
    Prop where
  walk : f.Walk heading current rest
  down : trail = [] → heading = .vertical → ∀ q ∈ rest.head?, current.y < q.y
  few : trail.length + rest.length ≤ f.maxBends + 1

def reach (current : Point) (trail : List Point) (length : Nat) (rest : List Point) : Score :=
  ⟨trail.length + rest.length - 1, length + Plan.stretch (current :: rest)⟩

theorem reach_cons (next : Point) :
    reach current trail length (next :: rest)
      = reach next (current :: trail) (length + current.manhattan next) rest := by
  simp only [reach, Plan.stretch_cons, List.length_cons, Score.mk.injEq]
  omega

theorem mem_moves_vertical {next : Point} {bends : Nat} :
    next ∈ f.moves .vertical current bends ↔
      ∃ y ∈ f.rows, y ≠ current.y ∧ (bends = 0 → current.y ≤ y) ∧
        (f.maxBends < bends + 4 → y < f.goal.y) ∧ f.isClear current (current.withY y) = true ∧
        current.withY y = next := by
  simp only [moves, List.mem_filter, List.mem_map, Bool.not_eq_true', Bool.or_eq_false_iff,
    Bool.and_eq_false_iff, beq_eq_false_iff_ne, decide_eq_false_iff_not]
  constructor
  · rintro ⟨⟨y, ⟨hy, ⟨moved, down⟩, above⟩, rfl⟩, clear⟩
    exact ⟨y, hy, moved, by omega, by omega, clear, rfl⟩
  · rintro ⟨y, hy, moved, down, above, clear, rfl⟩
    exact ⟨⟨y, ⟨hy, ⟨moved, by omega⟩, by omega⟩, rfl⟩, clear⟩

theorem mem_moves_horizontal {next : Point} {bends : Nat} :
    next ∈ f.moves .horizontal current bends ↔
      ∃ x ∈ f.columns, x ≠ current.x ∧ (f.maxBends < bends + 3 → x = f.goal.x) ∧
        f.isClear current (current.withX x) = true ∧ current.withX x = next := by
  simp only [moves, List.mem_filter, List.mem_map, Bool.not_eq_true', Bool.or_eq_false_iff,
    Bool.and_eq_false_iff, beq_eq_false_iff_ne, decide_eq_false_iff_not, bne_eq_false_iff_eq]
  constructor
  · rintro ⟨⟨x, ⟨hx, moved, last⟩, rfl⟩, clear⟩
    exact ⟨x, hx, moved, by omega, clear, rfl⟩
  · rintro ⟨x, hx, moved, last, clear, rfl⟩
    exact ⟨⟨x, ⟨hx, moved, by omega⟩, rfl⟩, clear⟩

theorem finishes_iff : f.finishes heading current = true ↔
    heading = .vertical ∧ current.x = f.goal.x ∧ current.y < f.goal.y ∧
      f.isClear current f.goal = true := by
  simp only [finishes, Bool.and_eq_true, decide_eq_true_iff, and_assoc]

theorem Walk.single (walk : f.Walk .vertical current rest) (short : rest.length < 3) :
    current.x = f.goal.x ∧ current.y < f.goal.y ∧ f.isClear current f.goal = true := by
  cases walk with
  | finish column above clear => exact ⟨column, above, clear⟩
  | vertical row moved clear walk =>
    have hmod := walk.length_mod
    have hpos := List.length_pos_iff.2 walk.ne_nil
    simp only [List.length_cons, reduceCtorEq, if_false] at short hmod
    omega

namespace Way

/-- No way takes fewer bends than the bound says, or less length. -/
theorem bound_le (way : f.Way heading current trail rest) (length : Nat) :
    f.bound heading current trail length ≤ reach current trail length rest := by
  have hlength := Plan.manhattan_le_stretch (p := current) way.walk.getLast?
  have hbends : f.bendsLeft heading current + 1 ≤ rest.length := by
    have hmod := way.walk.length_mod
    have hpos := List.length_pos_iff.2 way.walk.ne_nil
    cases heading with
    | vertical =>
      by_cases column : current.x = f.goal.x
      · simp only [bendsLeft, column, if_true]
        omega
      · have hlong : ¬rest.length < 3 := fun short => column (way.walk.single short).1
        simp only [bendsLeft, column, if_false]
        omega
    | horizontal =>
      simp only [bendsLeft, reduceCtorEq, if_false] at hmod ⊢
      omega
  simp only [bound, reach, Score.le_def]
  omega

theorem of_finishes (h : f.finishes heading current = true)
    (few : trail.length ≤ f.maxBends) : f.Way heading current trail [f.goal] := by
  obtain ⟨rfl, column, above, clear⟩ := finishes_iff.1 h
  refine ⟨.finish column above clear, ?_, by simpa using few⟩
  intro _ _ q hq
  obtain rfl : f.goal = q := by simpa using hq
  exact above

theorem cons {next : Point} (move : next ∈ f.moves heading current trail.length)
    (way : f.Way heading.turn next (current :: trail) rest) :
    f.Way heading current trail (next :: rest) := by
  have few := way.few
  rw [List.length_cons] at few
  cases heading with
  | vertical =>
    obtain ⟨y, row, moved, down, -, clear, rfl⟩ := mem_moves_vertical.1 move
    refine ⟨.vertical row moved clear way.walk, ?_, by rw [List.length_cons]; omega⟩
    intro begins _ q hq
    obtain rfl : current.withY y = q := by simpa using hq
    have hdown := down (by simp [begins])
    exact Int.lt_iff_le_and_ne.2 ⟨hdown, Ne.symm moved⟩
  | horizontal =>
    obtain ⟨x, column, moved, -, clear, rfl⟩ := mem_moves_horizontal.1 move
    refine ⟨.horizontal column moved clear way.walk, ?_, by rw [List.length_cons]; omega⟩
    intro _ vertical
    exact absurd vertical (by simp)

theorem exists_move (way : f.Way heading current trail rest)
    (unfinished : f.finishes heading current = false) :
    ∃ next tail, rest = next :: tail ∧ next ∈ f.moves heading current trail.length ∧
      f.Way heading.turn next (current :: trail) tail := by
  obtain ⟨walk, down, few⟩ := way
  cases walk with
  | finish column above clear =>
    have hfinish := finishes_iff.2 ⟨rfl, column, above, clear⟩
    exact absurd hfinish (by simp [unfinished])
  | @vertical _ y tail row moved clear walk =>
    rw [List.length_cons] at few
    refine ⟨_, tail, rfl, mem_moves_vertical.2 ⟨y, row, moved, ?_, ?_, clear, rfl⟩, walk, ?_, ?_⟩
    · intro none
      have hdown := down (List.length_eq_zero_iff.1 none) rfl _ rfl
      exact Int.le_of_lt hdown
    · intro last
      -- One more pair of bends at most, so the piece after the next one ends in the goal.
      cases walk with
      | horizontal _ _ _ walk =>
        rw [List.length_cons] at few
        exact (walk.single (by omega)).2.1
    · intro none
      exact absurd none (List.cons_ne_nil _ _)
    · rw [List.length_cons]
      omega
  | @horizontal _ x tail column moved clear walk =>
    rw [List.length_cons] at few
    refine ⟨_, tail, rfl, mem_moves_horizontal.2 ⟨x, column, moved, ?_, clear, rfl⟩, walk, ?_, ?_⟩
    · intro last
      exact (walk.single (by omega)).1
    · intro none
      exact absurd none (List.cons_ne_nil _ _)
    · rw [List.length_cons]
      omega

end Way

/-- What a visit keeps was known before, or is a way that goes on from here. -/
theorem visit_sound {P : Score → Plan → Prop} (depth : Nat)
    (held : s.Keeps P)
    (few : heading = .vertical → trail.length ≤ f.maxBends)
    (found : ∀ rest, f.Way heading current trail rest →
      P (reach current trail length rest) ((current :: trail).reverse ++ rest)) :
    (f.visit depth heading current trail length s).Keeps P := by
  induction depth generalizing heading current trail length s with
  | zero => exact held
  | succ depth ih =>
    refine visit_cases (motive := Progress.Keeps P) ?_ ?_ ?_ ?_
    · intro _
      exact held
    · intro finish score ps hbest
      have way : f.Way heading current trail [f.goal] :=
        .of_finishes finish (few (finishes_iff.1 finish).1)
      unfold complete at hbest
      split at hbest
      · obtain ⟨rfl, rfl⟩ := Prod.mk.inj (Option.some.inj hbest)
        have hfound := found _ way
        simpa [reach, Plan.stretch, segments, Segment.length] using hfound
      · exact held score ps hbest
    · intro _ _
      exact held
    · intro _ least
      refine List.foldlRecOn (motive := Progress.Keeps P) _ _ held ?_
      intro s held next move
      refine ih held ?_ ?_
      · intro turned
        cases heading with
        | vertical => exact absurd turned (by simp [Heading.turn])
        | horizontal => simpa [bendsLeft] using least
      · intro rest way
        have hfound := found _ (.cons move way)
        rw [reach_cons] at hfound
        simpa using hfound

/-- After a visit within the budget no way that goes on from here beats what is kept. -/
theorem visit_covers (depth : Nat) (deep : f.maxBends + 2 ≤ trail.length + depth)
    (within : (f.visit depth heading current trail length s).visited < f.budget)
    (way : f.Way heading current trail rest) :
    (f.visit depth heading current trail length s).isBeatenBy (reach current trail length rest)
      = false := by
  induction depth generalizing heading current trail length s rest with
  | zero =>
    have hfew := way.few
    omega
  | succ depth ih =>
    revert within
    refine visit_cases (motive := fun t => t.visited < f.budget →
      t.isBeatenBy (reach current trail length rest) = false) ?_ ?_ ?_ ?_
    · intro spent within
      omega
    · intro finish _
      obtain ⟨rfl, column, above, clear⟩ := finishes_iff.1 finish
      apply Progress.unbeaten_of_le (unbeaten_complete f _ _ _)
      have hle := way.bound_le length
      simpa [bound, bendsLeft, column] using hle
    · rintro _ (exceeded | unbeaten) _
      · have hle := way.bound_le length
        have hfew := way.few
        simp only [bound, reach, Score.le_def] at hle
        omega
      · exact Progress.unbeaten_of_le unbeaten (way.bound_le length)
    · intro unfinished _ within
      obtain ⟨next, tail, rfl, move, way⟩ := way.exists_move unfinished
      obtain ⟨t, leads⟩ := Progress.exists_leads_foldl
        (fun s next => leads_visit f depth heading.turn next (current :: trail)
          (length + current.manhattan next) s) move s.tick
      have hdeep : f.maxBends + 2 ≤ (current :: trail).length + depth := by
        rw [List.length_cons]
        omega
      have hcovers := ih hdeep (Nat.lt_of_le_of_lt leads.visited within) way
      rw [reach_cons]
      exact leads.unbeaten _ hcovers

end Field

end Patchbay.Lattice
