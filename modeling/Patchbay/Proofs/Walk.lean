import Patchbay.Lattice.Search
import Mathlib.Algebra.GroupWithZero.Nat

/-!
# Walks on a lattice

What a route may be is said on the polyline alone. A walk says it from one point on, a piece at a
time and up to the goal, which is how the search goes.
-/

namespace Patchbay

def Segment.RunsDown (s : Segment) : Prop := s.start.x = s.stop.x ∧ s.start.y < s.stop.y

namespace Plan

def bends (ps : Plan) : Nat := ps.length - 2

def stretch (ps : Plan) : Nat := ((segments ps).map Segment.length).sum

theorem stretch_cons (p q : Point) (rest : List Point) :
    stretch (p :: q :: rest) = p.manhattan q + stretch (q :: rest) := by
  simp only [stretch, segments, List.map_cons, List.sum_cons, Segment.length]

theorem manhattan_le_stretch {p q : Point} {rest : List Point}
    (last : rest.getLast? = some q) : p.manhattan q ≤ stretch (p :: rest) := by
  induction rest generalizing p with
  | nil => simp at last
  | cons r rest ih =>
    rw [stretch_cons]
    cases rest with
    | nil =>
      obtain rfl : r = q := by simpa using last
      omega
    | cons t rest =>
      have hrest := ih (p := r) (by simpa using last)
      have htri := Point.manhattan_triangle p r q
      omega

end Plan

namespace Lattice

/-- Vertical and horizontal pieces in turn, none of them empty. -/
def Alternates : Heading → List Segment → Prop
  | _, [] => True
  | .vertical, s :: rest =>
    s.start.x = s.stop.x ∧ s.start.y ≠ s.stop.y ∧ Alternates .horizontal rest
  | .horizontal, s :: rest =>
    s.start.y = s.stop.y ∧ s.start.x ≠ s.stop.x ∧ Alternates .vertical rest

/-- The routes that a search may choose from. Bends lie on the lattice of one resolution. -/
structure Admissible (start stop : Point) (obstacles : List Rect) (settings : RoutingSettings)
    (ps : Plan) : Prop where
  begins : ps.head? = some start
  ends : ps.getLast? = some stop
  alternates : Alternates .vertical (segments ps)
  leaves : ∃ s, (segments ps).head? = some s ∧ s.RunsDown
  enters : ∃ s, (segments ps).getLast? = some s ∧ s.RunsDown
  onLattice : ∃ n : Nat, 3 ≤ n ∧ n ≤ 6 ∧ ∀ p ∈ ps.tail.dropLast,
    p.x ∈ lines start.x stop.x n settings ∧ p.y ∈ lines start.y stop.y n settings
  bends : ps.bends ≤ settings.maxBends
  clear : ∀ s ∈ segments ps, ∀ r ∈ obstacles, s.crosses r = false

namespace Field

/-- The points to come on a way from `p` to the goal. -/
inductive Walk (f : Field) : Heading → (p : Point) → List Point → Prop
  | finish {p : Point} (column : p.x = f.goal.x) (above : p.y < f.goal.y)
      (clear : f.isClear p f.goal = true) : Walk f .vertical p [f.goal]
  | vertical {p : Point} {y : Int} {rest : List Point} (row : y ∈ f.rows) (moved : y ≠ p.y)
      (clear : f.isClear p (p.withY y) = true) :
      Walk f .horizontal (p.withY y) rest → Walk f .vertical p (p.withY y :: rest)
  | horizontal {p : Point} {x : Int} {rest : List Point} (column : x ∈ f.columns) (moved : x ≠ p.x)
      (clear : f.isClear p (p.withX x) = true) :
      Walk f .vertical (p.withX x) rest → Walk f .horizontal p (p.withX x :: rest)

structure Runs (f : Field) (heading : Heading) (ps : Plan) : Prop where
  ends : ps.getLast? = some f.goal
  alternates : Alternates heading (segments ps)
  enters : ∃ s, (segments ps).getLast? = some s ∧ s.RunsDown
  onLattice : ∀ p ∈ ps.tail.dropLast, p.x ∈ f.columns ∧ p.y ∈ f.rows
  clear : ∀ s ∈ segments ps, ∀ r ∈ f.obstacles, s.crosses r = false

variable {f : Field} {heading : Heading} {p q : Point} {rest : List Point}

theorem isClear_iff :
    f.isClear p q = true ↔ ∀ r ∈ f.obstacles, (Segment.mk p q).crosses r = false := by
  simp [isClear]

namespace Walk

theorem ne_nil (walk : f.Walk heading p rest) : rest ≠ [] := by
  cases walk <;> exact List.cons_ne_nil _ _

theorem getLast? (walk : f.Walk heading p rest) : rest.getLast? = some f.goal := by
  induction walk with
  | finish => rfl
  | vertical _ _ _ walk ih =>
    rw [List.getLast?_cons_of_ne_nil walk.ne_nil]
    exact ih
  | horizontal _ _ _ walk ih =>
    rw [List.getLast?_cons_of_ne_nil walk.ne_nil]
    exact ih

theorem length_mod (walk : f.Walk heading p rest) :
    rest.length % 2 = if heading = .vertical then 1 else 0 := by
  induction walk with
  | finish => rfl
  | vertical _ _ _ _ ih =>
    simp only [List.length_cons, if_true, reduceCtorEq, if_false] at ih ⊢
    omega
  | horizontal _ _ _ _ ih =>
    simp only [List.length_cons, if_true, reduceCtorEq, if_false] at ih ⊢
    omega

end Walk

theorem alternates_cons {s : Segment} {rest : List Segment} :
    Alternates heading (s :: rest) ↔ Alternates heading [s] ∧ Alternates heading.turn rest := by
  cases heading <;> simp only [Alternates, Heading.turn, and_true, and_assoc]

theorem runs_pair : f.Runs heading [p, q] ↔
    q = f.goal ∧ heading = .vertical ∧ p.x = q.x ∧ p.y < q.y ∧ f.isClear p q = true := by
  constructor
  · intro runs
    have hq : q = f.goal := by simpa using runs.ends
    obtain ⟨s, hs, hx, hy⟩ := runs.enters
    obtain rfl : Segment.mk p q = s := by simpa [segments] using hs
    have hclear : f.isClear p q = true := isClear_iff.2 (runs.clear _ List.mem_cons_self)
    refine ⟨hq, ?_, hx, hy, hclear⟩
    cases heading with
    | vertical => rfl
    | horizontal => exact absurd hx runs.alternates.2.1
  · rintro ⟨rfl, rfl, hx, hy, hclear⟩
    refine ⟨rfl, ⟨hx, Int.ne_of_lt hy, trivial⟩, ⟨⟨p, f.goal⟩, rfl, hx, hy⟩, ?_, ?_⟩
    · intro r hr
      exact absurd hr List.not_mem_nil
    · intro s hs
      obtain rfl := List.mem_singleton.1 hs
      exact isClear_iff.1 hclear

theorem runs_cons (more : rest ≠ []) : f.Runs heading (p :: q :: rest) ↔
    Alternates heading [⟨p, q⟩] ∧ (q.x ∈ f.columns ∧ q.y ∈ f.rows) ∧ f.isClear p q = true ∧
      f.Runs heading.turn (q :: rest) := by
  obtain ⟨r, tail, rfl⟩ := List.exists_cons_of_ne_nil more
  constructor
  · intro runs
    obtain ⟨hfirst, hrest⟩ := alternates_cons.1 runs.alternates
    obtain ⟨hq, hlattice⟩ := List.forall_mem_cons.1 runs.onLattice
    obtain ⟨hclear, hclears⟩ := List.forall_mem_cons.1 runs.clear
    exact ⟨hfirst, hq, isClear_iff.2 hclear, by simpa using runs.ends, hrest,
      by simpa [segments] using runs.enters, hlattice, hclears⟩
  · rintro ⟨hfirst, hq, hclear, runs⟩
    exact ⟨by simpa using runs.ends, alternates_cons.2 ⟨hfirst, runs.alternates⟩,
      by simpa [segments] using runs.enters, List.forall_mem_cons.2 ⟨hq, runs.onLattice⟩,
      List.forall_mem_cons.2 ⟨isClear_iff.1 hclear, runs.clear⟩⟩

theorem walk_iff_runs (column : p.x ∈ f.columns) (row : p.y ∈ f.rows) :
    f.Walk heading p rest ↔ f.Runs heading (p :: rest) := by
  constructor
  · intro walk
    induction walk with
    | finish hx hy clear => exact runs_pair.2 ⟨rfl, rfl, hx, hy, clear⟩
    | vertical hy moved clear walk ih =>
      exact (runs_cons walk.ne_nil).2 ⟨⟨rfl, Ne.symm moved, trivial⟩, ⟨column, hy⟩, clear,
        ih column hy⟩
    | horizontal hx moved clear walk ih =>
      exact (runs_cons walk.ne_nil).2 ⟨⟨rfl, Ne.symm moved, trivial⟩, ⟨hx, row⟩, clear, ih hx row⟩
  · intro runs
    induction rest generalizing p heading with
    | nil =>
      obtain ⟨s, hs, -⟩ := runs.enters
      exact absurd hs (by simp [segments])
    | cons q rest ih =>
      by_cases more : rest = []
      · subst more
        obtain ⟨rfl, rfl, hx, hy, clear⟩ := runs_pair.1 runs
        exact .finish hx hy clear
      · obtain ⟨hpiece, ⟨hx, hy⟩, clear, runs⟩ := (runs_cons more).1 runs
        have walk := ih hx hy runs
        cases heading with
        | vertical =>
          obtain ⟨hsame, moved, -⟩ := hpiece
          obtain ⟨x, y⟩ := q
          obtain rfl : p.x = x := hsame
          exact .vertical hy (Ne.symm moved) clear walk
        | horizontal =>
          obtain ⟨hsame, moved, -⟩ := hpiece
          obtain ⟨x, y⟩ := q
          obtain rfl : p.y = y := hsame
          exact .horizontal hx (Ne.symm moved) clear walk

def Leaves (f : Field) (start : Point) (rest : List Point) : Prop :=
  f.Walk .vertical start rest ∧ ∀ q ∈ rest.head?, start.y < q.y

end Field

variable {start stop : Point} {obstacles : List Rect} {settings : RoutingSettings} {ps : Plan}

theorem mem_resolutions {n : Nat} : n ∈ resolutions ↔ 3 ≤ n ∧ n ≤ 6 := by
  simp only [resolutions, List.mem_cons, List.not_mem_nil, or_false]
  omega

/-- The admissible routes are the walks on one of the lattices. -/
theorem admissible_iff (limit : Nat) : Admissible start stop obstacles settings ps ↔
    ∃ n ∈ resolutions, ∃ rest, ps = start :: rest ∧
      (field start stop obstacles settings limit n).Leaves start rest ∧
      ps.bends ≤ settings.maxBends := by
  constructor
  · intro h
    obtain ⟨n, low, high, onLattice⟩ := h.onLattice
    obtain ⟨s, hs, hx, hy⟩ := h.leaves
    obtain ⟨rest, rfl⟩ := List.head?_eq_some_iff.1 h.begins
    refine ⟨n, mem_resolutions.2 ⟨low, high⟩, rest, rfl, ⟨?_, ?_⟩, h.bends⟩
    · refine (Field.walk_iff_runs ?_ ?_).2 ⟨h.ends, h.alternates, h.enters, onLattice, h.clear⟩
      · exact mem_lines.2 (Or.inr (Or.inl rfl))
      · exact mem_lines.2 (Or.inr (Or.inl rfl))
    · intro q hq
      obtain ⟨tail, rfl⟩ := List.head?_eq_some_iff.1 hq
      obtain rfl : Segment.mk start q = s := by simpa [segments] using hs
      exact hy
  · rintro ⟨n, hn, rest, rfl, ⟨walk, down⟩, bends⟩
    obtain ⟨low, high⟩ := mem_resolutions.1 hn
    have runs := (Field.walk_iff_runs (mem_lines.2 (Or.inr (Or.inl rfl)))
      (mem_lines.2 (Or.inr (Or.inl rfl)))).1 walk
    refine ⟨rfl, runs.ends, runs.alternates, ?_, runs.enters, ⟨n, low, high, runs.onLattice⟩, bends,
      runs.clear⟩
    obtain ⟨q, tail, rfl⟩ := List.exists_cons_of_ne_nil walk.ne_nil
    exact ⟨⟨start, q⟩, rfl, runs.alternates.1, down q rfl⟩

end Lattice

end Patchbay
