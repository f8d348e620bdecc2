import Patchbay.Proofs.Gesture

/-!
# Undo restores

A ledger pairs the steps of a history with the contents from before them. Every gesture extends
it by at most one step, so undoing the latest `k` steps leads back to the contents before the
`k`-th last gesture that recorded anything.
-/

namespace Patchbay

open Keyed (keys)

/-- A patch in use, with the contents before each gesture that recorded anything, latest first. -/
structure Session where
  patch : Patch
  befores : List Contents := []

namespace Session

def perform (s : Session) (g : Gesture) : Session where
  patch := g.run s.patch
  befores := if g.Records s.patch then s.patch.toContents :: s.befores else s.befores

def performAll (s : Session) (gs : List Gesture) : Session := gs.foldl perform s

end Session

/-- The changes of each step are a trail from the contents listed for it to those after it. -/
inductive Ledger (strict : Prop) : List Step → List Contents → Contents → Prop
  | nil {c : Contents} : Ledger strict [] [] c
  | cons {s : Step} {steps : List Step} {a c : Contents} {befores : List Contents} :
      Trail strict s.changes a c → (keys a.nodes).Nodup → Ledger strict steps befores a →
      Ledger strict (s :: steps) (a :: befores) c

/-- Where a session stands that began closed and with the steps `old` to undo. -/
structure Session.Kept (strict : Prop) (old : List Step) (s : Session) (steps : List Step) :
    Prop where
  sound : s.patch.Sound
  closed : s.patch.history.sequences = []
  ledger : Ledger strict steps s.befores s.patch.toContents
  done : s.patch.history.done = if steps = [] then old else (steps ++ old).take History.limit

namespace Session

variable {strict : Prop} {old : List Step} {s : Session} {steps : List Step} {p : Patch}

theorem Kept.start (sound : p.Sound) (closed : p.history.sequences = []) :
    Kept strict p.history.done ⟨p, []⟩ [] :=
  ⟨sound, closed, .nil, rfl⟩

/-- A gesture that records something adds one step to the ledger, any other none. -/
theorem Kept.perform (kept : s.Kept strict old steps) (g : Gesture)
    (keeps : strict → g.KeepsTokens) : ∃ steps', (s.perform g).Kept strict old steps' := by
  obtain ⟨cs, q, trail, hq, hrun⟩ := g.run_effect kept.sound keeps
  have hpatch : g.run s.patch = q.withHistory (s.patch.history.note g.label cs) :=
    hrun s.patch.history
  by_cases hc : cs = []
  · subst hc
    have hrec : ¬g.Records s.patch := by simp [Gesture.Records, hrun]
    have hs : s.perform g = ⟨q.withHistory s.patch.history, s.befores⟩ := by
      simp [Session.perform, hrec, hpatch]
    rw [hs]
    exact ⟨steps, hq.withHistory _, kept.closed, trail.eq_of_nil ▸ kept.ledger, kept.done⟩
  · have hrec : g.Records s.patch := by
      simp [Gesture.Records, hrun, History.note_of_closed, hc, History.push, History.limit]
    have hnote : s.patch.history.note g.label cs = s.patch.history.push ⟨g.label, cs⟩ :=
      History.note_of_closed kept.closed hc
    have hs : s.perform g = ⟨q.withHistory (s.patch.history.push ⟨g.label, cs⟩),
        s.patch.toContents :: s.befores⟩ := by simp [Session.perform, hrec, hpatch, hnote]
    rw [hs]
    refine ⟨⟨g.label, cs⟩ :: steps, hq.withHistory _, kept.closed,
      .cons trail kept.sound.nodup kept.ledger, ?_⟩
    have hdone := kept.done
    by_cases he : steps = []
    · simp [History.push, hdone, he]
    · simp [History.push, hdone, he, List.take_take, History.limit]

theorem Kept.performAll (kept : s.Kept strict old steps) (gs : List Gesture)
    (keeps : strict → ∀ g ∈ gs, g.KeepsTokens) :
    ∃ steps', (s.performAll gs).Kept strict old steps' := by
  induction gs generalizing s steps with
  | nil => exact ⟨steps, kept⟩
  | cons g gs ih =>
    obtain ⟨steps', hg⟩ := kept.perform g fun hs => keeps hs g List.mem_cons_self
    exact ih hg fun hs g' hg' => keeps hs g' (List.mem_cons_of_mem _ hg')

theorem Kept.take_done (kept : s.Kept strict old steps) {k : Nat} (limit : k ≤ History.limit)
    (few : k ≤ steps.length) : s.patch.history.done.take k = steps.take k := by
  rw [kept.done]
  by_cases he : steps = []
  · obtain rfl : k = 0 := by simpa [he] using few
    simp
  · rw [if_neg he, List.take_take, Nat.min_eq_left limit, List.take_append_of_le_length few]

end Session

namespace Ledger

variable {strict : Prop} {steps : List Step} {befores : List Contents} {c : Contents}

theorem length_eq (ledger : Ledger strict steps befores c) : steps.length = befores.length := by
  induction ledger with
  | nil => rfl
  | cons _ _ _ ih => simp [ih]

theorem revert_take (ledger : Ledger True steps befores c) {k : Nat} {a : Contents}
    (before : befores[k]? = some a) :
    (steps.take (k + 1)).foldl (fun c s => s.revert c) c = a := by
  induction ledger generalizing k with
  | nil => simp at before
  | @cons s steps b c befores trail nodup _ ih =>
    have hb : s.revert c = b := (trail.revert nodup).2 trivial
    rw [List.take_succ_cons, List.foldl_cons, hb]
    cases k with
    | zero => simpa using before
    | succ k => exact ih (by simpa using before)

end Ledger

namespace Patch

def undos : (k : Nat) → Patch → Option Patch
  | 0, p => some p
  | k + 1, p => p.undo?.bind (undos k)

theorem undos_eq {k : Nat} {p : Patch} (few : k ≤ p.history.done.length) :
    ∃ q, p.undos k = some q ∧
      q.toContents = (p.history.done.take k).foldl (fun c s => s.revert c) p.toContents ∧
      q.history.undone
        = (p.history.done.take k).reverse.map Step.inverse ++ p.history.undone := by
  induction k generalizing p with
  | zero => exact ⟨p, rfl, rfl, rfl⟩
  | succ k ih =>
    cases hd : p.history.done with
    | nil => simp [hd] at few
    | cons s rest =>
      have hlen : k ≤ rest.length := by simpa [hd] using few
      obtain ⟨q, hq, hcontents, hundone⟩ := ih (p := { p with
        toContents := s.revert p.toContents
        history := { p.history with done := rest, undone := s.inverse :: p.history.undone } }) hlen
      refine ⟨q, ?_, ?_, ?_⟩
      · simp only [undos, undo?, hd, Option.bind_some]
        exact hq
      · simpa using hcontents
      · simpa using hundone

end Patch

/-- Undoing the latest `k` steps brings back the contents from before the `k`-th last gesture that
recorded anything, for all `k` that the history reaches. -/
theorem Session.undos_performAll (p : Patch) (sound : p.Sound)
    (closed : p.history.sequences = []) (gs : List Gesture) (keeps : ∀ g ∈ gs, g.KeepsTokens)
    (k : Nat) (one : 1 ≤ k) (limit : k ≤ 200)
    (recorded : k ≤ (Session.performAll ⟨p, []⟩ gs).befores.length) :
    ∃ q, (Session.performAll ⟨p, []⟩ gs).patch.undos k = some q ∧
      (Session.performAll ⟨p, []⟩ gs).befores[k - 1]? = some q.toContents := by
  obtain ⟨steps, kept⟩ := (Kept.start sound closed).performAll gs fun (_ : True) => keeps
  generalize Session.performAll ⟨p, []⟩ gs = s at kept recorded ⊢
  have few : k ≤ steps.length := kept.ledger.length_eq ▸ recorded
  have htake := kept.take_done limit few
  have hlen : k ≤ s.patch.history.done.length := by
    have h := congrArg List.length htake
    rw [List.length_take, List.length_take] at h
    omega
  obtain ⟨q, hq, hcontents, -⟩ := Patch.undos_eq hlen
  obtain ⟨j, rfl⟩ : ∃ j, k = j + 1 := ⟨k - 1, by omega⟩
  obtain ⟨a, ha⟩ : ∃ a, s.befores[j]? = some a :=
    ⟨s.befores[j], List.getElem?_eq_getElem (by omega)⟩
  refine ⟨q, hq, ?_⟩
  rw [hcontents, htake, kept.ledger.revert_take ha]
  exact ha

def Patch.joined : Patch where
  nodes := [(1, ⟨"osc~", ⟨0, 0, 40, 20⟩, [false], [true]⟩),
    (2, ⟨"dac~", ⟨0, 90, 40, 20⟩, [true], []⟩)]
  wires := [⟨3, ⟨1, 0, 2, 0⟩, "BQ=="⟩]
  next := 4

/-- A sequence that cuts the wire, takes a node out and then breaks off; after it a new node. -/
def Session.cutThenCreate : List Gesture :=
  [.sequence "Cut" (.andThen (.edit (.disconnect ⟨1, 0, 2, 0⟩ none))
      (.andThen (.edit (.removeNodes [1])) (.andThen (.edit (.moveNode 1 ⟨5, 5⟩)) .done))),
    .edit (.createNode "print" ⟨10, 10⟩)]

theorem Session.undos_cutThenCreate :
    Patch.joined.Sound ∧
      2 ≤ (Session.performAll ⟨Patch.joined, []⟩ cutThenCreate).befores.length ∧
      ∃ q, (Session.performAll ⟨Patch.joined, []⟩ cutThenCreate).patch.undos 2 = some q ∧
        (Session.performAll ⟨Patch.joined, []⟩ cutThenCreate).befores[1]? = some q.toContents := by
  have sound : Patch.joined.Sound := ⟨by decide, by decide, by decide⟩
  have recorded : 2 ≤ (Session.performAll ⟨Patch.joined, []⟩ cutThenCreate).befores.length := by
    decide
  have keeps : ∀ g ∈ cutThenCreate, g.KeepsTokens := by
    simp [cutThenCreate, Gesture.KeepsTokens, Gesture.script, Script.KeepsTokens,
      Operation.KeepsToken]
  exact ⟨sound, recorded, undos_performAll Patch.joined sound rfl cutThenCreate keeps 2
    (by decide) (by decide) recorded⟩

end Patchbay
