import Patchbay.Proofs.Operation

/-!
# Gestures

A gesture is one recorded operation, or a sequence around a script. A script is any tree of
recorded operations and inner sequences; what is refused ends it, unless the refusal is ignored.
However a gesture ends, its changes form a trail and go to the history together.
-/

namespace Patchbay

inductive Script where
  | done
  | edit (o : Operation)
  | andThen (first rest : Script)
  | attempt (s : Script)
  | sequence (label : String) (body : Script)
  deriving DecidableEq, Repr

namespace Script

def run : Script → Patch → Patch × Except EditError Unit
  | done, p => (p, .ok ())
  | edit o, p =>
    match o.run p with
    | .ok q => (q, .ok ())
    | .error e => (p, .error e)
  | andThen first rest, p =>
    match first.run p with
    | (q, .ok _) => rest.run q
    | (q, .error e) => (q, .error e)
  | attempt s, p => ((s.run p).1, .ok ())
  | sequence label body, p => Document.inSequence p label body.run

def KeepsTokens : Script → Prop
  | done => True
  | edit o => o.KeepsToken
  | andThen first rest => first.KeepsTokens ∧ rest.KeepsTokens
  | attempt s => s.KeepsTokens
  | sequence _ body => body.KeepsTokens

end Script

inductive Gesture where
  | edit (o : Operation)
  | sequence (label : String) (body : Script)
  deriving DecidableEq, Repr

namespace Gesture

def label : Gesture → String
  | edit _ => ""
  | sequence label _ => label

def script : Gesture → Script
  | edit o => .edit o
  | sequence label body => .sequence label body

def run (g : Gesture) (p : Patch) : Patch := (g.script.run p).1

def KeepsTokens (g : Gesture) : Prop := g.script.KeepsTokens

/-- Whether the gesture records anything: made on a patch without a history it can be undone. -/
def Records (g : Gesture) (p : Patch) : Prop := (g.run (p.withHistory {})).history.done ≠ []

instance (g : Gesture) (p : Patch) : Decidable (g.Records p) :=
  inferInstanceAs (Decidable (_ ≠ _))

end Gesture

namespace History

variable {h : History} {cs ds : List Change} {label : String}

theorem note_of_open {s : Step} {rest : List Step} (opened : h.sequences = s :: rest) :
    h.note label cs = { h with sequences := { s with changes := s.changes ++ cs } :: rest } := by
  by_cases hc : cs = []
  · subst hc
    obtain ⟨done, undone, sequences⟩ := h
    simp only at opened
    simp [note, opened]
  · simp [note, hc, opened]

theorem note_of_closed (closed : h.sequences = []) (hc : cs ≠ []) :
    h.note label cs = h.push ⟨label, cs⟩ := by
  simp [note, hc, closed]

theorem sequences_note_ne_nil (opened : h.sequences ≠ []) : (h.note label cs).sequences ≠ [] := by
  obtain ⟨s, rest, hs⟩ := List.exists_cons_of_ne_nil opened
  simp [note_of_open hs]

theorem note_note (opened : h.sequences ≠ []) (l m n : String) :
    (h.note l cs).note m ds = h.note n (cs ++ ds) := by
  obtain ⟨s, rest, hs⟩ := List.exists_cons_of_ne_nil opened
  have hs' : (h.note l cs).sequences = { s with changes := s.changes ++ cs } :: rest := by
    rw [note_of_open hs]
  rw [note_of_open hs', note_of_open hs, note_of_open hs]
  simp

theorem note_label (opened : h.sequences ≠ []) (l m : String) : h.note l cs = h.note m cs := by
  obtain ⟨s, rest, hs⟩ := List.exists_cons_of_ne_nil opened
  rw [note_of_open hs, note_of_open hs]

theorem closeSequence_note (h : History) (label l : String) (cs : List Change) :
    ((h.openSequence label).note l cs).closeSequence = h.note label cs := by
  have opened : (h.openSequence label).sequences = ⟨label, []⟩ :: h.sequences := rfl
  rw [note_of_open opened]
  by_cases hc : cs = []
  · simp [closeSequence, openSequence, hc]
  · cases hs : h.sequences with
    | nil =>
      rw [note_of_closed hs hc]
      simp [closeSequence, openSequence, hc, hs, push]
    | cons t rest =>
      rw [note_of_open hs]
      simp [closeSequence, openSequence, hc, hs]

end History

theorem Patch.inSequence_eq {α : Type} {body : Patch → Patch × α} {p q : Patch} {cs : List Change}
    {result : α} (label : String)
    (hrun : ∀ h : History, h.sequences ≠ [] →
      body (p.withHistory h) = (q.withHistory (h.note "" cs), result)) (h : History) :
    Document.inSequence (p.withHistory h) label body = (q.withHistory (h.note label cs), result) := by
  have hbody : body (p.withHistory (h.openSequence label))
      = (q.withHistory ((h.openSequence label).note "" cs), result) :=
    hrun _ (List.cons_ne_nil _ _)
  change (Patch.closeSequence (body (p.withHistory (h.openSequence label))).1,
    (body (p.withHistory (h.openSequence label))).2) = _
  rw [hbody]
  exact congrArg (q.withHistory ·, result) (History.closeSequence_note h label "" cs)

theorem Script.run_effect {strict : Prop} (s : Script) {p : Patch} (sound : p.Sound)
    (keeps : strict → s.KeepsTokens) :
    ∃ (cs : List Change) (q : Patch) (result : Except EditError Unit),
      Trail strict cs p.toContents q.toContents ∧ q.Sound ∧
      ∀ h : History, h.sequences ≠ [] →
        s.run (p.withHistory h) = (q.withHistory (h.note "" cs), result) := by
  induction s generalizing p with
  | done => exact ⟨[], p, .ok (), .nil, sound, fun h _ => by simp [run]⟩
  | edit o =>
    rcases o.run_effect sound keeps with ⟨e, same⟩ | ⟨cs, q, trail, hq, same⟩
    · exact ⟨[], p, .error e, .nil, sound, fun h _ => by simp [run, same]⟩
    · exact ⟨cs, q, .ok (), trail, hq, fun h _ => by simp [run, same]⟩
  | andThen first rest ihf ihr =>
    obtain ⟨cs, q, result, trail, hq, hrun⟩ := ihf sound fun hs => (keeps hs).1
    cases result with
    | error e =>
      exact ⟨cs, q, .error e, trail, hq, fun h hopen => by simp [run, hrun h hopen]⟩
    | ok u =>
      obtain ⟨ds, r, result, trail', hr, hrun'⟩ := ihr hq fun hs => (keeps hs).2
      refine ⟨cs ++ ds, r, result, trail.append trail', hr, fun h hopen => ?_⟩
      have hopen' : (h.note "" cs).sequences ≠ [] := History.sequences_note_ne_nil hopen
      simp only [run, hrun h hopen, hrun' _ hopen', History.note_note hopen "" "" ""]
  | attempt s ih =>
    obtain ⟨cs, q, result, trail, hq, hrun⟩ := ih sound keeps
    exact ⟨cs, q, .ok (), trail, hq, fun h hopen => by simp [run, hrun h hopen]⟩
  | sequence label body ih =>
    obtain ⟨cs, q, result, trail, hq, hrun⟩ := ih sound keeps
    refine ⟨cs, q, result, trail, hq, fun h hopen => ?_⟩
    rw [run, Patch.inSequence_eq label hrun, History.note_label hopen label ""]

theorem Gesture.run_effect {strict : Prop} (g : Gesture) {p : Patch} (sound : p.Sound)
    (keeps : strict → g.KeepsTokens) :
    ∃ (cs : List Change) (q : Patch), Trail strict cs p.toContents q.toContents ∧ q.Sound ∧
      ∀ h : History, g.run (p.withHistory h) = q.withHistory (h.note g.label cs) := by
  cases g with
  | edit o =>
    rcases o.run_effect sound keeps with ⟨e, same⟩ | ⟨cs, q, trail, hq, same⟩
    · exact ⟨[], p, .nil, sound, fun h => by simp [run, script, Script.run, same]⟩
    · exact ⟨cs, q, trail, hq, fun h => by simp [run, script, Script.run, same, label]⟩
  | sequence label body =>
    obtain ⟨cs, q, result, trail, hq, hrun⟩ := body.run_effect sound keeps
    exact ⟨cs, q, trail, hq, fun h => congrArg Prod.fst (Patch.inSequence_eq label hrun h)⟩

end Patchbay
