import Patchbay.Patch.Edit

/-!
# Batches

A sequence that is closed inside another one can be kept there as one command, a batch of all that it
recorded, and so on inward. A history keeps the flat list of its changes instead. To undoing and redoing
the two are the same, and so they are after any run of records, sequences, undos and redos.
-/

namespace Patchbay

/-- A change, or all that a sequence recorded. -/
inductive Command where
  | change (c : Change)
  | batch (label : String) (commands : List Command)

namespace Command

mutual

/-- Takes a command back, and answers with the one that makes it again. -/
def revert : Command → Contents → Contents × Command
  | change c, x => (c.revert x, change c.inverse)
  | batch label cs, x =>
    let (x, cs) := revertAll cs x
    (x, batch label cs)

def revertAll : List Command → Contents → Contents × List Command
  | [], x => (x, [])
  | c :: cs, x =>
    let (x, cs) := revertAll cs x
    let (x, c) := c.revert x
    (x, c :: cs)

end

mutual

def changes : Command → List Change
  | change c => [c]
  | batch _ cs => changesAll cs

def changesAll : List Command → List Change
  | [] => []
  | c :: cs => c.changes ++ changesAll cs

end

def label : Command → String
  | change _ => ""
  | batch label _ => label

def step (c : Command) : Step := ⟨c.label, c.changes⟩

theorem changesAll_append (cs ds : List Command) :
    changesAll (cs ++ ds) = changesAll cs ++ changesAll ds := by
  induction cs with
  | nil => rfl
  | cons c cs ih => rw [List.cons_append, changesAll, changesAll, ih, List.append_assoc]

theorem changesAll_change (changes : List Change) : changesAll (changes.map change) = changes := by
  induction changes with
  | nil => rfl
  | cons c cs ih => rw [List.map_cons, changesAll, Command.changes, ih, List.singleton_append]

mutual

theorem changes_revert (c : Command) (x : Contents) :
    (c.revert x).1 = c.changes.foldr Change.revert x ∧
      (c.revert x).2.changes = c.changes.map Change.inverse := by
  cases c with
  | change c => exact ⟨rfl, rfl⟩
  | batch label cs => exact changes_revertAll cs x

theorem changes_revertAll (cs : List Command) (x : Contents) :
    (revertAll cs x).1 = (changesAll cs).foldr Change.revert x ∧
      changesAll (revertAll cs x).2 = (changesAll cs).map Change.inverse := by
  cases cs with
  | nil => exact ⟨rfl, rfl⟩
  | cons c cs =>
    -- The first command meets what the others leave when they have been taken back.
    obtain ⟨rest, inverses⟩ := changes_revertAll cs x
    obtain ⟨first, inverse⟩ := changes_revert c (revertAll cs x).1
    simp only [revertAll, changesAll, List.foldr_append, List.map_append]
    exact ⟨first.trans (by rw [rest]), by rw [inverse, inverses]⟩

end

/-- A tree is taken back as its flat list is, and what makes it again is flattened to what makes that
again. -/
theorem step_revert (c : Command) (x : Contents) :
    (c.revert x).1 = c.step.revert x ∧ (c.revert x).2.step = c.step.inverse := by
  obtain ⟨contents, inverses⟩ := changes_revert c x
  refine ⟨contents, ?_⟩
  have label : (c.revert x).2.label = c.label := by cases c <;> rfl
  rw [step, label, inverses]
  rfl

end Command

open Command (changesAll changesAll_append changesAll_change step_revert)

/-- A history of commands: those that can be undone and redone, latest first, and the sequences that are
open, innermost first. -/
structure Chronicle where
  done : List Command := []
  undone : List Command := []
  sequences : List (String × List Command) := []

namespace Chronicle

variable {l : Chronicle} {p : Patch} {x : Contents}

def push (l : Chronicle) (c : Command) : Chronicle :=
  { l with done := (c :: l.done).take History.limit, undone := [] }

def record (l : Chronicle) (changes : List Change) : Chronicle :=
  match changes, l.sequences with
  | [], _ => l
  | cs, (label, ds) :: rest => { l with sequences := (label, ds ++ cs.map .change) :: rest }
  | [c], [] => l.push (.change c)
  | cs, [] => l.push (.batch "" (cs.map .change))

def openSequence (l : Chronicle) (label : String) : Chronicle :=
  { l with sequences := (label, []) :: l.sequences }

def closeSequence (l : Chronicle) : Chronicle :=
  match l.sequences with
  | [] => l
  | (label, cs) :: rest =>
    let outer := { l with sequences := rest }
    if cs.isEmpty then outer
    else match rest with
      | (outerLabel, ds) :: rest =>
        { l with sequences := (outerLabel, ds ++ [.batch label cs]) :: rest }
      | [] => outer.push (.batch label cs)

def undo (l : Chronicle) (x : Contents) : Chronicle × Contents :=
  match l.done with
  | [] => (l, x)
  | c :: rest =>
    let (x, c) := c.revert x
    ({ l with done := rest, undone := c :: l.undone }, x)

def redo (l : Chronicle) (x : Contents) : Chronicle × Contents :=
  match l.undone with
  | [] => (l, x)
  | c :: rest =>
    let (x, c) := c.revert x
    ({ l with undone := rest, done := c :: l.done }, x)

def label? (l : Chronicle) : Option String :=
  match l.done with
  | .batch label _ :: _ => if label = "" then none else some label
  | _ => none

def flatten (l : Chronicle) : History where
  done := l.done.map Command.step
  undone := l.undone.map Command.step
  sequences := l.sequences.map fun s => ⟨s.1, changesAll s.2⟩

/-- No command in an open sequence is empty. -/
def Solid (sequences : List (String × List Command)) : Prop :=
  ∀ s ∈ sequences, ∀ c ∈ s.2, c.changes ≠ []

/-- What happens to a history and to the contents beside it. -/
inductive Entry where
  | write (x : Contents)
  | record (changes : List Change)
  | openSequence (label : String)
  | closeSequence
  | undo
  | redo

def Entry.run : Entry → Chronicle × Contents → Chronicle × Contents
  | write x, (l, _) => (l, x)
  | record changes, (l, x) => (l.record changes, x)
  | openSequence label, (l, x) => (l.openSequence label, x)
  | closeSequence, (l, x) => (l.closeSequence, x)
  | undo, (l, x) => l.undo x
  | redo, (l, x) => l.redo x

/-- The same in a patch, where sequences are flat. -/
def Entry.apply : Entry → Patch → Patch
  | write x, p => { p with toContents := x }
  | record changes, p => p.record changes
  | openSequence label, p => p.openSequence label
  | closeSequence, p => p.closeSequence
  | undo, p => p.undo?.getD p
  | redo, p => p.redo?.getD p

theorem label?_flatten (l : Chronicle) : l.flatten.label? = l.label? := by
  cases latest : l.done with
  | nil => simp only [History.label?, label?, flatten, latest, List.map_nil]
  | cons c rest =>
    cases c <;> simp only [History.label?, label?, flatten, latest, List.map_cons, Command.step,
      Command.label, if_true]

theorem flatten_push (l : Chronicle) (c : Command) : (l.push c).flatten = l.flatten.push c.step := by
  simp only [flatten, push, History.push, List.map_take, List.map_cons, List.map_nil]

theorem flatten_record (l : Chronicle) (changes : List Change) :
    (l.record changes).flatten = l.flatten.record changes := by
  cases changes with
  | nil => rfl
  | cons c cs =>
    rw [History.record, if_neg (List.cons_ne_nil c cs)]
    cases sequences : l.sequences with
    | cons s rest =>
      have grown : changesAll (s.2 ++ (c :: cs).map .change) = changesAll s.2 ++ c :: cs := by
        rw [changesAll_append, changesAll_change]
      simp only [record, sequences, flatten]
      exact congrArg (fun ds => History.mk _ _ (⟨s.1, ds⟩ :: _)) grown
    | nil =>
      have bare : l.flatten.sequences = [] := by simp only [flatten, sequences, List.map_nil]
      have step : Step.mk "" (c :: cs) = Command.step (.batch "" ((c :: cs).map .change)) := by
        rw [Command.step, Command.changes, changesAll_change]
        rfl
      rw [bare]
      cases cs with
      | nil =>
        simp only [record, sequences, flatten_push]
        rfl
      | cons d cs =>
        simp only [record, sequences, flatten_push]
        rw [step]

theorem changesAll_eq_nil_iff {cs : List Command} (solid : ∀ c ∈ cs, c.changes ≠ []) :
    changesAll cs = [] ↔ cs.isEmpty = true := by
  cases cs with
  | nil => exact iff_of_true rfl rfl
  | cons c cs =>
    refine iff_of_false (fun none => ?_) Bool.false_ne_true
    exact solid c List.mem_cons_self (List.append_eq_nil_iff.1 none).1

theorem flatten_closeSequence (solid : Solid l.sequences) :
    l.closeSequence.flatten = l.flatten.closeSequence := by
  cases sequences : l.sequences with
  | nil => simp only [closeSequence, History.closeSequence, flatten, sequences, List.map_nil]
  | cons s rest =>
    obtain ⟨label, cs⟩ := s
    -- The flat list drops a sequence without changes, the tree one without commands.
    have empty := changesAll_eq_nil_iff (solid (label, cs) (sequences ▸ List.mem_cons_self))
    by_cases none : cs.isEmpty = true
    · simp only [closeSequence, History.closeSequence, flatten, sequences, List.map_cons, none,
        empty.2 none, if_true]
    · have some := mt empty.1 none
      cases rest with
      | nil =>
        simp only [closeSequence, sequences, none, Bool.false_eq_true, if_false, flatten_push]
        simp only [History.closeSequence, flatten, sequences, List.map_cons, List.map_nil, some,
          if_false]
        rfl
      | cons t rest =>
        simp only [closeSequence, History.closeSequence, flatten, sequences, List.map_cons, none, some,
          Bool.false_eq_true, if_false, changesAll_append, changesAll, Command.changes,
          List.append_nil]

theorem flatten_run (solid : Solid l.sequences) (e : Entry) (same : p.history = l.flatten) :
    (e.apply p).history = (e.run (l, p.toContents)).1.flatten ∧
      (e.apply p).toContents = (e.run (l, p.toContents)).2 := by
  cases e with
  | write x => exact ⟨same, rfl⟩
  | record changes =>
    exact ⟨(congrArg (·.record changes) same).trans (flatten_record l changes).symm, rfl⟩
  | openSequence label => exact ⟨congrArg (·.openSequence label) same, rfl⟩
  | closeSequence =>
    exact ⟨(congrArg (·.closeSequence) same).trans (flatten_closeSequence solid).symm, rfl⟩
  | undo =>
    have done := congrArg History.done same
    cases latest : l.done with
    | nil =>
      simp only [flatten, latest, List.map_nil] at done
      simp only [Entry.apply, Entry.run, Patch.undo?, Chronicle.undo, latest, done, Option.getD_none]
      exact ⟨same, trivial⟩
    | cons c rest =>
      obtain ⟨contents, inverse⟩ := step_revert c p.toContents
      simp only [flatten, latest, List.map_cons] at done
      simp only [Entry.apply, Entry.run, Patch.undo?, Chronicle.undo, latest, Option.getD_some, same,
        flatten, List.map_cons, contents, inverse, and_self]
  | redo =>
    have undone := congrArg History.undone same
    cases latest : l.undone with
    | nil =>
      simp only [flatten, latest, List.map_nil] at undone
      simp only [Entry.apply, Entry.run, Patch.redo?, Chronicle.redo, latest, undone, Option.getD_none]
      exact ⟨same, trivial⟩
    | cons c rest =>
      obtain ⟨contents, inverse⟩ := step_revert c p.toContents
      simp only [flatten, latest, List.map_cons] at undone
      simp only [Entry.apply, Entry.run, Patch.redo?, Chronicle.redo, latest, Option.getD_some, same,
        flatten, List.map_cons, contents, inverse, and_self]

theorem solid_record (solid : Solid l.sequences) (changes : List Change) :
    Solid (l.record changes).sequences := by
  cases changes with
  | nil => exact solid
  | cons c cs =>
    cases sequences : l.sequences with
    | nil =>
      cases cs <;> simpa only [record, push, sequences] using solid
    | cons s rest =>
      rw [sequences] at solid
      obtain ⟨inner, outer⟩ := List.forall_mem_cons.1 solid
      simp only [record, sequences]
      refine List.forall_mem_cons.2 ⟨fun d hd => ?_, outer⟩
      rcases List.mem_append.1 hd with old | new
      · exact inner d old
      · obtain ⟨_, -, rfl⟩ := List.mem_map.1 new
        exact List.cons_ne_nil _ _

theorem solid_closeSequence (solid : Solid l.sequences) : Solid l.closeSequence.sequences := by
  cases sequences : l.sequences with
  | nil => simpa only [closeSequence, sequences] using solid
  | cons s rest =>
    obtain ⟨label, cs⟩ := s
    rw [sequences] at solid
    obtain ⟨inner, outer⟩ := List.forall_mem_cons.1 solid
    by_cases none : cs.isEmpty = true
    · simp only [closeSequence, sequences, none, if_true]
      exact outer
    · cases rest with
      | nil =>
        simp only [closeSequence, sequences, none, Bool.false_eq_true, if_false, push]
        exact outer
      | cons t rest =>
        obtain ⟨around, outer⟩ := List.forall_mem_cons.1 outer
        simp only [closeSequence, sequences, none, Bool.false_eq_true, if_false]
        refine List.forall_mem_cons.2 ⟨fun d hd => ?_, outer⟩
        rcases List.mem_append.1 hd with old | new
        · exact around d old
        · rw [List.mem_singleton.1 new]
          exact mt (changesAll_eq_nil_iff inner).1 none

theorem solid_run (solid : Solid l.sequences) (e : Entry) (x : Contents) :
    Solid (e.run (l, x)).1.sequences := by
  cases e with
  | write => exact solid
  | record changes => exact solid_record solid changes
  | openSequence label => exact List.forall_mem_cons.2 ⟨fun _ h => absurd h List.not_mem_nil, solid⟩
  | closeSequence => exact solid_closeSequence solid
  | undo =>
    simp only [Entry.run, Chronicle.undo]
    split <;> exact solid
  | redo =>
    simp only [Entry.run, Chronicle.redo]
    split <;> exact solid

/-- A chronicle and the patch that keeps flat sequences agree after any run. -/
theorem flatten_runAll (solid : Solid l.sequences) (es : List Entry) (same : p.history = l.flatten) :
    let q := es.foldl (fun p e => e.apply p) p
    let after := es.foldl (fun state e => e.run state) (l, p.toContents)
    q.history = after.1.flatten ∧ q.toContents = after.2 := by
  induction es generalizing l p with
  | nil => exact ⟨same, rfl⟩
  | cons e es ih =>
    obtain ⟨history, contents⟩ := flatten_run solid e same
    have rest := ih (solid_run solid e p.toContents) history
    rw [contents] at rest
    exact rest

end Chronicle

end Patchbay
