import Patchbay.Patch.Basic

/-!
Changes of a patch, their inverses, and the history that undo and redo walk.

A step is what one undo takes back: a single change, or all changes of a sequence. Reverting a
step takes its changes back from the last to the first and leaves their inverses in the same
places.
-/

namespace Patchbay

/-- A change that was made, with what it takes to go back. -/
inductive Change where
  | addNode (index handle : Nat) (node : Node)
  | removeNode (index handle : Nat) (node : Node)
  | setBounds (handle : Nat) (old new : Rect)
  | addWire (index : Nat) (wire : Wire)
  | removeWire (index : Nat) (wire : Wire)
  | setToken (handle : Nat) (old new : String)
  deriving DecidableEq, Repr

namespace Change

def inverse : Change → Change
  | addNode i h n => removeNode i h n
  | removeNode i h n => addNode i h n
  | setBounds h old new => setBounds h new old
  | addWire i w => removeWire i w
  | removeWire i w => addWire i w
  | setToken h old new => setToken h new old

def revert : Change → Contents → Contents
  | addNode _ h _, c => c.removeNode h
  | removeNode i h n, c => c.insertNode i h n
  | setBounds h old _, c => c.updateNode h fun n => { n with bounds := old }
  | addWire _ w, c => c.removeWire w.handle
  | removeWire i w, c => c.insertWire i w
  | setToken h old _, c => c.setToken h old

theorem inverse_inverse (c : Change) : c.inverse.inverse = c := by cases c <;> rfl

end Change

/-- What one undo takes back. The label is empty outside of a sequence. -/
structure Step where
  label : String
  changes : List Change
  deriving DecidableEq, Repr

namespace Step

def inverse (s : Step) : Step := { s with changes := s.changes.map Change.inverse }
def revert (s : Step) (c : Contents) : Contents := s.changes.foldr Change.revert c

theorem inverse_inverse (s : Step) : s.inverse.inverse = s := by
  simp only [inverse, List.map_map]
  congr 1
  exact (List.map_congr_left fun c _ => c.inverse_inverse).trans (List.map_id _)

end Step

/-- Steps that can be undone and redone, latest first, and the sequences that are still open,
innermost first. -/
structure History where
  done : List Step := []
  undone : List Step := []
  sequences : List Step := []
  deriving DecidableEq, Repr, Inhabited

namespace History

def limit : Nat := 200

/-- A new step takes the ones that were undone out of reach. -/
def push (h : History) (s : Step) : History :=
  { h with done := (s :: h.done).take limit, undone := [] }

def record (h : History) (changes : List Change) : History :=
  if changes = [] then h
  else match h.sequences with
    | s :: rest => { h with sequences := { s with changes := s.changes ++ changes } :: rest }
    | [] => h.push ⟨"", changes⟩

def openSequence (h : History) (label : String) : History :=
  { h with sequences := ⟨label, []⟩ :: h.sequences }

/-- What the sequence recorded goes to the one around it, or becomes a step. -/
def closeSequence (h : History) : History :=
  match h.sequences with
  | [] => h
  | s :: rest =>
    let outer := { h with sequences := rest }
    if s.changes = [] then outer
    else match rest with
      | t :: rest => { h with sequences := { t with changes := t.changes ++ s.changes } :: rest }
      | [] => outer.push s

def label? (h : History) : Option String :=
  match h.done with
  | s :: _ => if s.label = "" then none else some s.label
  | [] => none

end History

end Patchbay
