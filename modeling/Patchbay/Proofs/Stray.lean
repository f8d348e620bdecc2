import Patchbay.Proofs.Joined

/-!
# Calls meant for another drag

A call that goes on with a drag, lets go of it or gives it up is meant for one kind of drag. While
another kind goes on, seven such calls do nothing. The other five take the drag before they look at
it, so the drag is lost: what it had put ahead of the patch stays there, and so does the highlight of
a jack that was aimed at.
-/

namespace Patchbay

inductive Drag.Kind where
  | boxes
  | resize
  | connection
  | segment
  | lasso
  deriving DecidableEq, Repr

def Drag.kind? : Drag → Option Kind
  | none => Option.none
  | boxes _ _ _ => some .boxes
  | resize _ _ _ _ => some .resize
  | connection _ _ => some .connection
  | segment _ => some .segment
  | lasso => some .lasso

namespace Canvas

open Drag (Kind)

def Call.kind? : Call → Option Kind
  | dragMove _ _ _ | endMove _ => some .boxes
  | dragResize _ _ _ | endResize => some .resize
  | dragConnection _ | endConnection | cancelConnection => some .connection
  | dragSegment _ | endSegment _ | cancelSegment => some .segment
  | updateLasso _ | endLasso => some .lasso
  | _ => none

/-- Calls that take the drag before they look at it. -/
def Call.takes : Call → Bool
  | endMove _ | endResize | endConnection | endSegment _ | cancelSegment => true
  | _ => false

/-- A call is meant for a kind of drag, and that kind does not go on. -/
def Call.Astray (c : Canvas) (call : Call) : Prop :=
  ∃ kind, call.kind? = some kind ∧ c.drag.kind? ≠ some kind

def lose (c : Canvas) (lost : Bool) : Canvas :=
  { c with drag := if lost then .none else c.drag }

variable {δ : Type} [Document δ] {c : Canvas} {call : Call} {calls : List Call}

@[simp] theorem lose_false (c : Canvas) : c.lose false = c := rfl

@[simp] theorem lose_true (c : Canvas) : c.lose true = { c with drag := .none } := rfl

theorem lose_lose (c : Canvas) (first second : Bool) :
    (c.lose first).lose second = c.lose (first || second) := by
  cases first <;> cases second <;> rfl

theorem lose_eq_self_iff {lost : Bool} : c.lose lost = c ↔ (lost = true → c.drag = .none) := by
  cases lost with
  | false => simp
  | true =>
    refine ⟨fun same _ => ?_, fun none => ?_⟩
    · exact (congrArg Canvas.drag same).symm
    · rw [lose_true, ← none rfl]

theorem Call.Astray.run_eq (astray : call.Astray c) (d : δ) :
    call.run c d = (c.lose call.takes, d) := by
  obtain ⟨kind, meant, other⟩ := astray
  cases call with
  | dragMove | endMove | dragResize | endResize | dragConnection | endConnection
  | cancelConnection | dragSegment | endSegment | cancelSegment | updateLasso | endLasso =>
    obtain rfl := Option.some.inj meant
    simp only [run, Canvas.dragMove, Canvas.endMove, Canvas.dragResize, Canvas.endResize,
      Canvas.dragConnection, Canvas.endConnection, Canvas.cancelConnection, Canvas.dragSegment,
      Canvas.endSegment, Canvas.cancelSegment, Canvas.updateLasso, Canvas.endLasso]
    split
    · next drag => exact absurd (congrArg Drag.kind? drag) other
    · rfl
  | _ => exact absurd meant.symm (Option.some_ne_none kind)

theorem Call.Astray.lose (astray : call.Astray c) (lost : Bool) : call.Astray (c.lose lost) := by
  obtain ⟨kind, meant, other⟩ := astray
  refine ⟨kind, meant, ?_⟩
  cases lost with
  | false => exact other
  | true => simp [Drag.kind?]

/-- Any number of calls that are astray come to no more than the loss of the drag. -/
theorem foldl_run_astray (astray : ∀ call ∈ calls, call.Astray c) (d : δ) :
    calls.foldl (fun (state : Canvas × δ) call => call.run state.1 state.2) (c, d)
      = (c.lose (calls.any Call.takes), d) := by
  induction calls generalizing c with
  | nil => rfl
  | cons call calls ih =>
    obtain ⟨first, rest⟩ := List.forall_mem_cons.1 astray
    rw [List.foldl_cons, first.run_eq, ih fun call there => (rest call there).lose _, lose_lose,
      List.any_cons]

/-- A call that is astray does nothing exactly when it looks first or finds no drag; and whatever
calls are astray, nothing but the drag can be lost. -/
theorem run_astray (c : Canvas) (d : δ) :
    (∀ call : Call, call.Astray c →
      (call.run c d = (c, d) ↔ (call.takes = true → c.drag = .none))) ∧
    ∀ calls : List Call, (∀ call ∈ calls, call.Astray c) →
      calls.foldl (fun (state : Canvas × δ) call => call.run state.1 state.2) (c, d)
        = ({ c with drag := if calls.any Call.takes then .none else c.drag }, d) := by
  refine ⟨fun call astray => ?_, fun calls astray => foldl_run_astray astray d⟩
  rw [astray.run_eq, ← lose_eq_self_iff, Prod.mk.injEq, and_iff_left rfl]

def movingBox : List Event :=
  [.mutate (.insertNode ⟨"osc~", ⟨0, 0, 40, 20⟩, [], [true]⟩),
    .mutate (.insertNode ⟨"dac~", ⟨0, 100, 40, 20⟩, [true], []⟩), .call .sync,
    .call (.beginMove 1 ⟨10, 10⟩), .call (.dragMove ⟨70, 10⟩ true 0)]

def drawingCable : List Event :=
  [.mutate (.insertNode ⟨"osc~", ⟨0, 0, 40, 20⟩, [], [true]⟩),
    .mutate (.insertNode ⟨"dac~", ⟨0, 100, 40, 20⟩, [true], []⟩), .call .sync,
    .call (.beginConnection ⟨1, .outlet, 0⟩ false), .call (.dragConnection ⟨15, 100⟩)]

theorem run_astray_movingBox :
    (Call.dragResize ⟨0, 0⟩ false 0).Astray (play {} {} movingBox).1 ∧
      Call.endResize.Astray (play {} {} movingBox).1 ∧
      (Call.dragResize ⟨0, 0⟩ false 0).run (play {} {} movingBox).1 (play {} {} movingBox).2
        = play {} {} movingBox ∧
      [Call.dragResize ⟨0, 0⟩ false 0, .endResize].foldl
          (fun (state : Canvas × Patch) call => call.run state.1 state.2) (play {} {} movingBox)
        = ({ (play {} {} movingBox).1 with drag := .none }, (play {} {} movingBox).2) := by
  have moving : (play {} {} movingBox).1.drag.kind? = some .boxes := by decide +kernel
  have goesOn : (Call.dragResize ⟨0, 0⟩ false 0).Astray (play {} {} movingBox).1 :=
    ⟨.resize, rfl, by rw [moving]; decide⟩
  have letsGo : Call.endResize.Astray (play {} {} movingBox).1 :=
    ⟨.resize, rfl, by rw [moving]; decide⟩
  obtain ⟨once, often⟩ := run_astray (play {} {} movingBox).1 (play {} {} movingBox).2
  exact ⟨goesOn, letsGo, (once _ goesOn).2 fun takes => absurd takes Bool.false_ne_true,
    often _ (List.forall_mem_cons.2 ⟨goesOn, List.forall_mem_singleton.2 letsGo⟩)⟩

/-- A move that is let go of as a resize leaves its box ahead of the patch with nothing dragged, and
a cable that is let go of as a move leaves the jack lit that it was led to. -/
theorem run_astray_loses :
    (¬ ∀ c, Reached c → ∀ p : Patch, ∀ call : Call, call.Astray c → call.run c p = (c, p)) ∧
    (let state := play {} {} (movingBox ++ [.call .endResize]);
      state.1.drag = .none ∧ (state.1.scene.box? 1).map (·.content) = some ⟨60, 0, 40, 20⟩ ∧
        (Keyed.get? state.2.nodes 1).map (·.bounds) = some ⟨0, 0, 40, 20⟩) ∧
    (let state := play {} {} (drawingCable ++ [.call (.endMove 0)]);
      state.1.drag = .none ∧ state.1.target = some ⟨2, .inlet, 0⟩ ∧
        state.1.scene.targetedCount = 1) := by
  refine ⟨fun always => ?_, by decide +kernel, by decide +kernel⟩
  have moving : (play {} {} movingBox).1.drag.kind? = some .boxes := by decide +kernel
  have same := always _ (reached_play {} {} movingBox) (play {} {} movingBox).2 .endResize
    ⟨.resize, rfl, by rw [moving]; decide⟩
  have kept := congrArg (fun state => state.1.drag) same
  revert kept
  decide +kernel

end Canvas

end Patchbay
