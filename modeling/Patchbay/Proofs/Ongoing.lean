import Patchbay.Proofs.Stray

/-!
# Drags that go on

A drag is taken up while there is none. From then on each call leaves it, or there is none any more.
Calls that are about cables leave it, as they leave the boxes and what is selected.
-/

namespace Patchbay.Canvas

open Drag (Kind)

variable {δ : Type} [Document δ] {c : Canvas} {d : δ}

def Call.begins? : Call → Option Kind
  | beginMove _ _ => some .boxes
  | beginResize _ _ _ => some .resize
  | beginConnection _ _ => some .connection
  | beginSegment _ _ => some .segment
  | beginLasso _ => some .lasso
  | _ => none

@[simp] theorem drag_clearTarget (c : Canvas) : c.clearTarget.drag = c.drag := by
  unfold clearTarget
  split <;> rfl

@[simp] theorem drag_aim (c : Canvas) (target : Option JackRef) : (c.aim target).drag = c.drag := by
  unfold aim
  dsimp only
  repeat' split
  all_goals first | rfl | exact drag_clearTarget c

/-- A canvas that is another one but for its cables, what waits for them, and the guides. -/
structure Recabled (c t : Canvas) : Prop where
  boxes : t.scene.boxes = c.scene.boxes
  selection : t.selection = c.selection
  drag : t.drag = c.drag
  target : t.target = c.target

theorem Recabled.refl (c : Canvas) : Recabled c c := ⟨rfl, rfl, rfl, rfl⟩

theorem Recabled.trans {t u : Canvas} (first : Recabled c t) (second : Recabled t u) :
    Recabled c u where
  boxes := second.boxes.trans first.boxes
  selection := second.selection.trans first.selection
  drag := second.drag.trans first.drag
  target := second.target.trans first.target

theorem recabled_pushToken (c : Canvas) (d : δ) (key : Nat) (token : String) (now : Nat) :
    Recabled c (c.pushToken d key token now).1 := by
  unfold pushToken
  split <;> exact ⟨rfl, rfl, rfl, rfl⟩

theorem recabled_updateCable (c : Canvas) (key : Nat) (f : Cable → Cable) :
    Recabled c { c with scene := c.scene.updateCable key f } := ⟨rfl, rfl, rfl, rfl⟩

theorem recabled_routeCable (c : Canvas) (d : δ) (key now : Nat) :
    Recabled c (c.routeCable d key now).1 := by
  unfold routeCable
  split
  · exact (recabled_updateCable c key _).trans (recabled_pushToken ..)
  · exact .refl c

theorem recabled_routeBlocked (c : Canvas) (d : δ) (moved : List Nat) (now : Nat) :
    Recabled c (c.routeBlocked d moved now).1 :=
  routeBlocked_induction (P := fun state => Recabled c state.1) moved now
    (fun b e key recabled => recabled.trans (recabled_routeCable b e key now)) (.refl c)

/-- The calls that are about cables only, but for segment drags. -/
def Call.Recables : Call → Prop
  | routeCable _ _ | straightenCable _ _ | reanchorCable _ | pushToken _ _ _ | tick _ | flushTokens =>
    True
  | _ => False

theorem Call.recabled {call : Call} (recables : call.Recables) (c : Canvas) (d : δ) :
    Recabled c (call.run c d).1 := by
  cases call with
  | routeCable key now => exact recabled_routeCable c d key now
  | straightenCable key now =>
    simp only [run, Canvas.straightenCable]
    split
    · exact .refl c
    · exact (recabled_updateCable c key _).trans (recabled_pushToken ..)
  | reanchorCable key =>
    simp only [run, Canvas.reanchorCable]
    split
    · exact recabled_updateCable c key _
    · exact .refl c
  | pushToken key token now => exact recabled_pushToken c d key token now
  | tick now =>
    simp only [run, Canvas.tick]
    split <;> exact ⟨rfl, rfl, rfl, rfl⟩
  | flushTokens => exact ⟨rfl, rfl, rfl, rfl⟩
  | _ => exact absurd recables id

theorem drag_cancelDrag (c : Canvas) : c.cancelDrag.drag = .none := by
  unfold cancelDrag
  split
  · assumption
  · rfl
  · rfl
  · exact drag_clearTarget _
  · unfold cancelSegment
    split <;> rfl
  · rfl

theorem drag_endMove (c : Canvas) (d : δ) (now : Nat) : (c.endMove d now).1.drag = .none := by
  unfold endMove
  split
  · dsimp only
    split
    · rfl
    · split
      · rfl
      · split
        · exact (recabled_routeBlocked ..).drag
        · rfl
  · rfl

theorem drag_sync (c : Canvas) (d : δ) :
    (c.sync d).1.drag = .none ∨ (c.sync d).1.drag = c.drag := by
  simp only [sync, dropLostDrag]
  split
  · exact Or.inl (drag_clearTarget _)
  · exact Or.inr rfl

theorem kind?_run (call : Call) (c : Canvas) (d : δ) :
    (call.run c d).1.drag.kind? = c.drag.kind? ∨ (call.run c d).1.drag.kind? = none ∨
      c.drag = .none ∧ (call.run c d).1.drag.kind? = call.begins? := by
  have same {e : Drag} (same : e = c.drag) : e.kind? = c.drag.kind? ∨ e.kind? = none ∨
      c.drag = .none ∧ e.kind? = call.begins? := Or.inl (congrArg Drag.kind? same)
  have gone {e : Drag} (gone : e = .none) : e.kind? = c.drag.kind? ∨ e.kind? = none ∨
      c.drag = .none ∧ e.kind? = call.begins? := Or.inr (Or.inl (congrArg Drag.kind? gone))
  have led (recables : call.Recables) : (call.run c d).1.drag.kind? = c.drag.kind? ∨
      (call.run c d).1.drag.kind? = none ∨
        c.drag = .none ∧ (call.run c d).1.drag.kind? = call.begins? :=
    same (Call.recabled recables c d).drag
  have free {b : Bool} (busy : ¬(c.isBusy || b) = true) : c.drag = .none := by
    simp only [isBusy, Bool.or_eq_true, not_or, bne_iff_ne, ne_eq, not_not] at busy
    exact busy.1.2
  cases call with
  | setLocked locked =>
    cases locked with
    | true => exact gone (drag_cancelDrag c)
    | false => exact same rfl
  | sync => exact (drag_sync c d).elim gone same
  | idle =>
    simp only [Call.run, idle]
    split
    · exact same rfl
    · exact (drag_sync c d).elim gone same
  | selectBox key toggle => exact same (by simp only [Call.run, selectBox]; split <;> rfl)
  | selectCable key toggle => exact same (by simp only [Call.run, selectCable]; split <;> rfl)
  | beginLasso position =>
    simp only [Call.run, beginLasso]
    split
    · exact same rfl
    · next busy => exact Or.inr (Or.inr ⟨free (b := false) (by simpa using busy), rfl⟩)
  | updateLasso position => exact same (by simp only [Call.run, updateLasso]; split <;> rfl)
  | endLasso =>
    simp only [Call.run, endLasso]
    split
    · exact gone rfl
    · exact same rfl
  | beginMove grabbed position =>
    simp only [Call.run, beginMove]
    split
    · exact same rfl
    · next busy => exact Or.inr (Or.inr ⟨free busy, rfl⟩)
  | dragMove position bypass now =>
    simp only [Call.run, dragMove]
    split
    · next drag =>
      split
      · exact same rfl
      · rw [drag]
        exact Or.inl rfl
    · exact same rfl
  | endMove now => exact gone (drag_endMove c d now)
  | beginResize key edges position =>
    simp only [Call.run, beginResize]
    split
    · exact same rfl
    · next busy => exact Or.inr (Or.inr ⟨free busy, rfl⟩)
  | dragResize position bypass now =>
    simp only [Call.run, dragResize]
    split
    · next drag =>
      split
      · exact same rfl
      · rw [drag]
        exact Or.inl rfl
    · exact same rfl
  | endResize =>
    simp only [Call.run, endResize]
    repeat' split
    all_goals exact gone rfl
  | deleteSelection =>
    simp only [Call.run, deleteSelection]
    repeat' split
    all_goals exact same rfl
  | alignSelection a =>
    simp only [Call.run, alignSelection]
    repeat' split
    all_goals exact same rfl
  | beginConnection jack multi =>
    simp only [Call.run, beginConnection]
    split
    · exact same rfl
    · next busy =>
      split
      · exact same rfl
      · exact Or.inr (Or.inr ⟨free (b := false) (by simpa using busy), rfl⟩)
  | dragConnection position =>
    simp only [Call.run, dragConnection]
    split
    · next drag =>
      rw [drag]
      split
      · exact Or.inl rfl
      · rw [drag_aim]
        exact Or.inl rfl
    · exact same rfl
  | endConnection =>
    simp only [Call.run, endConnection]
    repeat' split
    all_goals first | exact gone rfl | exact gone (drag_clearTarget _)
  | cancelConnection =>
    simp only [Call.run, cancelConnection]
    split
    · exact gone (drag_clearTarget _)
    · exact same rfl
  | beginSegment key position =>
    simp only [Call.run, beginSegment]
    split
    · exact same rfl
    · next busy =>
      repeat' split
      all_goals first
        | exact same rfl
        | exact Or.inr (Or.inr ⟨free (b := false) (by simpa using busy), rfl⟩)
  | dragSegment position =>
    simp only [Call.run, dragSegment]
    split
    · next drag =>
      rw [drag]
      repeat' split
      all_goals first | exact Or.inl rfl | exact Or.inr (Or.inl rfl) | rw [drag]; exact Or.inl rfl
    · exact same rfl
  | endSegment now =>
    simp only [Call.run, endSegment]
    repeat' split
    all_goals first | exact gone rfl | exact gone (recabled_pushToken ..).drag
  | cancelSegment => exact gone (by simp only [Call.run, cancelSegment]; split <;> rfl)
  | cancelDrag => exact gone (drag_cancelDrag c)
  | routeCable | straightenCable | reanchorCable | pushToken | tick | flushTokens =>
    exact led trivial
  | placeBlank position => exact same (by simp only [Call.run, placeBlank]; split <;> rfl)
  | commitBlank key text =>
    simp only [Call.run, commitBlank, cancelBlank]
    repeat' split
    all_goals exact same rfl
  | cancelBlank key => exact same (by simp only [Call.run, cancelBlank]; split <;> rfl)
  | _ => exact same rfl

end Patchbay.Canvas
