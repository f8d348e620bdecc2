import Patchbay.Proofs.Calls

/-!
# Boxes are chosen once

No box stands twice among the selected ones, so what is done to the selection is done to each box once.
-/

namespace Patchbay

open Keyed (keys)

namespace Selection

theorem nodup_toggle {ks : List Nat} (nodup : ks.Nodup) (key : Nat) : (toggle key ks).Nodup := by
  unfold toggle
  split
  · exact nodup.erase key
  · next fresh =>
    refine nodup.append (List.nodup_singleton key) ?_
    simpa using fresh

theorem nodup_closeLasso {sel : Selection} {s : Scene} (nodup : sel.boxes.Nodup)
    (boxes : (keys s.boxes).Nodup) : (sel.closeLasso s).1.boxes.Nodup := by
  unfold closeLasso
  split
  · exact nodup
  · dsimp only
    split
    · exact boxes.sublist (List.filter_sublist.map _)
    · exact nodup

end Selection

namespace Canvas

variable {δ : Type} [Document δ] {c : Canvas}

@[simp] theorem selection_follow (c : Canvas) (moved : List Nat) :
    (c.follow moved).selection = c.selection := rfl

@[simp] theorem selection_markSelection (c : Canvas) : c.markSelection.selection = c.selection := rfl

@[simp] theorem selection_clearTarget (c : Canvas) : c.clearTarget.selection = c.selection := by
  unfold clearTarget
  split <;> rfl

@[simp] theorem selection_aim (c : Canvas) (target : Option JackRef) :
    (c.aim target).selection = c.selection := by
  unfold aim
  split
  · rfl
  · dsimp only
    split
    · exact selection_clearTarget c
    · split <;> exact selection_clearTarget c

@[simp] theorem selection_pushToken (c : Canvas) (d : δ) (key : Nat) (token : String) (now : Nat) :
    (c.pushToken d key token now).1.selection = c.selection := by
  unfold pushToken
  split <;> rfl

@[simp] theorem selection_routeCable (c : Canvas) (d : δ) (key now : Nat) :
    (c.routeCable d key now).1.selection = c.selection := by
  unfold routeCable
  split
  · exact selection_pushToken ..
  · rfl

@[simp] theorem selection_routeBlocked (c : Canvas) (d : δ) (moved : List Nat) (now : Nat) :
    (c.routeBlocked d moved now).1.selection = c.selection :=
  routeBlocked_induction (P := fun state => state.1.selection = c.selection) moved now
    (fun b e key same => (selection_routeCable b e key now).trans same) rfl

@[simp] theorem selection_cancelSegment (c : Canvas) : c.cancelSegment.selection = c.selection := by
  unfold cancelSegment
  split <;> rfl

theorem boxes_cancelDrag (c : Canvas) : c.cancelDrag.selection.boxes = c.selection.boxes := by
  unfold cancelDrag
  split <;> simp

theorem boxes_cancelBlank (c : Canvas) (key : Nat) :
    (c.cancelBlank key).1.selection.boxes.Sublist c.selection.boxes := by
  unfold cancelBlank
  split
  · exact List.filter_sublist
  · exact List.Sublist.refl _

theorem boxes_sync (c : Canvas) (d : δ) :
    (c.sync d).1.selection.boxes.Sublist c.selection.boxes := by
  have kept (t : Canvas) : t.dropLostDrag.selection = t.selection := by
    unfold dropLostDrag
    split
    · exact selection_clearTarget _
    · rfl
  simp only [sync, kept]
  exact List.filter_sublist

def Call.Chooses : Call → Prop
  | sync | idle | selectBox _ _ | selectCable _ _ | deselectAll | beginLasso _ | updateLasso _
  | endLasso | beginMove _ _ | setLocked _ | placeBlank _ | cancelBlank _ | commitBlank _ _
  | deleteSelection | cancelDrag => True
  | _ => False

theorem selection_call (d : δ) {call : Call} (other : ¬call.Chooses) :
    (call.run c d).1.selection = c.selection := by
  cases call with
  | dragMove position bypass now =>
    simp only [Call.run, dragMove]
    split
    · split <;> rfl
    · rfl
  | endMove now =>
    simp only [Call.run, endMove]
    split
    · split
      · rfl
      · split
        · rfl
        · split
          · exact selection_routeBlocked ..
          · rfl
    · rfl
  | beginResize key edges position =>
    simp only [Call.run, beginResize]
    split <;> rfl
  | dragResize position bypass now =>
    simp only [Call.run, dragResize]
    split
    · split <;> rfl
    · rfl
  | endResize =>
    simp only [Call.run, endResize]
    split
    · split
      · rfl
      · split
        · rfl
        · split <;> rfl
    · rfl
  | alignSelection a =>
    simp only [Call.run, alignSelection]
    split
    · rfl
    · split
      · rfl
      · split <;> rfl
  | beginConnection jack multi =>
    simp only [Call.run, beginConnection]
    split
    · rfl
    · split <;> rfl
  | dragConnection position =>
    simp only [Call.run, dragConnection]
    split
    · split
      · rfl
      · exact selection_aim ..
    · rfl
  | endConnection =>
    simp only [Call.run, endConnection]
    split
    · split
      · exact selection_clearTarget _
      · split <;> exact selection_clearTarget _
    · rfl
  | cancelConnection =>
    simp only [Call.run, cancelConnection]
    split
    · exact selection_clearTarget _
    · rfl
  | beginSegment key position =>
    simp only [Call.run, beginSegment]
    split
    · rfl
    · split
      · split
        · rfl
        · split <;> rfl
      · rfl
  | dragSegment position =>
    simp only [Call.run, dragSegment]
    split
    · split
      · rfl
      · split <;> rfl
    · rfl
  | endSegment now =>
    simp only [Call.run, endSegment]
    split
    · split
      · split
        · rfl
        · exact selection_pushToken ..
      · rfl
    · rfl
  | cancelSegment => exact selection_cancelSegment c
  | routeCable key now => exact selection_routeCable ..
  | straightenCable key now =>
    simp only [Call.run, straightenCable]
    split
    · rfl
    · exact selection_pushToken ..
  | reanchorCable key =>
    simp only [Call.run, reanchorCable]
    split <;> rfl
  | pushToken key token now => exact selection_pushToken ..
  | tick now =>
    simp only [Call.run, tick]
    split <;> rfl
  | setSettings | setViewport | setGridOrigin | requestSync | flushTokens => rfl
  | _ => exact absurd trivial other

theorem chosen_call (regular : c.scene.Regular) (chosen : c.selection.boxes.Nodup) (d : δ)
    (call : Call) : (call.run c d).1.selection.boxes.Nodup := by
  cases call with
  | sync => exact chosen.sublist (boxes_sync c d)
  | idle =>
    simp only [Call.run, idle]
    split
    · exact chosen
    · exact chosen.sublist (boxes_sync c d)
  | selectBox key toggle =>
    simp only [Call.run, selectBox]
    split
    · exact chosen
    · cases toggle with
      | true => exact Selection.nodup_toggle chosen key
      | false => exact List.nodup_singleton key
  | selectCable key toggle =>
    simp only [Call.run, selectCable]
    split
    · exact chosen
    · cases toggle with
      | true => exact chosen
      | false => exact List.nodup_nil
  | deselectAll => exact List.nodup_nil
  | beginLasso position =>
    simp only [Call.run, beginLasso]
    split
    · exact chosen
    · exact List.nodup_nil
  | updateLasso position =>
    simp only [Call.run, updateLasso]
    split <;> exact chosen
  | endLasso =>
    simp only [Call.run, endLasso]
    split
    · exact Selection.nodup_closeLasso chosen regular.boxes
    · exact chosen
  | beginMove grabbed position =>
    simp only [Call.run, beginMove]
    split
    · exact chosen
    · dsimp only
      split
      · exact chosen
      · exact List.nodup_singleton grabbed
  | setLocked locked =>
    simp only [Call.run, setLocked]
    split
    · exact List.nodup_nil
    · exact chosen
  | placeBlank position =>
    simp only [Call.run, placeBlank]
    split
    · exact chosen
    · exact List.nodup_singleton _
  | cancelBlank key => exact chosen.sublist (boxes_cancelBlank c key)
  | cancelDrag =>
    simp only [Call.run, boxes_cancelDrag]
    exact chosen
  | deleteSelection =>
    simp only [Call.run, deleteSelection]
    split
    · exact chosen
    · split
      · split <;> exact chosen
      · split <;> exact List.nodup_nil
  | commitBlank key text =>
    simp only [Call.run, commitBlank]
    split
    · exact chosen
    · split
      · exact chosen
      · split
        · exact chosen.sublist (boxes_cancelBlank c key)
        · split <;> exact chosen
  | _ =>
    rw [selection_call d id]
    exact chosen

theorem Reached.chosen (reached : Reached c) : c.selection.boxes.Nodup := by
  induction reached with
  | ofSettings settings => exact List.nodup_nil
  | call reached d call ih => exact chosen_call reached.regular ih d call

end Canvas

end Patchbay
