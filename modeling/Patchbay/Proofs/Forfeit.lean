import Patchbay.Proofs.Waiting

/-!
# Deletions that are refused

A deletion calls off the tokens that wait for its cables before it writes to the document. When the
document refuses, the canvas keeps its scene and its selection, but not those tokens.
-/

namespace Patchbay

open Keyed (keys get?)

namespace WriteQueue

/-- What the calls of a canvas can make of its queue. -/
inductive Becomes : WriteQueue → WriteQueue → Prop
  | refl (q : WriteQueue) : Becomes q q
  | settings (q : WriteQueue) (s : RoutingSettings) : Becomes q (q.setSettings s)
  | push {δ : Type} [Document δ] (q : WriteQueue) (d : δ) (handle : Nat) (token : String)
      (now : Nat) : Becomes q (q.push d handle token now).1
  | cancel (q : WriteQueue) (handle : Nat) : Becomes q (q.cancel handle).1
  | flush {δ : Type} [Document δ] (q : WriteQueue) (d : δ) : Becomes q (q.flush d).1
  | trans {q r s : WriteQueue} (first : Becomes q r) (second : Becomes r s) : Becomes q s

variable {δ : Type} [Document δ] {q r : WriteQueue} {h : Nat} {hs : List Nat} {token : String}

theorem Becomes.timed (becomes : q.Becomes r) (timed : q.Timed) : r.Timed := by
  induction becomes with
  | refl q => exact timed
  | settings q s => exact timed
  | push q d h token now => exact timed_push q d h token now
  | cancel q h => exact timed.cancel h
  | flush q d => exact timed_flush q d
  | trans first second ih₁ ih₂ => exact ih₂ (ih₁ timed)

def cancelAll (q : WriteQueue) (hs : List Nat) : WriteQueue :=
  hs.foldl (fun q h => (q.cancel h).1) q

theorem becomes_cancelAll (q : WriteQueue) (hs : List Nat) : q.Becomes (q.cancelAll hs) := by
  induction hs generalizing q with
  | nil => exact .refl q
  | cons h hs ih => exact .trans (.cancel q h) (ih _)

theorem becomes_tick (q : WriteQueue) (d : δ) (now : Nat) : q.Becomes (q.tick d now).1 := by
  unfold tick
  split
  · exact .flush q d
  · exact .refl q

theorem token?_cancelAll (q : WriteQueue) (hs : List Nat) (h : Nat) :
    (q.cancelAll hs).token? h = if h ∈ hs then none else q.token? h := by
  induction hs generalizing q with
  | nil => rfl
  | cons k hs ih =>
    rw [cancelAll, List.foldl_cons]
    refine (ih (q.cancel k).1).trans ?_
    by_cases here : h = k
    · subst here
      have gone : (q.cancel h).1.token? h = none := by
        refine Keyed.get?_eq_none_iff.2 fun there => ?_
        obtain ⟨e, there, named⟩ := List.mem_map.1 there
        simpa [named] using (List.mem_filter.1 there).2
      simp [gone]
    · have kept : (q.cancel k).1.token? h = q.token? h := Keyed.get?_remove_ne here
      simp [kept, here]

theorem cancel_of_none (timed : q.Timed) (none : q.token? h = none) : (q.cancel h).1 = q := by
  have left : Keyed.remove q.pending h = q.pending :=
    Keyed.remove_of_not_mem (Keyed.get?_eq_none_iff.1 none)
  simp only [cancel, left]
  split
  · next quiet => rw [← timed.2 (List.isEmpty_iff.1 quiet)]
  · rfl

theorem cancelAll_eq_self_iff (timed : q.Timed) :
    q.cancelAll hs = q ↔ ∀ h ∈ hs, q.token? h = none := by
  constructor
  · intro same h there
    rw [← same, token?_cancelAll, if_pos there]
  · intro none
    induction hs with
    | nil => rfl
    | cons h hs ih =>
      obtain ⟨first, rest⟩ := List.forall_mem_cons.1 none
      rw [cancelAll, List.foldl_cons, cancel_of_none timed first]
      exact ih rest

end WriteQueue

namespace Canvas

variable {δ : Type} [Document δ] {c : Canvas} {p : Patch} {e : EditError}

theorem becomes_pushToken {q : WriteQueue} (d : δ) (key : Nat) (token : String) (now : Nat)
    (same : c.queue = q) : q.Becomes (c.pushToken d key token now).1.queue := by
  subst same
  unfold pushToken
  split
  · exact .refl _
  · exact .push ..

theorem becomes_routeCable (c : Canvas) (d : δ) (key now : Nat) :
    c.queue.Becomes (c.routeCable d key now).1.queue := by
  unfold routeCable
  split
  · refine becomes_pushToken d key _ now ?_
    rfl
  · exact .refl _

theorem becomes_routeBlocked (c : Canvas) (d : δ) (moved : List Nat) (now : Nat) :
    c.queue.Becomes (c.routeBlocked d moved now).1.queue :=
  routeBlocked_induction (P := fun state => c.queue.Becomes state.1.queue) moved now
    (fun b e key becomes => becomes.trans (becomes_routeCable b e key now)) (.refl _)

theorem becomes_endMove (c : Canvas) (d : δ) (now : Nat) :
    c.queue.Becomes (c.endMove d now).1.queue := by
  unfold endMove
  split
  · dsimp only
    split
    · exact .refl _
    · split
      · exact .refl _
      · split
        · exact becomes_routeBlocked (letGo c _).requestSync _ _ now
        · exact .refl _
  · exact .refl _

theorem becomes_endSegment (c : Canvas) (d : δ) (now : Nat) :
    c.queue.Becomes (c.endSegment d now).1.queue := by
  unfold endSegment
  split
  · dsimp only
    split
    · split
      · exact .refl _
      · refine becomes_pushToken d _ _ now ?_
        rfl
    · exact .refl _
  · exact .refl _

theorem becomes_straightenCable (c : Canvas) (d : δ) (key now : Nat) :
    c.queue.Becomes (c.straightenCable d key now).1.queue := by
  unfold straightenCable
  split
  · exact .refl _
  · refine becomes_pushToken d key "" now ?_
    rfl

theorem becomes_deleteSelection (c : Canvas) (d : δ) :
    c.queue.Becomes (c.deleteSelection d).1.queue := by
  have called := c.queue.becomes_cancelAll c.doomedCables
  unfold deleteSelection
  split
  · exact .refl _
  · dsimp only
    split <;> split <;> exact called

theorem queue_clearTarget (c : Canvas) : c.clearTarget.queue = c.queue := by
  unfold clearTarget
  split <;> rfl

theorem queue_dropLostDrag (c : Canvas) : c.dropLostDrag.queue = c.queue := by
  unfold dropLostDrag
  split
  · exact queue_clearTarget _
  · rfl

theorem queue_cancelDrag (c : Canvas) : c.cancelDrag.queue = c.queue := by
  unfold cancelDrag
  split
  · rfl
  · rfl
  · rfl
  · exact queue_clearTarget _
  · unfold cancelSegment
    split <;> rfl
  · rfl

theorem queue_dragConnection (c : Canvas) (position : Point) :
    (c.dragConnection position).1.queue = c.queue := by
  unfold dragConnection
  split
  · dsimp only
    split
    · rfl
    · unfold aim
      dsimp only
      repeat' split
      all_goals first | rfl | exact queue_clearTarget _
  · rfl

theorem queue_endConnection (c : Canvas) (d : δ) : (c.endConnection d).1.queue = c.queue := by
  unfold endConnection
  split
  · dsimp only
    split
    · exact queue_clearTarget _
    · split <;> exact queue_clearTarget _
  · rfl

theorem Call.becomes (call : Call) (c : Canvas) (d : δ) :
    c.queue.Becomes (call.run c d).1.queue := by
  have same {q : WriteQueue} (same : q = c.queue) : c.queue.Becomes q := same ▸ .refl _
  cases call with
  | setSettings settings => exact .settings c.queue settings.routing
  | setLocked locked =>
    cases locked with
    | true => exact same (queue_cancelDrag c)
    | false => exact same rfl
  | sync => exact same (queue_dropLostDrag _)
  | idle =>
    simp only [run, Canvas.idle]
    split
    · exact same rfl
    · exact same (queue_dropLostDrag _)
  | selectBox key toggle => exact same (by simp only [run, Canvas.selectBox]; split <;> rfl)
  | selectCable key toggle => exact same (by simp only [run, Canvas.selectCable]; split <;> rfl)
  | beginLasso position => exact same (by simp only [run, Canvas.beginLasso]; split <;> rfl)
  | updateLasso position => exact same (by simp only [run, Canvas.updateLasso]; split <;> rfl)
  | endLasso => exact same (by simp only [run, Canvas.endLasso]; split <;> rfl)
  | beginMove grabbed position =>
    simp only [run, Canvas.beginMove]
    repeat' split
    all_goals exact same rfl
  | dragMove position bypass now =>
    simp only [run, Canvas.dragMove]
    repeat' split
    all_goals exact same rfl
  | endMove now => exact becomes_endMove c d now
  | beginResize key edges position =>
    exact same (by simp only [run, Canvas.beginResize]; split <;> rfl)
  | dragResize position bypass now =>
    simp only [run, Canvas.dragResize]
    repeat' split
    all_goals exact same rfl
  | endResize =>
    simp only [run, Canvas.endResize]
    repeat' split
    all_goals exact same rfl
  | deleteSelection => exact becomes_deleteSelection c d
  | alignSelection a =>
    simp only [run, Canvas.alignSelection]
    repeat' split
    all_goals exact same rfl
  | beginConnection jack multi =>
    simp only [run, Canvas.beginConnection]
    repeat' split
    all_goals exact same rfl
  | dragConnection position => exact same (queue_dragConnection c position)
  | endConnection => exact same (queue_endConnection c d)
  | cancelConnection =>
    simp only [run, Canvas.cancelConnection]
    split
    · exact same (queue_clearTarget _)
    · exact same rfl
  | beginSegment key position =>
    simp only [run, Canvas.beginSegment]
    repeat' split
    all_goals exact same rfl
  | dragSegment position =>
    simp only [run, Canvas.dragSegment]
    repeat' split
    all_goals exact same rfl
  | endSegment now => exact becomes_endSegment c d now
  | cancelSegment => exact same (by simp only [run, Canvas.cancelSegment]; split <;> rfl)
  | cancelDrag => exact same (queue_cancelDrag c)
  | routeCable key now => exact becomes_routeCable c d key now
  | straightenCable key now => exact becomes_straightenCable c d key now
  | reanchorCable key => exact same (by simp only [run, Canvas.reanchorCable]; split <;> rfl)
  | pushToken key token now => exact becomes_pushToken d key token now rfl
  | tick now =>
    have ticked := c.queue.becomes_tick d now
    simp only [run, Canvas.tick]
    split <;> exact ticked
  | flushTokens => exact .flush c.queue d
  | placeBlank position => exact same (by simp only [run, Canvas.placeBlank]; split <;> rfl)
  | commitBlank key text =>
    simp only [run, Canvas.commitBlank, Canvas.cancelBlank]
    repeat' split
    all_goals exact same rfl
  | cancelBlank key => exact same (by simp only [run, Canvas.cancelBlank]; split <;> rfl)
  | _ => exact same rfl

theorem Reached.timed (reached : Reached c) : c.queue.Timed := by
  induction reached with
  | ofSettings settings => exact iff_of_true rfl rfl
  | call reached d call ih => exact (call.becomes _ d).timed ih

/-- A deletion that is refused calls off what waits for the doomed cables, and asks for a pass. -/
theorem deleteSelection_of_error {d : δ} (refused : (c.deleteSelection d).2.2 = .error e) :
    (c.deleteSelection d).1 = { c with
      queue := c.queue.cancelAll c.doomedCables
      syncPending := true } := by
  by_cases idle : (c.locked || c.selection.isEmpty) = true
  · rw [deleteSelection, if_pos idle] at refused
    exact absurd refused (by simp)
  · obtain ⟨handles, made⟩ : ∃ handles, (c.selection.boxes.filterMap fun key =>
      (c.scene.box? key).map fun b => (key, b)).filterMap (fun e => e.2.handle) = handles := ⟨_, rfl⟩
    rw [deleteSelection, if_neg idle] at refused ⊢
    simp only [made] at refused ⊢
    cases quiet : c.looseWires.isEmpty && handles.isEmpty with
    | true =>
      simp only [quiet, if_true] at refused
      exact absurd refused (by simp)
    | false =>
      simp only [quiet, Bool.false_eq_true, if_false] at refused ⊢
      split at refused
      · rfl
      · exact absurd refused (by simp)

/-- A refused deletion leaves the scene, the selection and all else but the queue. The queue is left
exactly when nothing waits for a doomed cable; and of the tokens that waited, a flush puts those on
their wires, where these are still listed, that are of other cables or on the wire already. -/
theorem deleteSelection_error (reached : Reached c) (p : Patch)
    (refused : (c.deleteSelection p).2.2 = .error e) :
    let t := (c.deleteSelection p).1
    let q := (c.deleteSelection p).2.1
    t = { c with queue := t.queue, syncPending := true } ∧
      (t.queue = c.queue ↔ ∀ h ∈ c.doomedCables, c.queue.token? h = none) ∧
      ∀ h token, c.queue.token? h = some token → ∀ w, q.wire? h = some w →
        (((t.flushTokens q).2.1.wire? h).map Wire.token = some token ↔
          h ∈ c.doomedCables → w.token = token) := by
  intro t q
  have left : t = { c with queue := c.queue.cancelAll c.doomedCables, syncPending := true } :=
    deleteSelection_of_error refused
  have queue : t.queue = c.queue.cancelAll c.doomedCables := congrArg Canvas.queue left
  refine ⟨by rw [queue, left], ?_, fun h token waits w listed => ?_⟩
  · rw [queue]
    exact WriteQueue.cancelAll_eq_self_iff reached.timed
  · have nodup : (keys t.queue.pending).Nodup := (reached.call p .deleteSelection).waiting
    have written : ((t.flushTokens q).2.1.wire? h).map Wire.token
        = some ((t.queue.token? h).getD w.token) := by
      have contents : (t.flushTokens q).2.1.toContents = q.toContents.setTokens t.queue.pending :=
        WriteQueue.toContents_flush t.queue q
      rw [contents]
      exact Contents.token_setTokens nodup q.toContents listed
    rw [written, queue, WriteQueue.token?_cancelAll, waits]
    by_cases doomed : h ∈ c.doomedCables <;> simp [doomed]

/-- Two cables are selected, a token waits for the second, and the patch loses the wire of the first. -/
def forfeited : List Event :=
  [.mutate (.insertNode ⟨"osc~", ⟨0, 0, 40, 20⟩, [], [true, true]⟩),
    .mutate (.insertNode ⟨"dac~", ⟨100, 100, 40, 20⟩, [true], []⟩),
    .mutate (.insertWire ⟨1, 0, 2, 0⟩), .mutate (.insertWire ⟨1, 1, 2, 0⟩), .call .sync,
    .call (.pushToken 2 "BB4oHnjmeObK" 0), .call (.selectCable 1 false), .call (.selectCable 2 true),
    .mutate (.edit (.disconnect ⟨1, 0, 2, 0⟩ none))]

theorem deleteSelection_error_forfeited :
    let (c, p) := play {} {} forfeited
    let (t, q, result) := c.deleteSelection p
    Reached c ∧ result = .error (.noWire ⟨1, 0, 2, 0⟩) ∧
      t = { c with queue := t.queue, syncPending := true } ∧
      c.queue.token? 4 = some "BB4oHnjmeObK" ∧ q.wire? 4 = some ⟨4, ⟨1, 1, 2, 0⟩, ""⟩ ∧
      ((t.flushTokens q).2.1.wire? 4).map Wire.token ≠ some "BB4oHnjmeObK" := by
  have reached : Reached (play {} {} forfeited).1 := reached_play {} {} forfeited
  have refused : ((play {} {} forfeited).1.deleteSelection (play {} {} forfeited).2).2.2
      = .error (.noWire ⟨1, 0, 2, 0⟩) := by decide +kernel
  have waits : (play {} {} forfeited).1.queue.token? 4 = some "BB4oHnjmeObK" := by decide +kernel
  have listed : ((play {} {} forfeited).1.deleteSelection (play {} {} forfeited).2).2.1.wire? 4
      = some ⟨4, ⟨1, 1, 2, 0⟩, ""⟩ := by decide +kernel
  have doomed : 4 ∈ (play {} {} forfeited).1.doomedCables := by decide +kernel
  obtain ⟨kept, -, written⟩ := deleteSelection_error reached (play {} {} forfeited).2 refused
  refine ⟨reached, refused, kept, waits, listed, fun there => ?_⟩
  exact absurd ((written 4 _ waits _ listed).1 there doomed) (by decide)

/-- The queue is not always left, and a token that waited for a wire that is still there is lost. -/
theorem deleteSelection_forfeits :
    ¬ ∀ c, Reached c → ∀ (p : Patch) (e : EditError), (c.deleteSelection p).2.2 = .error e →
      (c.deleteSelection p).1.queue = c.queue ∧
      ∀ h token, c.queue.token? h = some token →
        ((c.deleteSelection p).2.1.wire? h).isSome = true →
        (((c.deleteSelection p).1.flushTokens (c.deleteSelection p).2.1).2.1.wire? h).map
          Wire.token = some token := by
  intro always
  have refused : ((play {} {} forfeited).1.deleteSelection (play {} {} forfeited).2).2.2
      = .error (.noWire ⟨1, 0, 2, 0⟩) := by decide +kernel
  obtain ⟨-, written⟩ := always _ (reached_play {} {} forfeited) _ _ refused
  have lost := written 4 "BB4oHnjmeObK" (by decide +kernel) (by decide +kernel)
  revert lost
  decide +kernel

end Canvas

end Patchbay
