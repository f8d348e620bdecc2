import Patchbay.Proofs.Marks
import Patchbay.Proofs.Ongoing

/-!
# Lock mode

A canvas that is being locked gives up what it drags and what is selected, and then refuses gestures
until it is unlocked. Two of them do not look at the lock, so a box that is not in the document yet can
still be committed or dropped. All else stays, in the scene and in the document.
-/

namespace Patchbay

open Keyed (keys)

namespace Scene

variable {s t u : Scene} {sel : Selection} {key : Nat}

theorem Bears.updateCable (bears : s.Bears sel) (key : Nat) {f : Cable → Cable}
    (same : ∀ x, (f x).selected = x.selected) : (s.updateCable key f).Bears sel where
  boxes := bears.boxes
  cables k x found := by
    rw [cable?, Scene.updateCable, Arena.get?_update] at found
    split at found
    · obtain ⟨y, there, rfl⟩ := Option.map_eq_some_iff.1 found
      exact (same y).trans (bears.cables k y there)
    · exact bears.cables k x found

theorem Bears.removeBox (bears : s.Bears sel) (key : Nat) : (s.removeBox key).Bears sel where
  boxes k b found := by
    rw [box?, boxArena_removeBox, Arena.get?_remove, Option.ite_none_left_eq_some] at found
    exact bears.boxes k b found.2
  cables k x found := by
    rw [cable?, cableArena_removeBox] at found
    exact bears.cables k x found

/-- The box under a key is not in the document. -/
def IsBlank (s : Scene) (key : Nat) : Prop := ∃ b, s.box? key = some b ∧ b.handle = none

theorem isBlank_iff : s.IsBlank key ↔ (s.box? key).any (·.handle.isNone) = true := by
  cases found : s.box? key with
  | none => simp [IsBlank, found]
  | some b => simp [IsBlank, found]

instance (s : Scene) (key : Nat) : Decidable (s.IsBlank key) := decidable_of_iff _ isBlank_iff.symm

/-- Of two scenes and the patches beside them: cables, boxes of the document and wires are the same,
boxes that are not in the document may be dropped, or committed to a new node where they are. -/
structure Spares (s : Scene) (p : Patch) (t : Scene) (q : Patch) : Prop where
  cables : t.cables = s.cables
  committed : ∀ e ∈ s.boxes, e.2.handle ≠ none → e ∈ t.boxes
  boxes : ∀ e ∈ t.boxes, e ∈ s.boxes ∨ ∃ b h, (e.1, b) ∈ s.boxes ∧ b.handle = none ∧
    e.2 = { b with handle := some h, editing := false }
  nodes : p.nodes <+: q.nodes
  wires : q.wires = p.wires

theorem Spares.refl (s : Scene) (p : Patch) : Spares s p s p :=
  ⟨rfl, fun _ he _ => he, fun _ he => Or.inl he, List.prefix_refl _, rfl⟩

theorem Spares.trans {p q r : Patch} (first : Spares s p t q) (second : Spares t q u r) :
    Spares s p u r where
  cables := second.cables.trans first.cables
  committed e he some := second.committed e (first.committed e he some) some
  boxes e he := by
    rcases second.boxes e he with he | ⟨b, h, hb, none, same⟩
    · exact first.boxes e he
    · rcases first.boxes _ hb with hb | ⟨a, k, -, -, made⟩
      · exact Or.inr ⟨b, h, hb, none, same⟩
      · obtain rfl : b = _ := made
        exact absurd none (Option.some_ne_none k)
  nodes := first.nodes.trans second.nodes
  wires := second.wires.trans first.wires

theorem Spares.isBlank {p q : Patch} (spares : Spares s p t q) (exact : t.boxArena.Exact)
    (blank : t.IsBlank key) : s.IsBlank key := by
  obtain ⟨b, found, none⟩ := blank
  rcases spares.boxes _ (mem_boxes exact found) with there | ⟨a, h, -, -, made⟩
  · exact ⟨b, box?_of_mem there, none⟩
  · obtain rfl : b = _ := made
    exact absurd none (Option.some_ne_none h)

theorem IsBlank.ne_of_committed (blank : s.IsBlank key) {e : Nat × Box} (he : e ∈ s.boxes)
    (some : e.2.handle ≠ none) : e.1 ≠ key := by
  rintro rfl
  obtain ⟨b, found, none⟩ := blank
  obtain rfl : e.2 = b := Option.some.inj ((box?_of_mem he).symm.trans found)
  exact some none

theorem IsBlank.spares_removeBox (blank : s.IsBlank key) (p : Patch) :
    Spares s p (s.removeBox key) p where
  cables := cables_congr (s.cableArena_removeBox key)
  committed _ he some := by
    rw [boxes_removeBox]
    exact List.mem_filter.2 ⟨he, bne_iff_ne.2 (blank.ne_of_committed he some)⟩
  boxes _ he := by
    rw [boxes_removeBox] at he
    exact Or.inl (List.mem_filter.1 he).1
  nodes := List.prefix_refl _
  wires := rfl

theorem IsBlank.spares_commit (blank : s.IsBlank key) {p q : Patch} (handle : Nat)
    (nodes : p.nodes <+: q.nodes) (wires : q.wires = p.wires) :
    Spares s p (s.updateBox key fun b => { b with handle := some handle, editing := false }) q where
  cables := rfl
  committed _ he some := by
    rw [boxes_updateBox]
    exact Keyed.mem_update_of_ne _ he (blank.ne_of_committed he some)
  boxes e he := by
    rw [boxes_updateBox] at he
    rcases Keyed.of_mem_update he with ⟨he, -⟩ | ⟨b, hb, rfl⟩
    · exact Or.inl he
    · obtain ⟨a, found, none⟩ := blank
      obtain rfl : b = a := Option.some.inj ((box?_of_mem hb).symm.trans found)
      exact Or.inr ⟨b, handle, hb, none, rfl⟩
  nodes := nodes
  wires := wires

theorem not_isBlank_removeBox (s : Scene) (key : Nat) : ¬(s.removeBox key).IsBlank key := by
  rintro ⟨b, found, -⟩
  rw [box?, boxArena_removeBox, Arena.get?_remove, if_pos rfl] at found
  exact absurd found (by simp)

theorem not_isBlank_commit (s : Scene) (key handle : Nat) :
    ¬(s.updateBox key fun b => { b with handle := some handle, editing := false }).IsBlank key := by
  rintro ⟨b, found, none⟩
  rw [box?_updateBox_self] at found
  obtain ⟨a, -, rfl⟩ := Option.map_eq_some_iff.1 found
  exact absurd none (Option.some_ne_none handle)

end Scene

namespace Canvas

open Scene (Spares)

def Call.IsGesture : Call → Prop
  | selectBox _ _ | selectCable _ _ | deselectAll | beginLasso _ | updateLasso _ | endLasso
  | beginMove _ _ | dragMove _ _ _ | endMove _ | beginResize _ _ _ | dragResize _ _ _ | endResize
  | deleteSelection | alignSelection _ | beginConnection _ _ | dragConnection _ | endConnection
  | cancelConnection | beginSegment _ _ | dragSegment _ | endSegment _ | cancelSegment | cancelDrag
  | placeBlank _ | commitBlank _ _ | cancelBlank _ => True
  | _ => False

instance : DecidablePred Call.IsGesture := fun call => by
  cases call <;> simp only [Call.IsGesture] <;> infer_instance

/-- The box that a call commits or drops, if it is not in the document. -/
def Call.blank? : Call → Option Nat
  | commitBlank key _ | cancelBlank key => some key
  | _ => none

def Call.FindsBlank (s : Scene) (call : Call) : Prop :=
  ∃ key, call.blank? = some key ∧ s.IsBlank key

instance (s : Scene) (call : Call) : Decidable (call.FindsBlank s) :=
  decidable_of_iff (call.blank?.any fun key => decide (s.IsBlank key))
    (by simp [Call.FindsBlank, Option.any_eq_true])

/-- A canvas that was locked and has not been unlocked since, each call made with whatever document. -/
inductive Shut : Canvas → Prop
  | lock {c : Canvas} (reached : Reached c) : Shut (c.setLocked true)
  | call {δ : Type} [Document δ] {c : Canvas} (shut : Shut c) (d : δ) (call : Call)
      (stays : call ≠ .setLocked false) : Shut (call.run c d).1

/-- Locked, and nothing is dragged, selected or marked. -/
structure Latched (c : Canvas) : Prop where
  locked : c.locked = true
  drag : c.drag = .none
  selection : c.selection = {}
  bears : c.scene.Bears {}

variable {δ : Type} [Document δ] {c : Canvas} {d : δ} {call : Call} {p : Patch} {key : Nat}

theorem latched_setLocked (c : Canvas) : Latched (c.setLocked true) where
  locked := rfl
  drag := drag_cancelDrag c
  selection := rfl
  bears := Scene.bears_mark {} c.cancelDrag.scene

namespace Latched

theorem isBusy (latched : Latched c) : c.isBusy = true := by
  simp [Canvas.isBusy, latched.locked]

theorem deselectAll (latched : Latched c) : c.deselectAll = c := by
  rw [Canvas.deselectAll, ← latched.selection]
  have same : c.selection.mark c.scene = c.scene := latched.selection ▸ latched.bears.mark_eq
  rw [markSelection, same]

theorem astray (latched : Latched c) {kind : Drag.Kind} (meant : call.kind? = some kind) :
    call.Astray c :=
  ⟨kind, meant, by simp [latched.drag, Drag.kind?]⟩

/-- A gesture does nothing to a locked canvas, unless it finds a box that is not in the document. -/
theorem run_eq (latched : Latched c) (gesture : call.IsGesture) (quiet : ¬call.FindsBlank c.scene)
    (d : δ) : call.run c d = (c, d) := by
  have idle {kind : Drag.Kind} (meant : call.kind? = some kind) : call.run c d = (c, d) := by
    rw [(latched.astray meant).run_eq, lose_eq_self_iff.2 fun _ => latched.drag]
  cases call with
  | dragMove | endMove | dragResize | endResize | dragConnection | endConnection
  | cancelConnection | dragSegment | endSegment | cancelSegment | updateLasso | endLasso =>
    exact idle rfl
  | selectBox | selectCable | deleteSelection | alignSelection | placeBlank =>
    simp [Call.run, Canvas.selectBox, Canvas.selectCable, Canvas.deleteSelection,
      Canvas.alignSelection, Canvas.placeBlank, latched.locked]
  | beginLasso | beginMove | beginResize | beginConnection | beginSegment =>
    simp [Call.run, Canvas.beginLasso, Canvas.beginMove, Canvas.beginResize,
      Canvas.beginConnection, Canvas.beginSegment, latched.isBusy]
  | deselectAll => rw [Call.run, latched.deselectAll]
  | cancelDrag => simp only [Call.run, Canvas.cancelDrag, latched.drag]
  | commitBlank key text =>
    simp only [Call.run, Canvas.commitBlank]
    split
    · rfl
    · next b found =>
      have committed : b.handle.isSome = true :=
        Option.isSome_iff_ne_none.2 fun none => quiet ⟨key, rfl, b, found, none⟩
      rw [if_pos committed]
  | cancelBlank key =>
    have none : ¬c.scene.IsBlank key := fun blank => quiet ⟨key, rfl, blank⟩
    rw [Call.run, Canvas.cancelBlank, if_neg (none ∘ Scene.isBlank_iff.2)]
  | _ => exact absurd gesture id

theorem cancelBlank (latched : Latched c) (key : Nat) : Latched (c.cancelBlank key).1 := by
  unfold Canvas.cancelBlank
  split
  · refine ⟨latched.locked, latched.drag, ?_, latched.bears.removeBox key⟩
    rw [latched.selection]
    rfl
  · exact latched

theorem commitBlank (latched : Latched c) (d : δ) (key : Nat) (text : String) :
    Latched (c.commitBlank d key text).1 := by
  unfold Canvas.commitBlank
  split
  · exact latched
  · split
    · exact latched
    · dsimp only
      split
      · exact latched.cancelBlank key
      · split
        · exact latched
        · exact ⟨latched.locked, latched.drag, latched.selection,
            latched.bears.updateBox key fun _ => rfl⟩

theorem pushToken (latched : Latched c) (d : δ) (key : Nat) (token : String) (now : Nat) :
    Latched (c.pushToken d key token now).1 := by
  unfold Canvas.pushToken
  split
  · exact latched
  · exact ⟨latched.locked, latched.drag, latched.selection,
      latched.bears.updateCable key fun _ => rfl⟩

theorem updateRoute (latched : Latched c) (key : Nat) (route : Route) :
    Latched { c with scene := c.scene.updateCable key fun x => { x with route := route } } :=
  ⟨latched.locked, latched.drag, latched.selection, latched.bears.updateCable key fun _ => rfl⟩

theorem markSaved (latched : Latched c) : Latched c.markSaved := by
  refine ⟨latched.locked, latched.drag, latched.selection, latched.bears.boxes, fun k x found => ?_⟩
  simp only [Canvas.markSaved, Scene.cable?_mapCables] at found
  obtain ⟨y, there, rfl⟩ := Option.map_eq_some_iff.1 found
  exact latched.bears.cables k y there

theorem sync (latched : Latched c) (d : δ) : Latched (c.sync d).1 := by
  have kept {t : Canvas} (none : t.drag = .none) : t.dropLostDrag = t := by
    simp [dropLostDrag, none, Drag.isLost]
  simp only [Canvas.sync]
  generalize c.scene.reconcile _ = result
  obtain ⟨s, report⟩ := result
  have retained : c.selection.retain s = {} := by
    rw [latched.selection]
    rfl
  rw [kept]
  · exact ⟨latched.locked, latched.drag, retained, retained ▸ Scene.bears_mark _ s⟩
  · exact latched.drag

theorem run (latched : Latched c) (d : δ) (call : Call) (stays : call ≠ .setLocked false) :
    Latched (call.run c d).1 := by
  have quiet (gesture : call.IsGesture) (none : call.blank? = none) : Latched (call.run c d).1 := by
    rw [latched.run_eq gesture (fun ⟨key, sought, _⟩ => by simp [none] at sought) d]
    exact latched
  have same {t : Canvas} (scene : t.scene = c.scene) (locked : t.locked = c.locked)
      (drag : t.drag = c.drag) (selection : t.selection = c.selection) : Latched t :=
    ⟨locked.trans latched.locked, drag.trans latched.drag, selection.trans latched.selection,
      scene ▸ latched.bears⟩
  cases call with
  | setSettings | setViewport | setGridOrigin | requestSync => exact same rfl rfl rfl rfl
  | setLocked locked =>
    cases locked with
    | true => exact latched_setLocked c
    | false => exact absurd rfl stays
  | sync => exact latched.sync d
  | idle =>
    simp only [Call.run, Canvas.idle]
    split
    · exact latched
    · exact latched.sync d
  | routeCable key now =>
    simp only [Call.run, Canvas.routeCable]
    split
    · exact (latched.updateRoute key _).pushToken d key _ now
    · exact latched
  | straightenCable key now =>
    simp only [Call.run, Canvas.straightenCable]
    split
    · exact latched
    · exact (latched.updateRoute key _).pushToken d key _ now
  | reanchorCable key =>
    simp only [Call.run, Canvas.reanchorCable]
    split
    · exact latched.updateRoute key _
    · exact latched
  | pushToken key token now => exact latched.pushToken d key token now
  | tick now =>
    have ticked := same (t := { c with queue := (c.queue.tick d now).1 }) rfl rfl rfl rfl
    simp only [Call.run, Canvas.tick]
    split
    · exact ⟨latched.locked, latched.drag, latched.selection, ticked.markSaved.bears⟩
    · exact same rfl rfl rfl rfl
  | flushTokens =>
    exact (same (t := { c with queue := (c.queue.flush d).1 }) rfl rfl rfl rfl).markSaved
  | commitBlank key text => exact latched.commitBlank d key text
  | cancelBlank key => exact latched.cancelBlank key
  | _ => exact quiet trivial rfl

end Latched

theorem Shut.reached (shut : Shut c) : Reached c := by
  induction shut with
  | lock reached => exact reached.call ({} : Patch) (.setLocked true)
  | call _ d call _ ih => exact ih.call d call

theorem Shut.latched (shut : Shut c) : Latched c := by
  induction shut with
  | lock => exact latched_setLocked _
  | call _ d call stays ih => exact ih.run d call stays

/-! ## Boxes that are not in the document -/

theorem Latched.spares (latched : Latched c) (gesture : call.IsGesture) (p : Patch) :
    Spares c.scene p (call.run c p).1.scene (call.run c p).2 := by
  by_cases finds : call.FindsBlank c.scene
  · obtain ⟨key, sought, blank⟩ := finds
    have dropped : Spares c.scene p (c.cancelBlank key).1.scene p := by
      rw [Canvas.cancelBlank, if_pos (Scene.isBlank_iff.1 blank)]
      exact blank.spares_removeBox p
    cases call with
    | commitBlank k text =>
      obtain rfl := Option.some.inj sought
      obtain ⟨b, found, none⟩ := id blank
      simp only [Call.run, Canvas.commitBlank, found, none, Option.isSome_none, Bool.false_eq_true,
        if_false]
      split
      · exact dropped
      · exact blank.spares_commit _ (List.prefix_append _ _) rfl
    | cancelBlank k =>
      obtain rfl := Option.some.inj sought
      exact dropped
    | _ => exact absurd sought.symm (Option.some_ne_none key)
  · rw [latched.run_eq gesture finds p]
    exact .refl c.scene p

theorem not_isBlank_run (sought : call.blank? = some key) (c : Canvas) (p : Patch) :
    ¬(call.run c p).1.scene.IsBlank key := by
  have dropped : ¬(c.cancelBlank key).1.scene.IsBlank key := by
    rw [Canvas.cancelBlank]
    split
    · exact c.scene.not_isBlank_removeBox key
    · next none => exact none ∘ Scene.isBlank_iff.1
  cases call with
  | commitBlank k text =>
    obtain rfl := Option.some.inj sought
    simp only [Call.run, Canvas.commitBlank]
    split
    · next none => simp [Scene.isBlank_iff, none]
    · next b found =>
      split
      · next committed =>
        rw [Option.isSome_iff_ne_none] at committed
        simp [Scene.isBlank_iff, found, committed]
      · split
        · exact dropped
        · exact c.scene.not_isBlank_commit k _
  | cancelBlank k =>
    obtain rfl := Option.some.inj sought
    exact dropped
  | _ => exact absurd sought.symm (Option.some_ne_none key)

variable {calls : List Call}

/-- Any number of gestures spare what is in the document, and leave no box that one of them would commit
or drop out of it. -/
theorem spares_run (latched : Latched c) (reached : Reached c)
    (gestures : ∀ call ∈ calls, call.IsGesture) (p : Patch) :
    let state := calls.foldl (fun (state : Canvas × Patch) call => call.run state.1 state.2) (c, p)
    Latched state.1 ∧ Reached state.1 ∧ Spares c.scene p state.1.scene state.2 ∧
      ∀ call ∈ calls, ∀ key, call.blank? = some key → ¬state.1.scene.IsBlank key := by
  induction calls generalizing c p with
  | nil => exact ⟨latched, reached, .refl c.scene p, fun _ there => absurd there List.not_mem_nil⟩
  | cons call calls ih =>
    obtain ⟨gesture, gestures⟩ := List.forall_mem_cons.1 gestures
    have stays : call ≠ .setLocked false := by
      rintro rfl
      exact gesture
    have once := latched.spares gesture p
    obtain ⟨last, later, rest, gone⟩ :=
      ih (latched.run p call stays) (reached.call p call) gestures (call.run c p).2
    refine ⟨last, later, once.trans rest, List.forall_mem_cons.2 ⟨fun key sought => ?_, gone⟩⟩
    exact not_isBlank_run sought c p ∘ rest.isBlank later.regular.boxOrder

/-- While a canvas is locked, nothing is dragged or selected, and gestures spare what is in the document
and the document; they change nothing at all exactly when none of them finds a box that is not in it. -/
theorem locked_gestures (shut : Shut c) (p : Patch) (calls : List Call)
    (gestures : ∀ call ∈ calls, call.IsGesture) :
    let state := calls.foldl (fun (state : Canvas × Patch) call => call.run state.1 state.2) (c, p)
    Latched c ∧ Latched state.1 ∧ Spares c.scene p state.1.scene state.2 ∧
      (state.1.scene = c.scene ∧ state.2.toContents = p.toContents ↔
        ∀ call ∈ calls, ¬call.FindsBlank c.scene) ∧
      ((∀ call ∈ calls, ¬call.FindsBlank c.scene) → state = (c, p)) := by
  have quiet : (∀ call ∈ calls, ¬call.FindsBlank c.scene) →
      calls.foldl (fun (state : Canvas × Patch) call => call.run state.1 state.2) (c, p) = (c, p) := by
    intro quiet
    refine List.foldlRecOn (motive := fun state => state = (c, p)) _ _ rfl ?_
    rintro _ rfl call there
    exact shut.latched.run_eq (gestures call there) (quiet call there) p
  obtain ⟨latched, -, spares, gone⟩ := spares_run shut.latched shut.reached gestures p
  refine ⟨shut.latched, latched, spares, ⟨fun same call there ⟨key, sought, blank⟩ => ?_, fun none => ?_⟩,
    quiet⟩
  · exact gone call there key sought (same.1 ▸ blank)
  · rw [quiet none]
    exact ⟨rfl, rfl⟩

def typing : Canvas × Patch :=
  play {} {} [.mutate (.insertNode ⟨"osc~", ⟨0, 0, 40, 20⟩, [], [true]⟩), .call .sync,
    .call (.placeBlank ⟨0, 100⟩)]

theorem shut_typing : Shut (typing.1.setLocked true) := .lock (reached_play {} {} _)

/-- A move of the box that is in the document, a selection, and what would commit and drop that box. -/
def attempts : List Call :=
  [.beginMove 1 ⟨10, 10⟩, .dragMove ⟨70, 10⟩ true 0, .endMove 0, .selectBox 2 false, .deleteSelection,
    .placeBlank ⟨0, 200⟩, .commitBlank 1 "print", .cancelBlank 1]

theorem locked_gestures_attempts :
    Shut (typing.1.setLocked true) ∧ (∀ call ∈ attempts, call.IsGesture) ∧
      (typing.1.setLocked true).scene.IsBlank 2 ∧
      (∀ call ∈ attempts, ¬call.FindsBlank (typing.1.setLocked true).scene) ∧
      attempts.foldl (fun (state : Canvas × Patch) call => call.run state.1 state.2)
          (typing.1.setLocked true, typing.2) = (typing.1.setLocked true, typing.2) := by
  have gestures : ∀ call ∈ attempts, call.IsGesture := by decide
  have quiet : ∀ call ∈ attempts, ¬call.FindsBlank (typing.1.setLocked true).scene := by
    decide +kernel
  obtain ⟨-, -, -, -, same⟩ := locked_gestures shut_typing typing.2 attempts gestures
  exact ⟨shut_typing, gestures, by decide +kernel, quiet, same quiet⟩

/-- A box that was placed before the canvas was locked becomes a node of the locked canvas's document
when it is committed, and leaves the scene when it is dropped. -/
theorem locked_commits :
    (¬ ∀ c, Shut c → ∀ (p : Patch) (calls : List Call), (∀ call ∈ calls, call.IsGesture) →
      let state := calls.foldl (fun (state : Canvas × Patch) call => call.run state.1 state.2) (c, p)
      state.1.scene = c.scene ∧ state.2.toContents = p.toContents) ∧
    (let state := (Call.commitBlank 2 "metro").run (typing.1.setLocked true) typing.2;
      state.1.locked = true ∧ keys typing.2.nodes = [1] ∧ keys state.2.nodes = [1, 2]) ∧
    (let state := (Call.cancelBlank 2).run (typing.1.setLocked true) typing.2;
      state.1.locked = true ∧ keys typing.1.scene.boxes = [1, 2] ∧ keys state.1.scene.boxes = [1]) := by
  refine ⟨fun always => ?_, by decide +kernel, by decide +kernel⟩
  have same := always _ shut_typing typing.2 [.commitBlank 2 "metro"] (by decide)
  have kept := congrArg (fun contents => keys contents.nodes) same.2
  revert kept
  decide +kernel

end Canvas

end Patchbay
