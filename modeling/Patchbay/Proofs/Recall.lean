import Patchbay.Proofs.Acts
import Patchbay.Proofs.Joined

/-!
# One call, one step to undo

Whatever a call on a canvas does to a patch between its first edit and its last, the history has it as
one step or not at all. Taking the step back leads to the contents before the call, up to the tokens
that a deletion hands over with the wires it cuts: a wire comes back with the token that is said for
its ends, which is a cable's, not its own.
-/

namespace Patchbay

open Keyed (keys)

/-- Of some cuts, each of the first wire between its ends, those that come before one without a wire. -/
def cut : List (Ends × String) → List Wire → List (Ends × String)
  | [], _ => []
  | x :: xs, ws => if ws.any (·.ends == x.1) then x :: cut xs (ws.eraseP (·.ends == x.1)) else []

/-- Wires with the tokens of cuts: each cut hands its token to the first wire between its ends that
no cut before it has. -/
def recalled : List (Ends × String) → List Wire → List Wire
  | _, [] => []
  | xs, w :: ws =>
    { w with token := ((xs.find? (·.1 == w.ends)).map Prod.snd).getD w.token } ::
      recalled (xs.eraseP (·.1 == w.ends)) ws

variable {x : Ends × String} {xs : List (Ends × String)} {ws : List Wire} {i : Nat} {w : Wire}

theorem cut_of_found (found : ws.findIdx? (·.ends == x.1) = some i) :
    cut (x :: xs) ws = x :: cut xs (ws.eraseIdx i) := by
  have there : ws.any (·.ends == x.1) = true := by
    rw [← List.findIdx?_isSome, found, Option.isSome_some]
  rw [cut, if_pos there, List.eraseP_eq_eraseIdx, found]

theorem cut_of_missing (missing : ws.findIdx? (·.ends == x.1) = none) : cut (x :: xs) ws = [] := by
  have none : ¬ws.any (·.ends == x.1) = true := by
    rw [← List.findIdx?_isSome, missing]
    exact Bool.false_ne_true
  rw [cut, if_neg none]

@[simp] theorem recalled_nil (ws : List Wire) : recalled [] ws = ws := by
  induction ws with
  | nil => rfl
  | cons w ws ih => rw [recalled, List.eraseP_nil, ih]; rfl

theorem map_bare_recalled (xs : List (Ends × String)) (ws : List Wire) :
    (recalled xs ws).map Wire.bare = ws.map Wire.bare := by
  induction ws generalizing xs with
  | nil => rfl
  | cons w ws ih => rw [recalled, List.map_cons, List.map_cons, ih]; rfl

theorem recalled_cons (found : ws.findIdx? (·.ends == x.1) = some i) (there : ws[i]? = some w) :
    recalled (x :: xs) ws = (recalled xs (ws.eraseIdx i)).insertIdx i { w with token := x.2 } := by
  induction ws generalizing xs i with
  | nil => simp at there
  | cons v ws ih =>
    by_cases here : v.ends = x.1
    · obtain rfl : i = 0 := by simpa [List.findIdx?_cons, here, eq_comm] using found
      obtain rfl : v = w := by simpa using there
      simp [recalled, here]
    · have other : (x.1 == v.ends) = false := by simpa using fun same => here same.symm
      obtain ⟨j, later, rfl⟩ : ∃ j, ws.findIdx? (·.ends == x.1) = some j ∧ j + 1 = i := by
        simpa [List.findIdx?_cons, here] using found
      rw [List.getElem?_cons_succ] at there
      rw [List.eraseIdx_cons_succ, recalled, recalled, List.insertIdx_succ_cons, ← ih later there]
      simp only [List.find?_cons, List.eraseP_cons, other, cond_false]

namespace Patch

variable {strict : Prop} {p q : Patch} {f g : Patch → Patch}

/-- What the history says of a change of the patch: nothing, and the contents are the same, or one
step, and undoing it leads to the given contents. -/
inductive Steps (p q : Patch) (back : Contents) : Prop
  | none (history : q.history = p.history) (same : q.toContents = p.toContents)
  | one (s : Step) (r : Patch) (history : q.history = p.history.push s) (undone : q.undo? = some r)
      (same : r.toContents = back)

theorem Steps.closed {back : Contents} (steps : p.Steps q back)
    (closed : p.history.sequences = []) : q.history.sequences = [] := by
  cases steps with
  | none history _ => rw [history, closed]
  | one s r history _ _ => rw [history, History.push, closed]

variable {α : Type} {back : Contents} {label : String}

/-- Edits in an open sequence are noted there, and taking them back leads to the given contents. -/
def Jots (p : Patch) (f : Patch → Patch × α) (back : Contents) : Prop :=
  ∃ (cs : List Change) (q : Patch) (result : α), (cs = [] → q.toContents = p.toContents) ∧
    cs.foldr Change.revert q.toContents = back ∧
    ∀ h : History, h.sequences ≠ [] → f (p.withHistory h) = (q.withHistory (h.note "" cs), result)

def Notes (p : Patch) (f : Patch → Patch) (back : Contents) : Prop :=
  ∃ (label : String) (cs : List Change) (q : Patch), (cs = [] → q.toContents = p.toContents) ∧
    cs.foldr Change.revert q.toContents = back ∧
    ∀ h : History, f (p.withHistory h) = q.withHistory (h.note label cs)

theorem Jots.notes {f : Patch → Patch × α} (jots : p.Jots f back) (label : String) :
    p.Notes (fun q => (Document.inSequence q label f).1) back := by
  obtain ⟨cs, q, result, none, reverts, run⟩ := jots
  exact ⟨label, cs, q, none, reverts, fun h => congrArg Prod.fst (inSequence_eq label run h)⟩

theorem Notes.steps (notes : p.Notes f back) (closed : p.history.sequences = []) :
    p.Steps (f p) back := by
  obtain ⟨label, cs, q, none, reverts, run⟩ := notes
  have made : f p = q.withHistory (p.history.note label cs) := run p.history
  by_cases quiet : cs = []
  · subst quiet
    exact .none (by rw [made, History.note_nil, history_withHistory]) (made ▸ none rfl)
  · have history : (f p).history = p.history.push ⟨label, cs⟩ := by
      rw [made, history_withHistory, History.note_of_closed closed quiet]
    refine .one ⟨label, cs⟩ _ history (by simp only [undo?, history, History.push]; rfl) ?_
    rw [made]
    exact reverts

theorem notes_gesture (sound : p.Sound) (g : Gesture) (keeps : g.KeepsTokens) :
    p.Notes g.run p.toContents := by
  obtain ⟨cs, q, trail, -, run⟩ := g.run_effect sound fun _ : True => keeps
  refine ⟨g.label, cs, q, ?_, (trail.revert sound.nodup).2 trivial, run⟩
  rintro rfl
  exact trail.eq_of_nil.symm

theorem Retouched.notes {still : Prop} (retouched : p.Retouched still f) (sound : p.Sound) :
    p.Notes f p.toContents := by
  obtain ⟨label, body, each, same⟩ := retouched
  obtain ⟨l, cs, q, none, reverts, run⟩ := notes_gesture sound (.sequence label body) each.keepsTokens
  exact ⟨l, cs, q, none, reverts, fun h => (same h).trans (run h)⟩

theorem jots_script (sound : p.Sound) (s : Script) (keeps : s.KeepsTokens) :
    p.Jots s.run p.toContents := by
  obtain ⟨cs, q, result, trail, -, run⟩ := s.run_effect sound fun _ : True => keeps
  refine ⟨cs, q, result, ?_, (trail.revert sound.nodup).2 trivial, run⟩
  rintro rfl
  exact trail.eq_of_nil.symm

end Patch

namespace Canvas

open Patch

variable {p : Patch}

theorem disconnect_of_found {e : Ends} {i : Nat} {w : Wire}
    (found : p.wires.findIdx? (·.ends == e) = some i) (there : p.wires[i]? = some w)
    (token : String) : p.disconnect e token
      = .ok (Patch.record { p with wires := p.wires.eraseIdx i }
          [.removeWire i { w with token := token }]) := by
  have first : p.wires.find? (·.ends == e) = some w := by
    rw [List.find?_eq_bind_findIdx?_getElem?, found, Option.bind_some, there]
  simp only [disconnect, found, first]

theorem jots_removal (sound : p.Sound) (xs : List (Ends × String)) (handles : List Nat) :
    p.Jots (removal xs handles) ⟨p.nodes, recalled (cut xs p.wires) p.wires⟩ := by
  induction xs generalizing p with
  | nil =>
    have gone : p.Jots (Script.run (if handles.isEmpty then .done else .all [.removeNodes handles]))
        p.toContents := by
      refine jots_script sound _ ?_
      split
      · exact trivial
      · exact ⟨trivial, trivial⟩
    have same : Script.run (if handles.isEmpty then .done else .all [.removeNodes handles])
        = removal [] handles := by
      funext q
      simp only [removal, Document.editAll]
      split
      · rfl
      · exact Script.run_all (o := .removeNodes) (fun _ _ => rfl) [handles] q
    rw [cut, recalled_nil]
    exact same ▸ gone
  | cons x xs ih =>
    cases found : p.wires.findIdx? (·.ends == x.1) with
    | none =>
      rw [cut_of_missing found, recalled_nil]
      refine ⟨[], p, .error (.noWire x.1), fun _ => rfl, rfl, fun h _ => ?_⟩
      have refused : Document.disconnect (p.withHistory h) x.1 x.2 = .error (.noWire x.1) := by
        simp only [Document.disconnect, disconnect, toContents_withHistory, found]
      simp only [removal, Document.editAll, refused, History.note_nil]
    | some i =>
      obtain ⟨hi, -⟩ := List.findIdx?_eq_some_iff_getElem.1 found
      have there : p.wires[i]? = some p.wires[i] := List.getElem?_eq_getElem hi
      let gone : Patch := { p with wires := p.wires.eraseIdx i }
      let change : Change := .removeWire i { p.wires[i] with token := x.2 }
      obtain ⟨cs, q, result, -, reverts, run⟩ := ih (p := gone)
        (sound.of_sublist (List.Sublist.refl _) ((List.eraseIdx_sublist _ _).map _) rfl)
      refine ⟨change :: cs, q, result, fun none => absurd none (List.cons_ne_nil _ _), ?_,
        fun h opened => ?_⟩
      · rw [List.foldr_cons, reverts, cut_of_found found, recalled_cons found there]
        have length := congrArg List.length (map_bare_recalled (cut xs gone.wires) gone.wires)
        rw [List.length_map, List.length_map, List.length_eraseIdx_of_lt hi] at length
        simp only [change, Change.revert, Contents.insertWire, length]
        rw [Nat.min_eq_left (by omega)]
      · have made : Document.disconnect (p.withHistory h) x.1 x.2
            = .ok (gone.withHistory (h.note "" [change])) :=
          disconnect_of_found (p := p.withHistory h) found there x.2
        have still : (h.note "" [change]).sequences ≠ [] := History.sequences_note_ne_nil opened
        have rest := run _ still
        rw [History.note_note opened "" "" "", List.singleton_append] at rest
        simpa only [removal, Document.editAll, made] using rest

variable {c : Canvas} {call : Call} {key now : Nat}

theorem retouched_push (p : Patch) (queue : WriteQueue) (h : Nat) (token : String) (now : Nat) :
    p.Retouched False fun q => (queue.push q h token now).2 := by
  by_cases full : (!Keyed.has queue.pending h && decide (queue.capacity ≤ queue.size)) = true
  · exact (retouched_flush p queue).congr fun k => by simp only [WriteQueue.push, full, if_true]
  · exact retouched_idle fun k => by simp only [WriteQueue.push, full, Bool.false_eq_true, if_false]

theorem retouched_pushToken (c : Canvas) (p : Patch) (key : Nat) (token : String) (now : Nat) :
    p.Retouched False fun q => (c.pushToken q key token now).2 := by
  cases found : c.scene.cable? key with
  | none => exact retouched_idle fun h => by simp only [pushToken, found]
  | some x =>
    exact (retouched_push p c.queue x.handle token now).congr fun h => by
      simp only [pushToken, found]

theorem retouched_routeCable (c : Canvas) (p : Patch) (key now : Nat) :
    p.Retouched False fun q => (c.routeCable q key now).2.1 := by
  by_cases anchored : (c.scene.anchors? key).isSome = true
  · obtain ⟨⟨start, stop⟩, anchors⟩ := Option.isSome_iff_exists.1 anchored
    obtain ⟨x, found, -⟩ := Option.bind_eq_some_iff.1 anchors
    let route := Route.around start stop (c.scene.obstacles [x.outlet.box, x.inlet.box])
      c.settings.routing
    let led : Canvas := { c with scene := c.scene.updateCable key fun x => { x with route := route } }
    refine (retouched_pushToken led p key route.token now).congr fun h => ?_
    simp only [routeCable, found, anchors]
    rfl
  · have lost : c.scene.anchors? key = none := by simpa using anchored
    refine retouched_idle fun h => ?_
    cases found : c.scene.cable? key <;> simp only [routeCable, found, lost]

theorem retouched_straightenCable (c : Canvas) (p : Patch) (key now : Nat) :
    p.Retouched False fun q => (c.straightenCable q key now).2.1 := by
  cases found : c.scene.cable? key with
  | none => exact retouched_idle fun h => by simp only [straightenCable, found]
  | some x =>
    let led : Canvas :=
      { c with scene := c.scene.updateCable key fun x => { x with route := .straight } }
    refine (retouched_pushToken led p key "" now).congr fun h => ?_
    simp only [straightenCable, found]
    rfl

theorem retouched_endSegment (c : Canvas) (p : Patch) (now : Nat) :
    p.Retouched False fun q => (c.endSegment q now).2.1 := by
  have idle (same : ∀ q : Patch, (c.endSegment q now).2.1 = q) :
      p.Retouched False fun q => (c.endSegment q now).2.1 := retouched_idle fun h => same _
  cases drag : c.drag with
  | segment d =>
    by_cases moved : d.moved = true
    · cases found : c.scene.cable? d.cable with
      | none => exact idle fun q => by simp only [endSegment, drag, moved, if_true, found]
      | some x =>
        refine (retouched_pushToken { c with drag := .none } p d.cable x.route.token now).congr
          fun h => ?_
        simp only [endSegment, drag, moved, if_true, found]
    · exact idle fun q => by simp only [endSegment, drag, moved, Bool.false_eq_true, if_false]
  | _ => exact idle fun q => by simp only [endSegment, drag]

theorem retouched_tick (c : Canvas) (p : Patch) (now : Nat) :
    p.Retouched False fun q => (c.tick q now).2.1 := by
  by_cases due : c.queue.deadline.any (· ≤ now) = true
  · refine (retouched_flush p c.queue).congr fun h => ?_
    simp only [tick, WriteQueue.tick, due, if_true]
  · refine retouched_idle fun h => ?_
    simp only [tick, WriteQueue.tick, due, Bool.false_eq_true, if_false]

theorem notes_commitBlank (sound : p.Sound) (c : Canvas) (key : Nat) (text : String) :
    p.Notes (fun q => (c.commitBlank q key text).2.1) p.toContents := by
  have idle (same : ∀ q : Patch, (c.commitBlank q key text).2.1 = q) :
      p.Notes (fun q => (c.commitBlank q key text).2.1) p.toContents := by
    have retouched : p.Retouched True fun q => (c.commitBlank q key text).2.1 :=
      retouched_idle fun h => same _
    exact retouched.notes sound
  cases found : c.scene.box? key with
  | none => exact idle fun q => by simp only [commitBlank, found]
  | some b =>
    by_cases committed : b.handle.isSome = true
    · exact idle fun q => by simp only [commitBlank, found, committed, if_true]
    · by_cases blank : Text.trim text.toList = []
      · exact idle fun q => by
          simp only [commitBlank, found, committed, Bool.false_eq_true, if_false, blank, if_true]
      · let node := Operation.createNode (String.ofList (Text.trim text.toList)) b.content.position
        have same : (fun q : Patch => (c.commitBlank q key text).2.1)
            = (Gesture.sequence createLabel (.edit node)).run := by
          funext q
          simp only [commitBlank, found, committed, Bool.false_eq_true, if_false, blank]
          rfl
        rw [same]
        exact notes_gesture sound _ trivial

def Call.loose (c : Canvas) : Call → List (Ends × String)
  | deleteSelection => c.looseWires
  | _ => []

theorem steps_deleteSelection (sound : p.Sound) (closed : p.history.sequences = []) (c : Canvas) :
    p.Steps (c.deleteSelection p).2.1
      ⟨p.nodes, recalled (cut c.looseWires p.wires) p.wires⟩ := by
  obtain ⟨idle, handles, run⟩ := doc_deleteSelection c
  rw [run]
  split
  · exact .none rfl rfl
  · exact ((jots_removal sound c.looseWires handles).notes removeLabel).steps closed

/-- Whatever a call answers, it leaves no sequence open, and the history has what it did as one step
or not at all. A step is undone at once. A deletion hands its tokens to the wires that it cut; but for
these everything is as it was. -/
theorem steps_run (sound : p.Sound) (closed : p.history.sequences = []) (c : Canvas) (call : Call)
    (unrouted : ∀ now, call = .endMove now → c.settings.routing.autoRouteOnOverlap = false) :
    (call.run c p).2.history.sequences = [] ∧
      p.Steps (call.run c p).2 ⟨p.nodes, recalled (cut (call.loose c) p.wires) p.wires⟩ := by
  suffices steps : p.Steps (call.run c p).2
      ⟨p.nodes, recalled (cut (call.loose c) p.wires) p.wires⟩ from ⟨steps.closed closed, steps⟩
  have kept (kept : p.Notes (fun q => (call.run c q).2) p.toContents) (none : call.loose c = []) :
      p.Steps (call.run c p).2 ⟨p.nodes, recalled (cut (call.loose c) p.wires) p.wires⟩ := by
    rw [none, cut, recalled_nil]
    exact kept.steps closed
  cases call with
  | deleteSelection => exact steps_deleteSelection sound closed c
  | endMove now => exact kept ((retouched_endMove (unrouted now rfl) p now).notes sound) rfl
  | endResize => exact kept ((retouched_endResize c p).notes sound) rfl
  | alignSelection a => exact kept ((retouched_align c p a).notes sound) rfl
  | endConnection => exact kept ((retouched_endConnection c p).notes sound) rfl
  | endSegment now => exact kept ((retouched_endSegment c p now).notes sound) rfl
  | routeCable key now => exact kept ((retouched_routeCable c p key now).notes sound) rfl
  | straightenCable key now => exact kept ((retouched_straightenCable c p key now).notes sound) rfl
  | pushToken key token now => exact kept ((retouched_pushToken c p key token now).notes sound) rfl
  | tick now => exact kept ((retouched_tick c p now).notes sound) rfl
  | flushTokens => exact kept ((retouched_flush p c.queue).notes sound) rfl
  | commitBlank key text => exact kept (notes_commitBlank sound c key text) rfl
  | sync => exact .none rfl rfl
  | idle =>
    simp only [Call.run, idle]
    split <;> exact .none rfl rfl
  | _ => exact .none rfl rfl

/-- Two cables are selected. Then the patch loses the wire of the second, and that of the first gets a
token there, so the deletion breaks off after one cut, for which the canvas has no token. -/
def brokenOff : List Event :=
  [.mutate (.insertNode ⟨"osc~", ⟨0, 0, 40, 20⟩, [], [true, true]⟩),
    .mutate (.insertNode ⟨"dac~", ⟨100, 100, 40, 20⟩, [true], []⟩),
    .mutate (.insertWire ⟨1, 0, 2, 0⟩), .mutate (.insertWire ⟨1, 1, 2, 0⟩), .call .sync,
    .call (.selectCable 1 false), .call (.selectCable 2 true),
    .mutate (.edit (.disconnect ⟨1, 1, 2, 0⟩ none)), .mutate (.edit (.setToken 3 "BB4oHnjmeObK"))]

theorem steps_run_brokenOff :
    let (c, p) := play {} {} brokenOff;
    (p.Sound ∧ p.history.sequences = [] ∧
      ∀ now, Call.deleteSelection = .endMove now → c.settings.routing.autoRouteOnOverlap = false) ∧
    (c.deleteSelection p).2.2 = .error (.noWire ⟨1, 1, 2, 0⟩) ∧
    p.wires = [⟨3, ⟨1, 0, 2, 0⟩, "BB4oHnjmeObK"⟩] ∧ (c.deleteSelection p).2.1.wires = [] ∧
    p.Steps (c.deleteSelection p).2.1 ⟨p.nodes, [⟨3, ⟨1, 0, 2, 0⟩, ""⟩]⟩ := by
  have sound : (play {} {} brokenOff).2.Sound :=
    ⟨by decide +kernel, by decide +kernel, by decide +kernel⟩
  have closed : (play {} {} brokenOff).2.history.sequences = [] := by decide +kernel
  have back : recalled (cut (Call.deleteSelection.loose (play {} {} brokenOff).1)
      (play {} {} brokenOff).2.wires) (play {} {} brokenOff).2.wires
        = [⟨3, ⟨1, 0, 2, 0⟩, ""⟩] := by decide +kernel
  have other (now : Nat) (same : Call.deleteSelection = .endMove now) :
      (play {} {} brokenOff).1.settings.routing.autoRouteOnOverlap = false := Call.noConfusion same
  obtain ⟨-, steps⟩ := steps_run sound closed (play {} {} brokenOff).1 .deleteSelection other
  rw [back] at steps
  exact ⟨⟨sound, closed, other⟩, by decide +kernel, by decide +kernel, by decide +kernel, steps⟩

/-- Each wire has the token that it had, or one that the canvas has for it. -/
def Recalls (c : Canvas) (p r : Patch) : Prop :=
  ∀ w ∈ p.wires, ∀ v ∈ r.wires, v.handle = w.handle →
    v.token = w.token ∨ ∃ x ∈ c.scene.cables, x.2.handle = v.handle ∧ x.2.token = v.token

instance (c : Canvas) (p r : Patch) : Decidable (Recalls c p r) :=
  inferInstanceAs (Decidable (∀ w ∈ p.wires, ∀ v ∈ r.wires, _ → _ ∨ ∃ x ∈ c.scene.cables, _))

def doubled : String := "\x7b\"objects\": \x7b\"1\": \x7b\"text\": \"osc~\", \"bounds\": [0, 0, 40, 20],
  \"inlets\": [], \"outlets\": [true]\x7d, \"2\": \x7b\"text\": \"dac~\", \"bounds\": [0, 100, 40, 20],
  \"inlets\": [true], \"outlets\": []\x7d\x7d, \"connections\": [[3, 1, 0, 2, 0],
  [4, 1, 0, 2, 0, \"BB4oHlAeeB7K\"]]\x7d"

/-- The cable of the second wire is deleted: the first wire goes, and comes back with the token of
the second. -/
theorem deleteSelection_doubled : ¬ ∀ p : Patch, p.Loaded → ∀ c, Reached c →
    ∀ r, (c.deleteSelection p).2.1.undo? = some r → Recalls c p r := by
  intro always
  let selected (p : Patch) : Canvas :=
    ((Call.selectCable 2 false).run (Call.sync.run (ofSettings {}) p).1 p).1
  have differ : (Patch.parse? doubled).any (fun p =>
      ((selected p).deleteSelection p).2.1.undo?.any fun r => !decide (Recalls (selected p) p r))
        = true := by decide +kernel
  obtain ⟨p, read, differ⟩ := (Option.any_eq_true _ _).1 differ
  obtain ⟨r, undone, differ⟩ := (Option.any_eq_true _ _).1 differ
  have reached : Reached (selected p) :=
    ((Reached.ofSettings {}).call p .sync).call p (.selectCable 2 false)
  rw [decide_eq_true (always p (.parsed read) _ reached r undone)] at differ
  exact absurd differ Bool.false_ne_true

end Canvas

end Patchbay
