import Patchbay.Proofs.Forfeit
import Patchbay.Proofs.Queue
import Patchbay.Proofs.Recall

/-!
# Deletions that are taken back

A deletion writes what its cables show with the wires that it cuts on their own, so undo brings that
back. The wires that go with a box leave as the patch has them; what waited for them is called off
before, and undo has nothing to bring it back from.
-/

namespace Patchbay

open Keyed (keys get?)

namespace Contents

theorem writeToken_eq_map {ws : List Wire} (distinct : (ws.map Wire.handle).Nodup) (h : Nat)
    (t : String) : writeToken h t ws
      = ws.map fun w => if w.handle = h then { w with token := t } else w := by
  induction ws with
  | nil => rfl
  | cons w ws ih =>
    obtain ⟨alone, rest⟩ := List.nodup_cons.1 distinct
    by_cases here : w.handle = h
    · have others : ∀ v ∈ ws, (if v.handle = h then { v with token := t } else v) = v := by
        intro v hv
        refine if_neg fun named => alone ?_
        rw [here, ← named]
        exact List.mem_map_of_mem hv
      rw [writeToken, if_pos here, List.map_cons, if_pos here, List.map_congr_left others,
        List.map_id']
    · rw [writeToken, if_neg here, List.map_cons, if_neg here, ih rest]

theorem setTokens_eq_map {es : List (Nat × String)} (nodup : (keys es).Nodup) (c : Contents)
    (distinct : (c.wires.map Wire.handle).Nodup) : c.setTokens es
      = ⟨c.nodes, c.wires.map fun w => { w with token := (get? es w.handle).getD w.token }⟩ := by
  induction es generalizing c with
  | nil => exact congrArg (Contents.mk c.nodes) (List.map_id' c.wires).symm
  | cons e es ih =>
    obtain ⟨k, t⟩ := e
    obtain ⟨fresh, rest⟩ := List.nodup_cons.1 nodup
    have last : get? es k = none := Keyed.get?_eq_none_iff.2 fresh
    have handles : (c.setToken k t).wires.map Wire.handle = c.wires.map Wire.handle :=
      (alike_setTokens c [(k, t)]).handles
    refine (ih rest (c.setToken k t) (handles ▸ distinct)).trans (congrArg (Contents.mk c.nodes) ?_)
    have first : (c.setToken k t).wires
        = c.wires.map fun w => if w.handle = k then { w with token := t } else w :=
      writeToken_eq_map distinct k t
    rw [first, List.map_map]
    refine List.map_congr_left fun w _ => ?_
    by_cases here : w.handle = k
    · simp [here, last, get?]
    · simp [here, Ne.symm here, get?]

end Contents

variable {xs : List (Ends × String)} {ws : List Wire}

theorem find?_eraseP_of_other {α : Type} {f g : α → Bool} (other : ∀ x, g x = true → f x = false)
    (xs : List α) : (xs.eraseP f).find? g = xs.find? g := by
  induction xs with
  | nil => rfl
  | cons x xs ih =>
    cases here : f x with
    | true =>
      have passed : g x = false := by
        cases hit : g x with
        | false => rfl
        | true => exact absurd (here.symm.trans (other x hit)) (by decide)
      rw [List.eraseP_cons_of_pos here, List.find?_cons_of_neg (by simp [passed])]
    | false =>
      rw [List.eraseP_cons_of_neg (by simp [here])]
      simp only [List.find?_cons, ih]

theorem recalled_eq_map
    (single : ws.Pairwise fun v w => v.ends = w.ends → v.ends ∉ xs.map Prod.fst) :
    recalled xs ws = ws.map fun w =>
      { w with token := ((xs.find? (·.1 == w.ends)).map Prod.snd).getD w.token } := by
  induction ws generalizing xs with
  | nil => rfl
  | cons w ws ih =>
    obtain ⟨alone, rest⟩ := List.pairwise_cons.1 single
    have fewer : (xs.eraseP (·.1 == w.ends)).map Prod.fst ⊆ xs.map Prod.fst :=
      (List.eraseP_sublist.map _).subset
    rw [recalled, ih (rest.imp fun apart same there => apart same (fewer there)), List.map_cons]
    refine congrArg (List.cons _) (List.map_congr_left fun v hv => ?_)
    by_cases same : w.ends = v.ends
    · have none : ∀ x ∈ xs, ¬(x.1 == w.ends) = true := fun x hx hit =>
        alone v hv same (eq_of_beq hit ▸ List.mem_map_of_mem hx)
      rw [List.eraseP_of_forall_not none]
    · have other (x : Ends × String) (hit : (x.1 == v.ends) = true) : (x.1 == w.ends) = false := by
        rw [eq_of_beq hit]
        simpa using fun back => same back.symm
      rw [find?_eraseP_of_other other]

namespace Canvas

variable {c : Canvas} {p : Patch} {n : Nat}

theorem cut_of_ok {q : Patch} (ok : Document.editAll
    (fun d (w : Ends × String) => Document.disconnect d w.1 w.2) p xs = (q, .ok ())) :
    cut xs p.wires = xs := by
  induction xs generalizing p with
  | nil => rfl
  | cons x xs ih =>
    have first : Document.disconnect p x.1 x.2 = p.disconnect x.1 x.2 := rfl
    cases found : p.wires.findIdx? (·.ends == x.1) with
    | none => simp [Document.editAll, first, Patch.disconnect, found] at ok
    | some i =>
      obtain ⟨hi, -⟩ := List.findIdx?_eq_some_iff_getElem.1 found
      have there : p.wires[i]? = some p.wires[i] := List.getElem?_eq_getElem hi
      rw [cut_of_found found]
      simp only [Document.editAll, first, disconnect_of_found found there] at ok
      exact congrArg (List.cons x) (ih ok)

/-- A deletion leaves a patch alone, or it calls off what waits for the doomed cables and, unless it is
refused, cuts all the wires that it means to. -/
theorem deleteSelection_cases (c : Canvas) (p : Patch) : (c.deleteSelection p).2.1 = p ∨
    (c.deleteSelection p).1.queue = c.queue.cancelAll c.doomedCables ∧
      ∀ n, (c.deleteSelection p).2.2 = .ok n → cut c.looseWires p.wires = c.looseWires := by
  by_cases idle : (c.locked || c.selection.isEmpty) = true
  · exact .inl (by rw [deleteSelection, if_pos idle])
  · obtain ⟨handles, made⟩ : ∃ handles, (c.selection.boxes.filterMap fun key =>
      (c.scene.box? key).map fun b => (key, b)).filterMap (fun e => e.2.handle) = handles := ⟨_, rfl⟩
    rw [deleteSelection, if_neg idle]
    simp only [made]
    cases quiet : c.looseWires.isEmpty && handles.isEmpty with
    | true => exact .inl rfl
    | false =>
      simp only [Bool.false_eq_true, if_false]
      refine .inr ⟨by split <;> rfl, fun n ok => ?_⟩
      obtain ⟨q, result, cuts⟩ : ∃ q result, Document.editAll
          (fun d (w : Ends × String) => Document.disconnect d w.1 w.2)
          (Document.openSequence p removeLabel) c.looseWires = (q, result) := ⟨_, _, rfl⟩
      simp only [Document.inSequence, cuts] at ok
      cases result with
      | error e => exact absurd ok (by simp)
      | ok _ => exact cut_of_ok (p := p.openSequence removeLabel) cuts

/-- The token that waits for a wire, or else the one that is on it. -/
def latest (c : Canvas) (w : Wire) : String := (c.queue.token? w.handle).getD w.token

def takesAlong (c : Canvas) (w : Wire) : Bool :=
  c.scene.cables.any fun x => x.2.handle == w.handle && x.2.touchesAny c.selection.boxes

/-- Each cable stands for a wire, between the same jacks, and shows its latest token. -/
structure Mirrors (c : Canvas) (p : Patch) : Prop where
  distinct : (p.wires.map Wire.handle).Nodup
  cables : ∀ x ∈ c.scene.cables, ∃ w ∈ p.wires, w.handle = x.2.handle ∧
    c.wireOf? x.2 = some (w.ends, c.latest w)

variable {w : Wire} {z : Ends × String} {x : Cable} {e : Ends} {token : String}

theorem token_of_wireOf? (stands : c.wireOf? x = some (e, token)) : x.token = token := by
  obtain ⟨a, -, rest⟩ := Option.bind_eq_some_iff.1 stands
  obtain ⟨b, -, made⟩ := Option.bind_eq_some_iff.1 rest
  exact congrArg Prod.snd (Option.some.inj made)

theorem mem_selectedCables (regular : c.scene.Regular) (chosen : x ∈ c.selectedCables) :
    ∃ k, (k, x) ∈ c.scene.cables := by
  obtain ⟨k, -, found⟩ := List.mem_filterMap.1 chosen
  exact ⟨k, Scene.mem_cables regular.cableOrder found⟩

theorem Mirrors.of_mem_looseWires (mirrors : c.Mirrors p) (regular : c.scene.Regular)
    (there : z ∈ c.looseWires) : ∃ v ∈ p.wires, z = (v.ends, c.latest v) ∧
      v.handle ∈ c.doomedCables ∧ c.takesAlong v = false := by
  obtain ⟨x, kept, made⟩ := List.mem_filterMap.1 there
  obtain ⟨chosen, apart⟩ := List.mem_filter.1 kept
  obtain ⟨k, hx⟩ := mem_selectedCables regular chosen
  obtain ⟨v, hv, named, stands⟩ := mirrors.cables _ hx
  refine ⟨v, hv, ?_, ?_, ?_⟩
  · exact (Option.some.inj (stands.symm.trans made)).symm
  · exact List.mem_append_left _ (named ▸ List.mem_map_of_mem chosen)
  · refine Bool.eq_false_iff.2 fun along => ?_
    obtain ⟨y, hy, touches⟩ := List.any_eq_true.1 along
    obtain ⟨named', touches⟩ := Bool.and_eq_true_iff.1 touches
    obtain rfl := List.inj_on_of_nodup_map regular.cableHandles hy hx
      ((eq_of_beq named').trans named)
    simp [touches] at apart

theorem Mirrors.of_mem_doomedCables (mirrors : c.Mirrors p) (regular : c.scene.Regular) (hw : w ∈ p.wires)
    (doomed : w.handle ∈ c.doomedCables) :
    c.takesAlong w = true ∨ (w.ends, c.latest w) ∈ c.looseWires := by
  rcases List.mem_append.1 doomed with selected | going
  · obtain ⟨x, chosen, named⟩ := List.mem_map.1 selected
    obtain ⟨k, hx⟩ := mem_selectedCables regular chosen
    obtain ⟨v, hv, named', stands⟩ := mirrors.cables _ hx
    obtain rfl := List.inj_on_of_nodup_map mirrors.distinct hv hw (named'.trans named)
    cases touches : x.touchesAny c.selection.boxes with
    | true => exact .inl (List.any_eq_true.2 ⟨_, hx, by simp [named, touches]⟩)
    | false =>
      refine .inr (List.mem_filterMap.2 ⟨x, List.mem_filter.2 ⟨chosen, ?_⟩, stands⟩)
      rw [touches, Bool.not_false]
  · obtain ⟨key, chosen, there⟩ := List.mem_flatMap.1 going
    obtain ⟨x, kept, named⟩ := List.mem_map.1 there
    obtain ⟨hx, touches⟩ := List.mem_filter.1 kept
    refine .inl (List.any_eq_true.2 ⟨x, hx, Bool.and_eq_true_iff.2 ⟨beq_iff_eq.2 named, ?_⟩⟩)
    exact List.any_eq_true.2 ⟨key, chosen, touches⟩

theorem mem_doomedCables_of_takesAlong (along : c.takesAlong w = true) :
    w.handle ∈ c.doomedCables := by
  obtain ⟨x, hx, touches⟩ := List.any_eq_true.1 along
  obtain ⟨named, touches⟩ := Bool.and_eq_true_iff.1 touches
  obtain ⟨key, chosen, touches⟩ := List.any_eq_true.1 touches
  refine List.mem_append_right _ (List.mem_flatMap.2 ⟨key, chosen, ?_⟩)
  exact List.mem_map.2 ⟨x, List.mem_filter.2 ⟨hx, touches⟩, eq_of_beq named⟩

/-- What a wire has once the deletion is taken back and the rest of the queue is written. -/
theorem Mirrors.regained (mirrors : c.Mirrors p) (regular : c.scene.Regular)
    (single : ∀ v ∈ p.wires, ∀ w ∈ p.wires, v.ends = w.ends →
      v.ends ∈ c.looseWires.map Prod.fst → v = w) (hw : w ∈ p.wires) :
    ((c.queue.cancelAll c.doomedCables).token? w.handle).getD
        (((c.looseWires.find? (·.1 == w.ends)).map Prod.snd).getD w.token)
      = if c.takesAlong w then w.token else c.latest w := by
  rw [WriteQueue.token?_cancelAll]
  cases found : c.looseWires.find? (·.1 == w.ends) with
  | some z =>
    have there := List.mem_of_find?_eq_some found
    obtain ⟨v, hv, rfl, doomed, apart⟩ := mirrors.of_mem_looseWires regular there
    have same : v.ends = w.ends := by simpa using List.find?_some found
    obtain rfl := single v hv w hw same (List.mem_map_of_mem there)
    rw [if_pos doomed, apart]
    rfl
  | none =>
    have apart : (w.ends, c.latest w) ∉ c.looseWires := fun there =>
      List.find?_eq_none.1 found _ there (beq_self_eq_true _)
    cases along : c.takesAlong w with
    | true => rw [if_pos (mem_doomedCables_of_takesAlong along)]; rfl
    | false =>
      have kept : w.handle ∉ c.doomedCables := fun doomed =>
        (mirrors.of_mem_doomedCables regular hw doomed).elim (by simp [along]) apart
      rw [if_neg kept]
      rfl

/-- Deleting, taking it back and writing what waits leaves the patch as writing what waits would have
left it, but for the wires that go with a selected box: these have the tokens that the patch had for
them. So nothing is lost exactly when the cables at selected boxes show what the patch has. -/
theorem undo_deleteSelection (reached : Reached c) (sound : p.Sound)
    (closed : p.history.sequences = []) (mirrors : c.Mirrors p)
    (single : ∀ v ∈ p.wires, ∀ w ∈ p.wires, v.ends = w.ends →
      v.ends ∈ c.looseWires.map Prod.fst → v = w)
    (done : (c.deleteSelection p).2.2 = .ok n)
    (removed : (c.deleteSelection p).2.1.toContents ≠ p.toContents) :
    ∃ r, (c.deleteSelection p).2.1.undo? = some r ∧
      let regained := ((c.deleteSelection p).1.flushTokens r).2.1.toContents
      regained = ⟨p.nodes, p.wires.map fun w =>
        { w with token := if c.takesAlong w then w.token else c.latest w }⟩ ∧
      (regained = (c.flushTokens p).2.1.toContents ↔
        ∀ x ∈ c.scene.cables, x.2.touchesAny c.selection.boxes = true →
          ∀ w ∈ p.wires, w.handle = x.2.handle → w.token = x.2.token) := by
  have regular := reached.regular
  obtain idle | ⟨queue, cuts⟩ := c.deleteSelection_cases p
  · exact absurd (congrArg Patch.toContents idle) removed
  have steps := steps_deleteSelection sound closed c
  rw [cuts n done] at steps
  obtain ⟨-, same⟩ | ⟨s, r, -, undone, same⟩ := steps
  · exact absurd same removed
  have pairs : p.wires.Pairwise fun v w => v.ends = w.ends → v.ends ∉ c.looseWires.map Prod.fst :=
    mirrors.distinct.of_map.imp_of_mem fun hv hw apart same there =>
      apart (single _ hv _ hw same there)
  have nodup : (keys (c.deleteSelection p).1.queue.pending).Nodup :=
    (reached.call p .deleteSelection).waiting
  have wires : r.wires = _ := (congrArg Contents.wires same).trans (recalled_eq_map pairs)
  have distinct : (r.wires.map Wire.handle).Nodup := by
    rw [wires, List.map_map]
    exact mirrors.distinct
  have regained : ((c.deleteSelection p).1.flushTokens r).2.1.toContents = ⟨p.nodes, p.wires.map
      fun w => { w with token := if c.takesAlong w then w.token else c.latest w }⟩ := by
    refine (WriteQueue.toContents_flush _ r).trans ?_
    rw [Contents.setTokens_eq_map nodup _ distinct, same, recalled_eq_map pairs, List.map_map, queue]
    refine congrArg (Contents.mk p.nodes) (List.map_congr_left fun w hw => ?_)
    exact congrArg (Wire.mk w.handle w.ends) (mirrors.regained regular single hw)
  have shown : (c.flushTokens p).2.1.toContents
      = ⟨p.nodes, p.wires.map fun w => { w with token := c.latest w }⟩ :=
    (WriteQueue.toContents_flush _ p).trans
      (Contents.setTokens_eq_map reached.waiting _ mirrors.distinct)
  refine ⟨r, undone, regained, ?_⟩
  rw [regained, shown, Contents.mk.injEq, List.map_inj_left, and_iff_right rfl]
  constructor
  · intro each x hx touches w hw named
    obtain ⟨v, hv, named', stands⟩ := mirrors.cables x hx
    obtain rfl := List.inj_on_of_nodup_map mirrors.distinct hv hw (named'.trans named.symm)
    have along : c.takesAlong v = true :=
      List.any_eq_true.2 ⟨x, hx, Bool.and_eq_true_iff.2 ⟨beq_iff_eq.2 named'.symm, touches⟩⟩
    have kept : v.token = c.latest v := by simpa [along] using congrArg Wire.token (each v hw)
    rw [kept, token_of_wireOf? stands]
  · intro each w hw
    cases along : c.takesAlong w with
    | false => rfl
    | true =>
      obtain ⟨x, hx, hit⟩ := List.any_eq_true.1 along
      obtain ⟨named, touches⟩ := Bool.and_eq_true_iff.1 hit
      obtain ⟨v, hv, named', stands⟩ := mirrors.cables x hx
      obtain rfl := List.inj_on_of_nodup_map mirrors.distinct hv hw (named'.trans (eq_of_beq named))
      have kept : v.token = c.latest v :=
        (each x hx touches v hw named').trans (token_of_wireOf? stands)
      simp [← kept]

instance (c : Canvas) (p : Patch) : Decidable (c.Mirrors p) :=
  decidable_of_iff ((p.wires.map Wire.handle).Nodup ∧ ∀ x ∈ c.scene.cables, ∃ w ∈ p.wires,
      w.handle = x.2.handle ∧ c.wireOf? x.2 = some (w.ends, c.latest w))
    ⟨fun both => ⟨both.1, both.2⟩, fun mirrors => ⟨mirrors.distinct, mirrors.cables⟩⟩

/-- A cable for which a token waits is selected, and the box of another one. -/
def regretted : List Event :=
  [.mutate (.insertNode ⟨"osc~", ⟨0, 0, 40, 20⟩, [], [true, true]⟩),
    .mutate (.insertNode ⟨"dac~", ⟨100, 100, 40, 20⟩, [true], []⟩),
    .mutate (.insertNode ⟨"print", ⟨0, 100, 40, 20⟩, [true], []⟩),
    .mutate (.insertWire ⟨1, 0, 2, 0⟩), .mutate (.insertWire ⟨1, 1, 3, 0⟩), .call .sync,
    .call (.pushToken 1 "BB4oHnjmeObK" 0), .call (.selectCable 1 false), .call (.selectBox 3 true)]

theorem undo_deleteSelection_regretted :
    let (c, p) := play {} {} regretted
    let (t, q, result) := c.deleteSelection p
    (Reached c ∧ p.Sound ∧ p.history.sequences = [] ∧ c.Mirrors p ∧
      (∀ v ∈ p.wires, ∀ w ∈ p.wires, v.ends = w.ends →
        v.ends ∈ c.looseWires.map Prod.fst → v = w) ∧
      result = .ok 2 ∧ q.toContents ≠ p.toContents) ∧ q.wires = [] ∧
      ∃ r, q.undo? = some r ∧ r.wires = [⟨4, ⟨1, 0, 2, 0⟩, "BB4oHnjmeObK"⟩, ⟨5, ⟨1, 1, 3, 0⟩, ""⟩] ∧
        (t.flushTokens r).2.1.toContents = (c.flushTokens p).2.1.toContents := by
  have reached : Reached (play {} {} regretted).1 := reached_play {} {} regretted
  have sound : (play {} {} regretted).2.Sound :=
    ⟨by decide +kernel, by decide +kernel, by decide +kernel⟩
  have closed : (play {} {} regretted).2.history.sequences = [] := by decide +kernel
  have mirrors : (play {} {} regretted).1.Mirrors (play {} {} regretted).2 := by decide +kernel
  have single : ∀ v ∈ (play {} {} regretted).2.wires, ∀ w ∈ (play {} {} regretted).2.wires,
      v.ends = w.ends → v.ends ∈ (play {} {} regretted).1.looseWires.map Prod.fst → v = w := by
    decide +kernel
  have done : ((play {} {} regretted).1.deleteSelection (play {} {} regretted).2).2.2 = .ok 2 := by
    decide +kernel
  have removed : ((play {} {} regretted).1.deleteSelection
      (play {} {} regretted).2).2.1.toContents ≠ (play {} {} regretted).2.toContents := by
    decide +kernel
  obtain ⟨r, undone, -, regained⟩ :=
    undo_deleteSelection reached sound closed mirrors single done removed
  have back : (((play {} {} regretted).1.deleteSelection
      (play {} {} regretted).2).2.1.undo?.map fun r => r.wires)
        = some [⟨4, ⟨1, 0, 2, 0⟩, "BB4oHnjmeObK"⟩, ⟨5, ⟨1, 1, 3, 0⟩, ""⟩] := by decide +kernel
  rw [undone] at back
  exact ⟨⟨reached, sound, closed, mirrors, single, done, removed⟩, by decide +kernel, r, undone,
    Option.some.inj back, regained.2 (by decide +kernel)⟩

/-- The token of a cable that is drawn by hand is lost with a box that is deleted and brought back. -/
def unregained : List Event :=
  [.mutate (.insertNode ⟨"osc~", ⟨0, 0, 40, 20⟩, [], [true]⟩),
    .mutate (.insertNode ⟨"dac~", ⟨100, 100, 40, 20⟩, [true], []⟩),
    .mutate (.insertWire ⟨1, 0, 2, 0⟩), .call .sync, .call (.beginSegment 1 ⟨65, 60⟩),
    .call (.dragSegment ⟨65, 70⟩), .call (.endSegment 0), .call (.selectBox 1 false)]

theorem undo_deleteSelection_loses : ¬ ∀ c, Reached c → ∀ p : Patch, p.Sound →
    p.history.sequences = [] → c.Mirrors p → ∀ n, (c.deleteSelection p).2.2 = .ok n →
    (c.deleteSelection p).2.1.toContents ≠ p.toContents →
    ∀ r, (c.deleteSelection p).2.1.undo? = some r →
      ((c.deleteSelection p).1.flushTokens r).2.1.toContents
        = (c.flushTokens p).2.1.toContents := by
  intro always
  have reached : Reached (play {} {} unregained).1 := reached_play {} {} unregained
  have sound : (play {} {} unregained).2.Sound :=
    ⟨by decide +kernel, by decide +kernel, by decide +kernel⟩
  have back := always _ reached _ sound (by decide +kernel) (by decide +kernel) 1 (by decide +kernel)
    (by decide +kernel)
  have lost : ((play {} {} unregained).1.deleteSelection
      (play {} {} unregained).2).2.1.undo?.any (fun r => !decide
        ((((play {} {} unregained).1.deleteSelection (play {} {} unregained).2).1.flushTokens
          r).2.1.toContents = ((play {} {} unregained).1.flushTokens
            (play {} {} unregained).2).2.1.toContents)) = true := by decide +kernel
  obtain ⟨r, undone, differ⟩ := (Option.any_eq_true _ _).1 lost
  rw [decide_eq_true (back r undone)] at differ
  exact absurd differ Bool.false_ne_true

end Canvas

end Patchbay
