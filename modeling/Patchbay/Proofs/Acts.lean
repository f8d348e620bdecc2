import Patchbay.Proofs.Stirred

/-!
# What a gesture tells the patch

Whichever gesture it is, to the patch it is one sequence of retouches, and most gestures leave the
tokens. Together with what it leaves on the canvas that is all that undoing it takes.
-/

namespace Patchbay.Canvas

open Keyed (keys)

variable {c t : Canvas} {p q : Patch}

theorem retouched_endMove (off : t.settings.routing.autoRouteOnOverlap = false) (p : Patch)
    (now : Nat) : p.Retouched True fun q => (t.endMove q now).2.1 := by
  cases drag : t.drag with
  | boxes grabbed start offset =>
    by_cases still : t.snapper.settle offset = .origin
    · exact Patch.retouched_idle fun h => by simp only [endMove, drag, still, if_true]
    · let u := { t with drag := .none, snapper := t.snapper.clear }.showOffset
        (t.snapper.settle offset)
      have moves : p.Retouched True fun q => (Document.inSequence q moveLabel fun q => Document.editAll
          (fun q h => Document.moveNode q h (t.snapper.settle offset)) q
          (u.selection.boxes.filterMap fun key => (u.scene.box? key).bind Box.handle)).1 :=
        Patch.retouched_editAll (o := fun h => .moveNode h _) (fun _ _ => rfl) (fun _ => trivial) _ _
      refine moves.congr fun h => ?_
      have off' : u.requestSync.settings.routing.autoRouteOnOverlap = false := off
      simp only [endMove, drag, still, if_false]
      split
      · rfl
      · rw [if_neg (by rw [off']; exact Bool.false_ne_true)]
  | _ => exact Patch.retouched_idle fun h => by simp only [endMove, drag]

theorem retouched_move (free : c.drag = .none)
    (off : c.settings.routing.autoRouteOnOverlap = false) (p : Patch) (m : Haul) :
    p.Retouched True fun q => (c.move q m).2.1 := by
  rcases haul_cases (m := m) free with ⟨idle, -⟩ | aloft
  · exact retouched_endMove (idle.symm ▸ off) p m.now
  · exact retouched_endMove (aloft.settings.symm ▸ off) p m.now

theorem retouched_endResize (t : Canvas) (p : Patch) :
    p.Retouched True fun q => (t.endResize q).2.1 := by
  have idle (same : ∀ q : Patch, (t.endResize q).2.1 = q) :
      p.Retouched True fun q => (t.endResize q).2.1 := Patch.retouched_idle fun h => same _
  cases drag : t.drag with
  | resize key edges start offset =>
    cases found : t.scene.box? key with
    | none => exact idle fun q => by simp only [endResize, drag, found]
    | some b =>
      by_cases still : b.bounds = b.home
      · exact idle fun q => by simp only [endResize, drag, found, still, if_true]
      · cases named : b.handle with
        | none => exact idle fun q => by simp only [endResize, drag, found, still, if_false, named]
        | some handle =>
          have resizes : p.Retouched True fun q => (Document.inSequence q resizeLabel fun q =>
              Document.editAll (fun q r => Document.setBounds q handle r) q [b.content]).1 :=
            Patch.retouched_editAll (o := fun r => .setBounds handle r) (fun _ _ => rfl)
              (fun _ => trivial) _ _
          refine resizes.congr fun h => ?_
          simp only [endResize, drag, found, still, if_false, named]
  | _ => exact idle fun q => by simp only [endResize, drag]

theorem retouched_align (c : Canvas) (p : Patch) (a : Alignment) :
    p.Retouched True fun q => (c.alignSelection q a).2.1 := by
  by_cases idle : c.locked = true ∨ (c.alignMoves a).isEmpty = true
  · refine Patch.retouched_idle fun h => ?_
    unfold alignSelection
    rcases idle with locked | none
    · rw [if_pos locked]
    · split
      · rfl
      · simp only [none, if_true]
  · obtain ⟨unlocked, some⟩ := not_or.1 idle
    have moves : p.Retouched True fun q => (Document.inSequence q alignLabel fun q => Document.editAll
        (fun q (m : Nat × Nat × Point) => Document.moveNodeTo q m.2.1 m.2.2) q (c.alignMoves a)).1 :=
      Patch.retouched_editAll (o := fun m : Nat × Nat × Point => .moveNodeTo m.2.1 m.2.2)
        (fun _ _ => rfl) (fun _ => trivial) _ _
    refine moves.congr fun h => ?_
    simp only [alignSelection, unlocked, some, Bool.false_eq_true, if_false]
    split <;> rfl

theorem disconnect_held {e : Ends} {token : String}
    (held : ∀ w ∈ p.wires, w.ends = e → w.token = token) :
    p.disconnect e token = p.disconnect e (p.heldToken e) := by
  cases found : p.wires.find? (·.ends == e) with
  | none =>
    have none : p.wires.findIdx? (·.ends == e) = none := by
      rw [List.findIdx?_eq_none_iff]
      exact fun w hw => by simpa using List.find?_eq_none.1 found w hw
    simp only [Patch.disconnect, none]
  | some w =>
    have ends : w.ends = e := by simpa using List.find?_some found
    have same : p.heldToken e = token := by
      simp [Patch.heldToken, found, held w (List.mem_of_find?_eq_some found) ends]
    rw [same]

theorem run_all_disconnect {ws : List (Ends × String)}
    (held : ∀ w ∈ p.wires, ∀ x ∈ ws, w.ends = x.1 → w.token = x.2) :
    (Script.all (ws.map fun x => .disconnect x.1 none)).run p
      = Document.editAll (fun d (w : Ends × String) => Document.disconnect d w.1 w.2) p ws := by
  induction ws generalizing p with
  | nil => rfl
  | cons x ws ih =>
    have first := disconnect_held fun w hw => held w hw x List.mem_cons_self
    have here : Document.disconnect p x.1 x.2 = p.disconnect x.1 x.2 := rfl
    simp only [Script.all, List.map_cons, List.foldr_cons, Script.run, Operation.run,
      Option.getD_none, ← first, Document.editAll, here]
    cases made : p.disconnect x.1 x.2 with
    | error e => rfl
    | ok q =>
      refine ih fun w hw y hy => held w ?_ y (List.mem_cons_of_mem _ hy)
      unfold Patch.disconnect at made
      split at made
      · obtain rfl := Except.ok.inj made
        exact (List.eraseIdx_sublist _ _).subset hw
      · exact absurd made (by simp)

def removal (wires : List (Ends × String)) (handles : List Nat) (q : Patch) :
    Patch × Except EditError Unit :=
  match Document.editAll (fun d (w : Ends × String) => Document.disconnect d w.1 w.2) q wires with
  | (q, .error e) => (q, .error e)
  | (q, .ok ()) =>
    if handles.isEmpty then (q, .ok ()) else Document.editAll Document.removeNodes q [handles]

theorem doc_deleteSelection (c : Canvas) : ∃ idle handles, ∀ q : Patch,
    (c.deleteSelection q).2.1 = if idle = true then q
      else (Document.inSequence q removeLabel (removal c.looseWires handles)).1 := by
  by_cases idle : (c.locked || c.selection.isEmpty) = true
  · exact ⟨true, [], fun q => by rw [deleteSelection, if_pos idle, if_pos rfl]⟩
  · obtain ⟨handles, made⟩ : ∃ handles, (c.selection.boxes.filterMap fun key =>
      (c.scene.box? key).map fun b => (key, b)).filterMap (fun e => e.2.handle) = handles := ⟨_, rfl⟩
    refine ⟨c.looseWires.isEmpty && handles.isEmpty, handles, fun q => ?_⟩
    rw [deleteSelection, if_neg idle]
    simp only [made]
    cases c.looseWires.isEmpty && handles.isEmpty with
    | true => rfl
    | false =>
      simp only [Bool.false_eq_true, if_false]
      split
      all_goals
        dsimp only
        refine congrArg Prod.fst (congrArg (Document.inSequence q removeLabel) (funext fun d => ?_))
        rw [removal]
        rcases Document.editAll _ d c.looseWires with ⟨_, _ | _⟩ <;> rfl

theorem run_removal {wires : List (Ends × String)} (handles : List Nat)
    (held : ∀ w ∈ p.wires, ∀ x ∈ wires, w.ends = x.1 → w.token = x.2) :
    (Script.andThen (.all (wires.map fun x => .disconnect x.1 none))
      (if handles.isEmpty then .done else .all [.removeNodes handles])).run p
      = removal wires handles p := by
  rw [Script.run, run_all_disconnect held, removal]
  split
  · next same =>
    rw [same]
    split
    · rfl
    · exact Script.run_all (o := .removeNodes) (fun _ _ => rfl) [handles] _
  · next same => rw [same]

theorem retouched_delete (held : ∀ w ∈ p.wires, ∀ x ∈ c.looseWires, w.ends = x.1 → w.token = x.2) :
    p.Retouched True fun q => (c.deleteSelection q).2.1 := by
  obtain ⟨idle, handles, run⟩ := doc_deleteSelection c
  cases idle with
  | true => exact Patch.retouched_idle fun h => (run _).trans (if_pos rfl)
  | false =>
    let taken := Script.all (c.looseWires.map fun x => .disconnect x.1 none)
    let gone : Script := if handles.isEmpty then .done else .all [.removeNodes handles]
    refine ⟨removeLabel, .andThen taken gone, ⟨Script.each_all ?_, ?_⟩, fun h => ?_⟩
    · exact List.forall_mem_map.2 fun _ _ => rfl
    · unfold gone
      split
      · exact trivial
      · exact ⟨trivial, trivial⟩
    · refine (run _).trans ?_
      rw [if_neg Bool.false_ne_true]
      exact congrArg (fun made => Patch.closeSequence made.1)
        (run_removal (p := (p.withHistory h).openSequence removeLabel) handles held).symm

theorem connectOne_eq (p : Patch) (made : List Nat) (e : Ends) :
    (connectOne (p, made) e).1 = ((Script.edit (.connect e)).run p).1 := by
  have same : Document.connect p e = p.connect e := rfl
  simp only [connectOne, same, Script.run, Operation.run]
  cases p.connect e <;> rfl

theorem retouched_endConnection (t : Canvas) (p : Patch) :
    p.Retouched True fun q => (t.endConnection q).2.1 := by
  obtain ⟨wires, run⟩ : ∃ wires : List Ends, ∀ q : Patch, (t.endConnection q).2.1
      = if wires.isEmpty then q
        else (Document.inSequence q connectLabel fun q => wires.foldl connectOne (q, [])).1 := by
    cases drag : t.drag with
    | connection sources cursor =>
      cases aimed : t.target with
      | none => exact ⟨[], fun q => by simp [endConnection, drag, aimed]⟩
      | some target =>
        let u := { t with drag := .none, target := some target }.clearTarget
        refine ⟨sources.filterMap (u.newEnds? target), fun q => ?_⟩
        simp only [endConnection, drag, aimed, apply_ite Prod.snd, apply_ite Prod.fst]
        rfl
    | _ => exact ⟨[], fun q => by simp [endConnection, drag]⟩
  by_cases none : wires.isEmpty = true
  · exact Patch.retouched_idle fun h => by rw [run, if_pos none]
  · refine ⟨connectLabel, .tries (wires.map .connect),
      Script.each_tries (List.forall_mem_map.2 fun _ _ => trivial), fun h => ?_⟩
    refine (run _).trans ?_
    rw [if_neg none]
    exact congrArg Patch.closeSequence (Script.run_tries connectOne_eq _ _ _).symm

theorem retouched_bend (free : c.drag = .none) (quiet : c.queue.isEmpty = true) (p : Patch)
    (m : Bend) : p.Retouched False fun q => ((Act.bend m).run c q).2 := by
  rw [← (bent_bend free m).queue] at quiet
  rcases endSegment_cases quiet m.now with idle | ⟨d, x, token, made, -, -, -, pushed⟩
  · refine Patch.retouched_idle fun h => ?_
    obtain ⟨same, doc⟩ := idle (p.withHistory h)
    simp only [Act.run, flushTokens, WriteQueue.flush, same, quiet, if_true, doc]
  · refine (Patch.retouched_flush p made).congr fun h => ?_
    simp only [Act.run, flushTokens, pushed]

namespace Act

/-- What a gesture takes for granted: a move, that it is left to the user to route cables; a deletion,
that it takes wires out with the tokens that they have; a bend, that no other tokens wait. -/
def Fits (c : Canvas) (p : Patch) : Act → Prop
  | move _ => c.settings.routing.autoRouteOnOverlap = false
  | delete => ∀ w ∈ p.wires, ∀ x ∈ c.looseWires, w.ends = x.1 → w.token = x.2
  | bend _ => c.queue.isEmpty = true ∧ ∀ x ∈ c.scene.cables, x.2.unsaved = false
  | _ => True

def Records (act : Act) (c : Canvas) (p : Patch) : Prop :=
  (act.run c (p.withHistory {})).2.history.done ≠ []

def Still : Act → Prop
  | bend _ => False
  | _ => True

instance (c : Canvas) (p : Patch) : (act : Act) → Decidable (act.Fits c p)
  | move _ => inferInstanceAs (Decidable (_ = _))
  | delete => inferInstanceAs (Decidable (∀ w ∈ p.wires, ∀ x ∈ c.looseWires, _ → _))
  | bend _ => inferInstanceAs (Decidable (_ ∧ ∀ x ∈ c.scene.cables, _))
  | resize _ | align _ | connect _ => inferInstanceAs (Decidable True)

instance (act : Act) (c : Canvas) (p : Patch) : Decidable (act.Records c p) :=
  inferInstanceAs (Decidable (_ ≠ _))

variable {act : Act}

theorem stirred (free : c.drag = .none) (fits : act.Fits c p)
    (records : act.Records c p) :
    Stirred c p (act.run c p).1 (act.run c p).2 (act.moved c) (act.stops c p) := by
  cases act with
  | move m => exact stirred_move free fits m
  | resize m => exact stirred_resize free m
  | align a => exact stirred_align a
  | delete => exact stirred_delete
  | connect m => exact stirred_connect m
  | bend m => exact stirred_bend free fits.1 fits.2 m records

theorem retouched (free : c.drag = .none) (fits : act.Fits c p) :
    p.Retouched act.Still fun q => (act.run c q).2 := by
  cases act with
  | move m => exact retouched_move free fits p m
  | resize m => exact retouched_endResize _ p
  | align a => exact retouched_align c p a
  | delete => exact retouched_delete fits
  | connect m => exact retouched_endConnection _ p
  | bend m => exact retouched_bend free fits.1 p m

theorem Fits.saved (fits : act.Fits c p) (writes : ¬act.Still) :
    ∀ x ∈ c.scene.cables, x.2.unsaved = false := by
  cases act with
  | bend m => exact fits.2
  | _ => exact absurd trivial writes

end Act

end Patchbay.Canvas
