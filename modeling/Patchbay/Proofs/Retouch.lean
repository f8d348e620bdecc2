import Patchbay.Proofs.Gesture
import Patchbay.Proofs.Haul
import Patchbay.Proofs.Queue
import Patchbay.Proofs.Rewired

/-!
# Patches that are retouched

What a gesture on a canvas makes of the patch is a script: boxes are put elsewhere, wires and nodes go,
wires come, and some gestures write tokens. Nodes do not come, and wires are taken out with the tokens
that they have. So one undo takes all of it back, and the wires that stay have the ends that they had.
-/

namespace Patchbay

open Keyed (keys)

/-- Edits of what is there, in which wires go with their own tokens, and may have to keep them. -/
def Operation.Retouches (still : Prop) : Operation → Prop
  | createNode _ _ => False
  | disconnect _ token => token = none
  | setToken _ _ => ¬still
  | _ => True

namespace Script

def Each (P : Operation → Prop) : Script → Prop
  | done => True
  | edit o => P o
  | andThen first rest => first.Each P ∧ rest.Each P
  | attempt s => s.Each P
  | sequence _ body => body.Each P

theorem Each.keepsTokens {s : Script} {still : Prop} (each : s.Each (Operation.Retouches still)) :
    s.KeepsTokens := by
  induction s with
  | done => exact trivial
  | edit o =>
    cases o with
    | disconnect e token => exact each
    | _ => exact trivial
  | andThen first rest ihf ihr => exact ⟨ihf each.1, ihr each.2⟩
  | attempt s ih => exact ih each
  | sequence label body ih => exact ih each

def all (os : List Operation) : Script := os.foldr (fun o s => .andThen (.edit o) s) .done

def tries (os : List Operation) : Script :=
  os.foldr (fun o s => .andThen (.attempt (.edit o)) s) .done

variable {P : Operation → Prop} {os : List Operation} {β σ : Type} {o : β → Operation}

theorem each_all (each : ∀ o ∈ os, P o) : (all os).Each P := by
  induction os with
  | nil => exact trivial
  | cons o os ih =>
    obtain ⟨first, rest⟩ := List.forall_mem_cons.1 each
    exact ⟨first, ih rest⟩

theorem each_tries (each : ∀ o ∈ os, P o) : (tries os).Each P := by
  induction os with
  | nil => exact trivial
  | cons o os ih =>
    obtain ⟨first, rest⟩ := List.forall_mem_cons.1 each
    exact ⟨first, ih rest⟩

theorem run_all {edit : Patch → β → Except EditError Patch}
    (same : ∀ p b, (o b).run p = edit p b) (bs : List β) (p : Patch) :
    (all (bs.map o)).run p = Document.editAll edit p bs := by
  induction bs generalizing p with
  | nil => rfl
  | cons b bs ih =>
    simp only [all, List.map_cons, List.foldr_cons, run, same, Document.editAll]
    cases edit p b with
    | ok q => exact ih q
    | error e => rfl

theorem run_tries {f : Patch × σ → β → Patch × σ}
    (same : ∀ p z b, (f (p, z) b).1 = ((edit (o b)).run p).1) (bs : List β) (p : Patch) (z : σ) :
    ((tries (bs.map o)).run p).1 = (bs.foldl f (p, z)).1 := by
  induction bs generalizing p z with
  | nil => rfl
  | cons b bs ih =>
    cases made : f (p, z) b with
    | mk q z' =>
      have first : ((edit (o b)).run p).1 = q := by rw [← same p z, made]
      rw [List.foldl_cons, made, ← ih q z', ← first]
      rfl

end Script

/-- Whether the ends of a wire have the same jacks on both sides. -/
structure Contents.SameJacks (c d : Contents) (e : Ends) : Prop where
  outlet : (d.node? e.outletOwner).map (·.info.signals .outlet)
    = (c.node? e.outletOwner).map (·.info.signals .outlet)
  inlet : (d.node? e.inletOwner).map (·.info.signals .inlet)
    = (c.node? e.inletOwner).map (·.info.signals .inlet)

namespace Patch

variable {p q r : Patch} {still : Prop} {h k : Nat} {hs : List Nat} {w : Wire} {ws : List Wire}
  {i : Nat} {nodes : Keyed Node} {e : Ends}

/-- A patch after edits. Its wires are new, or they have the ends and jacks that they had. -/
structure Edited (still : Prop) (p q : Patch) : Prop where
  next : p.next ≤ q.next
  wires : ∀ w ∈ q.wires, p.next ≤ w.handle ∨ ∃ v ∈ p.wires, v.handle = w.handle ∧
    v.ends = w.ends ∧ (still → v = w) ∧ p.SameJacks q.toContents w.ends

theorem Edited.refl (still : Prop) (p : Patch) : p.Edited still p where
  next := Nat.le_refl _
  wires w hw := Or.inr ⟨w, hw, rfl, rfl, fun _ => rfl, rfl, rfl⟩

theorem Edited.trans (first : p.Edited still q) (second : q.Edited still r) : p.Edited still r where
  next := Nat.le_trans first.next second.next
  wires w hw := by
    rcases second.wires w hw with new | ⟨v, hv, handle, ends, same, jacks⟩
    · exact Or.inl (Nat.le_trans first.next new)
    · rcases first.wires v hv with new | ⟨u, hu, handle', ends', same', jacks'⟩
      · exact Or.inl (handle ▸ new)
      · rw [ends] at jacks'
        exact Or.inr ⟨u, hu, handle'.trans handle, ends'.trans ends,
          fun hold => (same' hold).trans (same hold), jacks.outlet.trans jacks'.outlet,
          jacks.inlet.trans jacks'.inlet⟩

theorem Rearranged.edited (rearranged : p.Rearranged q) (next : q.next = p.next) :
    p.Edited still q where
  next := Nat.le_of_eq next.symm
  wires w hw := Or.inr ⟨w, rearranged.wires ▸ hw, rfl, rfl, fun _ => rfl, rearranged.signals _ _,
    rearranged.signals _ _⟩

theorem next_setBounds {bounds : Rect} (made : p.setBounds h bounds = .ok q) : q.next = p.next := by
  unfold setBounds at made
  split at made
  · exact absurd made (by simp)
  · split at made <;> exact (congrArg Patch.next (Except.ok.inj made)).symm

theorem edited_setBounds {bounds : Rect} (made : p.setBounds h bounds = .ok q) :
    p.Edited still q :=
  (rearranged_setBounds made).edited (next_setBounds made)

theorem edited_moveNode {d : Point} (made : p.moveNode h d = .ok q) : p.Edited still q := by
  unfold moveNode at made
  split at made
  · exact absurd made (by simp)
  · exact edited_setBounds made

theorem edited_moveNodeTo {position : Point} (made : p.moveNodeTo h position = .ok q) :
    p.Edited still q := by
  unfold moveNodeTo at made
  split at made
  · exact absurd made (by simp)
  · exact edited_setBounds made

theorem edited_setToken {token : String} (free : ¬still) (made : p.setToken h token = .ok q) :
    p.Edited still q := by
  unfold setToken at made
  split at made
  · exact absurd made (by simp)
  · split at made
    · obtain rfl := Except.ok.inj made
      exact .refl still p
    · obtain rfl := Except.ok.inj made
      refine ⟨Nat.le_refl _, fun w hw => ?_⟩
      have told : w.bare ∈ p.wires.map Wire.bare := by
        rw [← Contents.map_bare_writeToken h token]
        exact List.mem_map_of_mem hw
      obtain ⟨v, hv, same⟩ := List.mem_map.1 told
      obtain ⟨handle, ends⟩ := Prod.mk.inj same
      exact Or.inr ⟨v, hv, handle, ends, fun hold => absurd hold free, rfl, rfl⟩

theorem edited_connect (made : p.connect e = .ok (h, q)) : p.Edited still q := by
  unfold connect insertWire at made
  split at made
  · exact absurd made (by simp)
  · next added hins =>
    split at hins
    · exact absurd hins (by simp)
    · obtain ⟨rfl, rfl⟩ := Prod.mk.inj (Except.ok.inj hins)
      obtain ⟨rfl, rfl⟩ := Prod.mk.inj (Except.ok.inj made)
      have fresh : p.next ≤ p.freshHandle := Nat.le_max_left _ _
      refine ⟨Nat.le_succ_of_le fresh, fun w hw => ?_⟩
      rcases List.mem_append.1 hw with old | new
      · exact Or.inr ⟨w, old, rfl, rfl, fun _ => rfl, rfl, rfl⟩
      · rw [List.mem_singleton.1 new]
        exact Or.inl fresh

theorem edited_disconnect {token : String} (made : p.disconnect e token = .ok q) :
    p.Edited still q := by
  unfold disconnect at made
  split at made
  · obtain rfl := Except.ok.inj made
    exact ⟨Nat.le_refl _, fun w hw => Or.inr ⟨w, (List.eraseIdx_sublist _ _).subset hw, rfl, rfl,
      fun _ => rfl, rfl, rfl⟩⟩
  · exact absurd made (by simp)

theorem apart_of_mem_detach {n : Nat} (mem : w ∈ (detach hs n ws).1) :
    w.ends.inletOwner ∉ hs ∧ w.ends.outletOwner ∉ hs := by
  induction ws generalizing n with
  | nil => exact absurd mem List.not_mem_nil
  | cons v ws ih =>
    simp only [detach] at mem
    split at mem
    · exact ih mem
    · next apart =>
      rcases List.mem_cons.1 mem with rfl | mem
      · simpa using apart
      · exact ih mem

theorem get?_eraseIdx_of_ne {n : Node} (there : nodes[i]? = some (h, n)) (other : h ≠ k) :
    Keyed.get? (nodes.eraseIdx i) k = Keyed.get? nodes k := by
  induction nodes generalizing i with
  | nil => rfl
  | cons x rest ih =>
    cases i with
    | zero =>
      obtain rfl := Option.some.inj there
      simp [Keyed.get?, other]
    | succ i =>
      have same := ih there
      simp only [List.eraseIdx_cons_succ, Keyed.get?, same]

theorem get?_takeOut (apart : k ∉ hs) (nodes : Keyed Node) :
    Keyed.get? (takeOut hs nodes).1 k = Keyed.get? nodes k := by
  induction hs generalizing nodes with
  | nil => rfl
  | cons h hs ih =>
    obtain ⟨other, rest⟩ := not_or.1 (List.mem_cons.not.1 apart)
    simp only [takeOut]
    split
    · next i n hi hn =>
      have there := Keyed.getElem?_of_findIdx? hi hn
      exact (ih rest _).trans (get?_eraseIdx_of_ne there fun same => other same.symm)
    · exact ih rest nodes

theorem edited_removeNodes (made : p.removeNodes hs = .ok q) : p.Edited still q := by
  unfold removeNodes at made
  split at made
  · exact absurd made (by simp)
  · obtain rfl := Except.ok.inj made
    refine ⟨Nat.le_refl _, fun w hw => Or.inr ?_⟩
    obtain ⟨inlet, outlet⟩ := apart_of_mem_detach hw
    exact ⟨w, (detach_sublist hs 0 p.wires).subset hw, rfl, rfl, fun _ => rfl,
      congrArg _ (get?_takeOut outlet p.nodes), congrArg _ (get?_takeOut inlet p.nodes)⟩

end Patch

variable {p q : Patch} {still : Prop} {h : Nat} {f : Patch → Patch}

theorem Operation.edited {o : Operation} (retouches : o.Retouches still) (made : o.run p = .ok q) :
    p.Edited still q := by
  cases o with
  | createNode text position => exact absurd retouches id
  | moveNode k d => exact Patch.edited_moveNode made
  | moveNodeTo k position => exact Patch.edited_moveNodeTo made
  | setBounds k bounds => exact Patch.edited_setBounds made
  | removeNodes hs => exact Patch.edited_removeNodes made
  | connect e =>
    cases hr : p.connect e with
    | error fault => simp [run, hr, Except.map] at made
    | ok result =>
      obtain ⟨k, r⟩ := result
      obtain rfl : r = q := by simpa [run, hr, Except.map] using made
      exact Patch.edited_connect hr
  | disconnect e token => exact Patch.edited_disconnect made
  | setToken k token => exact Patch.edited_setToken retouches made

theorem Script.edited (s : Script) (each : s.Each (Operation.Retouches still)) (p : Patch) :
    p.Edited still (s.run p).1 := by
  induction s generalizing p with
  | done => exact .refl still p
  | edit o =>
    simp only [run]
    split
    · next made => exact Operation.edited each made
    · exact .refl still p
  | andThen first rest ihf ihr =>
    have start := ihf each.1 p
    simp only [run]
    cases made : first.run p with
    | mk q result =>
      rw [made] at start
      cases result with
      | ok _ => exact start.trans (ihr each.2 q)
      | error _ => exact start
  | attempt s ih => exact ih each p
  | sequence label body ih =>
    obtain ⟨next, wires⟩ := ih each (p.openSequence label)
    exact ⟨next, wires⟩

namespace Patch

/-- Whether what is done to a patch is a sequence of retouches, whatever the history. -/
def Retouched (still : Prop) (p : Patch) (f : Patch → Patch) : Prop :=
  ∃ label body, Script.Each (Operation.Retouches still) body ∧
    ∀ h, f (p.withHistory h) = (Document.inSequence (p.withHistory h) label body.run).1

theorem retouched_idle (same : ∀ h, f (p.withHistory h) = p.withHistory h) : p.Retouched still f :=
  ⟨"", .done, trivial, same⟩

/-- A retouched patch can be brought back. -/
theorem Retouched.reverts (retouched : p.Retouched still f) (sound : p.Sound)
    (closed : p.history.sequences = []) (records : (f (p.withHistory {})).history.done ≠ []) :
    (f p).Sound ∧ p.Edited still (f p) ∧ ∃ s rest, (f p).history.done = s :: rest ∧
      s.revert (f p).toContents = p.toContents := by
  obtain ⟨label, body, each, same⟩ := retouched
  obtain ⟨cs, q, trail, hq, hrun⟩ := (Gesture.sequence label body).run_effect sound
    fun _ : True => each.keepsTokens
  have run (h : History) : f (p.withHistory h) = q.withHistory (h.note label cs) :=
    (same h).trans (hrun h)
  have edited := (Script.sequence label body).edited each p
  have here : f p = (Document.inSequence p label body.run).1 := same p.history
  have made : f p = q.withHistory (p.history.note label cs) := run p.history
  have recorded : cs ≠ [] := by
    rintro rfl
    rw [run] at records
    exact records rfl
  refine ⟨made ▸ hq.withHistory _, here ▸ edited, ⟨label, cs⟩, p.history.done.take 199, ?_, ?_⟩
  · rw [made, history_withHistory, History.note_of_closed closed recorded]
    rfl
  · rw [made]
    exact (trail.revert sound.nodup).2 trivial

theorem Retouched.congr {g : Patch → Patch} (retouched : p.Retouched still f)
    (same : ∀ h, g (p.withHistory h) = f (p.withHistory h)) : p.Retouched still g := by
  obtain ⟨label, body, each, run⟩ := retouched
  exact ⟨label, body, each, fun h => (same h).trans (run h)⟩

theorem retouched_editAll {β : Type} {edit : Patch → β → Except EditError Patch} {o : β → Operation}
    (same : ∀ p b, (o b).run p = edit p b) (each : ∀ b, (o b).Retouches still) (label : String)
    (bs : List β) :
    p.Retouched still fun q => (Document.inSequence q label fun q => Document.editAll edit q bs).1 := by
  refine ⟨label, .all (bs.map o), Script.each_all (List.forall_mem_map.2 fun b _ => each b),
    fun h => ?_⟩
  have run : (Script.all (bs.map o)).run = fun q => Document.editAll edit q bs :=
    funext (Script.run_all same bs)
  rw [run]

theorem writeOne_eq (p : Patch) (written : Nat) (entry : Nat × String) :
    (WriteQueue.writeOne (p, written) entry).1
      = ((Script.edit (.setToken entry.1 entry.2)).run p).1 := by
  rw [WriteQueue.writeOne_fst]
  simp only [Script.run, Operation.run]
  cases p.setToken entry.1 entry.2 <;> rfl

theorem retouched_flush (p : Patch) (queue : WriteQueue) :
    p.Retouched False fun q => (queue.flush q).2.1 := by
  by_cases quiet : queue.isEmpty = true
  · exact retouched_idle fun h => by simp only [WriteQueue.flush, quiet, if_true]
  · refine ⟨WriteQueue.label, .tries (queue.pending.map fun e => .setToken e.1 e.2),
      Script.each_tries (List.forall_mem_map.2 fun _ _ => id), fun h => ?_⟩
    simp only [WriteQueue.flush, quiet, Bool.false_eq_true, if_false, Document.inSequence]
    exact congrArg Patch.closeSequence
      (Script.run_tries writeOne_eq queue.pending ((p.withHistory h).openSequence _) 0).symm

theorem wire?_flush {queue : WriteQueue} {token : String} (single : queue.pending = [(h, token)])
    (records : (queue.flush (p.withHistory {})).2.1.history.done ≠ []) :
    (queue.flush p).2.1.wire? h ≠ p.wire? h := by
  have written (q : Patch) : (queue.flush q).2.1
      = ((Script.edit (.setToken h token)).run (q.openSequence WriteQueue.label)).1.closeSequence := by
    have waiting : queue.isEmpty = false := by simp [WriteQueue.isEmpty, single]
    rw [← writeOne_eq _ 0 (h, token)]
    simp only [WriteQueue.flush, waiting, Bool.false_eq_true, if_false, Document.inSequence, single]
    rfl
  have wire (q : Patch) (label : String) : (q.openSequence label).wire? h = q.wire? h := rfl
  rw [written] at records ⊢
  simp only [Script.run, Operation.run, setToken, wire] at records ⊢
  cases found : p.wire? h with
  | none =>
    have here : (p.withHistory {}).wire? h = none := found
    rw [here] at records
    exact absurd rfl records
  | some w =>
    have here : (p.withHistory {}).wire? h = some w := found
    rw [here] at records
    by_cases same : w.token = token
    · simp only [same, if_true] at records
      exact absurd rfl records
    · simp only [same, if_false]
      change (Contents.writeToken h token p.wires).find? (·.handle == h) ≠ _
      have found : p.wires.find? (·.handle == h) = some w := found
      rw [Contents.find?_writeToken, found]
      exact fun again => same (congrArg Wire.token (Option.some.inj again)).symm

end Patch

theorem Scene.isSome_span? {c : Contents} {boxes : List Box} {w : Wire} (found : c.wire? h = some w) :
    (span? c boxes h).isSome = ((site? boxes w.ends.outletOwner .outlet w.ends.outlet).isSome &&
      (site? boxes w.ends.inletOwner .inlet w.ends.inlet).isSome) := by
  simp only [span?, found, Option.bind_eq_bind, Option.bind_some, Option.pure_def]
  cases site? boxes w.ends.outletOwner .outlet w.ends.outlet with
  | none => rfl
  | some a => cases site? boxes w.ends.inletOwner .inlet w.ends.inlet <;> rfl

def Patch.Sole (p : Patch) (h : Nat) : Prop := ∀ w ∈ p.wires, w.handle = h → p.wire? h = some w

instance (p : Patch) (h : Nat) : Decidable (p.Sole h) :=
  inferInstanceAs (Decidable (∀ w ∈ p.wires, _ → _))

variable {w w' : Wire}

theorem Patch.Edited.former (edited : p.Edited still q) (sound : p.Sound)
    (before : p.wire? h = some w) (after : q.wire? h = some w') :
    (∃ v ∈ p.wires, v.handle = h ∧ v.ends = w'.ends ∧ (still → v = w')) ∧
      p.SameJacks q.toContents w'.ends := by
  have named : w.handle = h := by simpa using List.find?_some before
  have named' : w'.handle = h := by simpa using List.find?_some after
  have mem := List.mem_of_find?_eq_some before
  rcases edited.wires w' (List.mem_of_find?_eq_some after) with new | ⟨v, hv, handle, ends, same, jacks⟩
  · exact absurd (sound.wires_below w mem) (Nat.not_lt.2 (named.trans named'.symm ▸ new))
  · exact ⟨⟨v, hv, handle.trans named', ends, same⟩, jacks⟩

theorem Patch.Edited.stays (edited : p.Edited still q) (sound : p.Sound) (sole : p.Sole h)
    (before : p.wire? h = some w) (after : q.wire? h = some w') :
    w.ends = w'.ends ∧ (still → w = w') := by
  obtain ⟨⟨v, hv, named, rest⟩, -⟩ := edited.former sound before after
  obtain rfl := Option.some.inj ((sole v hv named).symm.trans before)
  exact rest

theorem Patch.Edited.isSome_span? (edited : p.Edited still q) (sound : p.Sound)
    (nodup : (keys q.nodes).Nodup) (before : p.wire? h = some w) (after : q.wire? h = some w')
    (ends : w.ends = w'.ends) : (Scene.span? q.toContents (Scene.boxesOf q.nodes) h).isSome
      = (Scene.span? p.toContents (Scene.boxesOf p.nodes) h).isSome := by
  obtain ⟨-, jacks⟩ := edited.former sound before after
  have stays {g : Nat} {side : Side} (i : Nat) (alike : (q.node? g).map (·.info.signals side)
      = (p.node? g).map (·.info.signals side)) :
      (Scene.site? (Scene.boxesOf q.nodes) g side i).isSome
        = (Scene.site? (Scene.boxesOf p.nodes) g side i).isSome := by
    rw [Contents.node?, Contents.node?] at alike
    rw [Bool.eq_iff_iff, Scene.isSome_site?_boxesOf nodup, Scene.isSome_site?_boxesOf sound.nodup,
      alike]
  rw [Scene.isSome_span? after, Scene.isSome_span? before, ends, stays _ jacks.outlet,
    stays _ jacks.inlet]

end Patchbay
