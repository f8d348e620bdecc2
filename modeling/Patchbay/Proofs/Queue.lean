import Patchbay.Patch.Edit
import Patchbay.Proofs.Apart
import Patchbay.Token.Queue

/-!
# Tokens that are written later

However pushes, cancellations, ticks and flushes follow one another, no token is lost, none overtakes
a newer one, and none comes back: in the end a patch has the tokens that it would have if each push
had been written at once, but for those that were called off before they were drained.
-/

namespace Patchbay

open Keyed (keys get? remove)

namespace Contents

variable {h k : Nat} {es : List (Nat × String)}

def setTokens (c : Contents) (es : List (Nat × String)) : Contents :=
  es.foldl (fun c e => c.setToken e.1 e.2) c

theorem setTokens_append (c : Contents) (es fs : List (Nat × String)) :
    c.setTokens (es ++ fs) = (c.setTokens es).setTokens fs :=
  List.foldl_append

theorem setToken_comm (ne : h ≠ k) (t u : String) (c : Contents) :
    (c.setToken h t).setToken k u = (c.setToken k u).setToken h t :=
  congrArg (Contents.mk c.nodes) (writeToken_comm ne.symm u t c.wires)

theorem setToken_setToken (h : Nat) (t u : String) (c : Contents) :
    (c.setToken h t).setToken h u = c.setToken h u :=
  congrArg (Contents.mk c.nodes) (writeToken_writeToken h t u c.wires)

theorem setTokens_setToken (other : h ∉ keys es) (t : String) (c : Contents) :
    (c.setToken h t).setTokens es = (c.setTokens es).setToken h t := by
  induction es generalizing c with
  | nil => rfl
  | cons e es ih =>
    obtain ⟨first, rest⟩ := not_or.1 fun there => other (List.mem_cons.2 there)
    calc (c.setToken h t).setTokens (e :: es)
      _ = ((c.setToken h t).setToken e.1 e.2).setTokens es := rfl
      _ = ((c.setToken e.1 e.2).setToken h t).setTokens es := by rw [setToken_comm first]
      _ = (c.setTokens (e :: es)).setToken h t := ih rest _

theorem setTokens_setTokens (nodup : (keys es).Nodup) (c : Contents) :
    (c.setTokens es).setTokens es = c.setTokens es := by
  induction es generalizing c with
  | nil => rfl
  | cons e es ih =>
    obtain ⟨fresh, rest⟩ := List.nodup_cons.1 nodup
    have last (c : Contents) : c.setTokens (e :: es) = (c.setTokens es).setToken e.1 e.2 :=
      setTokens_setToken fresh e.2 c
    rw [last, last, setTokens_setToken fresh, ih rest, setToken_setToken]

theorem alike_setTokens (c : Contents) (es : List (Nat × String)) : (c.setTokens es).Alike c := by
  refine List.foldlRecOn (motive := fun b : Contents => b.Alike c) es _ (.refl c) fun b alike e _ => ?_
  have written : (b.setToken e.1 e.2).Alike b := ⟨rfl, map_bare_writeToken e.1 e.2 b.wires⟩
  exact written.trans alike

theorem wire?_setToken (c : Contents) (h : Nat) (t : String) :
    (c.setToken h t).wire? h = (c.wire? h).map fun w => { w with token := t } :=
  find?_writeToken h t c.wires

theorem wire?_setToken_of_ne (ne : k ≠ h) (t : String) (c : Contents) :
    (c.setToken h t).wire? k = c.wire? k :=
  find?_writeToken_of_ne ne t c.wires

theorem isSome_wire?_setToken (c : Contents) (h k : Nat) (t : String) :
    ((c.setToken h t).wire? k).isSome = (c.wire? k).isSome := by
  by_cases same : k = h
  · rw [same, wire?_setToken, Option.isSome_map]
  · rw [wire?_setToken_of_ne same]

theorem isSome_wire?_setTokens (c : Contents) (es : List (Nat × String)) (h : Nat) :
    ((c.setTokens es).wire? h).isSome = (c.wire? h).isSome := by
  refine List.foldlRecOn (motive := fun b : Contents => (b.wire? h).isSome = (c.wire? h).isSome)
    es _ rfl fun b same e _ => ?_
  rw [isSome_wire?_setToken, same]

theorem setToken_of_unlisted {c : Contents} (unlisted : (c.wire? h).isSome = false) (t : String) :
    c.setToken h t = c := by
  refine congrArg (Contents.mk c.nodes) (writeToken_of_fresh (fun w hw named => ?_) t)
  have none : c.wires.find? (·.handle == h) = none := by simpa [wire?] using unlisted
  exact List.find?_eq_none.1 none w hw (by simpa using named)

theorem token_setTokens (nodup : (keys es).Nodup) (c : Contents) {w : Wire}
    (listed : c.wire? h = some w) :
    ((c.setTokens es).wire? h).map Wire.token = some ((get? es h).getD w.token) := by
  induction es generalizing c w with
  | nil => simp [setTokens, get?, listed]
  | cons e es ih =>
    obtain ⟨k, t⟩ := e
    obtain ⟨fresh, rest⟩ := List.nodup_cons.1 nodup
    by_cases same : k = h
    · subst same
      have last : get? es k = none := Keyed.get?_eq_none_iff.2 fresh
      have written : (c.setToken k t).wire? k = some { w with token := t } := by
        rw [wire?_setToken, listed, Option.map_some]
      calc ((c.setTokens ((k, t) :: es)).wire? k).map Wire.token
        _ = some ((get? es k).getD t) := ih rest _ written
        _ = some ((get? ((k, t) :: es) k).getD w.token) := by simp [get?, last]
    · have kept : (c.setToken k t).wire? h = some w := by
        rw [wire?_setToken_of_ne (Ne.symm same), listed]
      calc ((c.setTokens ((k, t) :: es)).wire? h).map Wire.token
        _ = some ((get? es h).getD w.token) := ih rest _ kept
        _ = some ((get? ((k, t) :: es) h).getD w.token) := by simp [get?, same]

end Contents

namespace Patch

variable {h : Nat} {t : String}

theorem setToken_of_listed {p : Patch} (listed : (p.wire? h).isSome = true) (t : String) :
    ∃ q, p.setToken h t = .ok q ∧ q.toContents = p.toContents.setToken h t := by
  obtain ⟨w, found⟩ := Option.isSome_iff_exists.1 listed
  simp only [setToken, found]
  split
  · next same =>
    subst same
    refine ⟨p, rfl, ?_⟩
    exact congrArg (Contents.mk p.nodes) (Contents.writeToken_of_find? found).symm
  · exact ⟨_, rfl, rfl⟩

theorem next_setToken {p q : Patch} (made : p.setToken h t = .ok q) : q.next = p.next := by
  unfold setToken at made
  split at made
  · exact absurd made (by simp)
  · split at made <;>
    · obtain rfl := Except.ok.inj made
      rfl

def listed (p : Patch) (es : List (Nat × String)) : List (Nat × String) :=
  es.filter fun e => (p.wire? e.1).isSome

/-- Writes tokens one by one straight to their wires, as long as none is refused. -/
def writeAll (p : Patch) (es : List (Nat × String)) : Patch × Except EditError Unit :=
  Document.editAll (fun p e => Document.setToken p e.1 e.2) p es

theorem writeAll_listed (p : Patch) (es : List (Nat × String)) :
    ∃ q, p.writeAll (p.listed es) = (q, .ok ()) ∧ q.toContents = p.toContents.setTokens es := by
  induction es generalizing p with
  | nil => exact ⟨p, rfl, rfl⟩
  | cons e es ih =>
    cases listed : (p.wire? e.1).isSome with
    | true =>
      obtain ⟨r, made, contents⟩ := setToken_of_listed listed e.2
      obtain ⟨q, written, hq⟩ := ih r
      have same : r.listed es = p.listed es := by
        simp only [Patch.listed, contents, Contents.isSome_wire?_setToken]
      have first : p.listed (e :: es) = e :: r.listed es := by
        rw [same]
        simp [Patch.listed, listed]
      refine ⟨q, ?_, ?_⟩
      · have made : Document.setToken p e.1 e.2 = .ok r := made
        rw [first, writeAll, Document.editAll, made]
        exact written
      · rw [hq, contents]
        rfl
    | false =>
      obtain ⟨q, written, hq⟩ := ih p
      have none : p.listed (e :: es) = p.listed es := by simp [Patch.listed, listed]
      refine ⟨q, none ▸ written, ?_⟩
      rw [hq, Contents.setTokens, Contents.setTokens, List.foldl_cons,
        Contents.setToken_of_unlisted listed]

end Patch

namespace WriteQueue

variable {q : WriteQueue} {p : Patch} {h k : Nat} {t : String} {waiting : Keyed String}

theorem writeOne_fst (p : Patch) (written : Nat) (entry : Nat × String) :
    (writeOne (p, written) entry).1 = (p.setToken entry.1 entry.2).toOption.getD p := by
  have lists : (Document.listing p).hasWire entry.1 = (p.wire? entry.1).isSome := by
    rw [Bool.eq_iff_iff, Contents.wire?, List.find?_isSome]
    simp [Document.listing, Contents.listing, Listing.hasWire]
  have same : Document.setToken p entry.1 entry.2 = p.setToken entry.1 entry.2 := rfl
  simp only [writeOne, lists, same]
  cases found : p.wire? entry.1 with
  | none =>
    simp only [Patch.setToken, found]
    rfl
  | some w => cases p.setToken entry.1 entry.2 <;> rfl

theorem toContents_writeOne (p : Patch) (written : Nat) (entry : Nat × String) :
    (writeOne (p, written) entry).1.toContents = p.toContents.setToken entry.1 entry.2 := by
  rw [writeOne_fst]
  cases found : p.wire? entry.1 with
  | none =>
    rw [Contents.setToken_of_unlisted (Option.isSome_eq_false_iff.2 (Option.isNone_iff_eq_none.2 found))]
    simp only [Patch.setToken, found]
    rfl
  | some w =>
    obtain ⟨q, made, contents⟩ := Patch.setToken_of_listed (Option.isSome_iff_exists.2 ⟨w, found⟩) entry.2
    rw [made]
    exact contents

theorem next_writeOne (s : Patch × Nat) (entry : Nat × String) :
    (writeOne s entry).1.next = s.1.next := by
  rw [writeOne_fst]
  cases made : s.1.setToken entry.1 entry.2 with
  | error e => rfl
  | ok q => exact Patch.next_setToken made

theorem toContents_flush (q : WriteQueue) (p : Patch) :
    (q.flush p).2.1.toContents = p.toContents.setTokens q.pending := by
  have fold (es : Keyed String) (state : Patch × Nat) :
      (es.foldl writeOne state).1.toContents = state.1.toContents.setTokens es := by
    induction es generalizing state with
    | nil => rfl
    | cons e es ih =>
      rw [List.foldl_cons, ih, toContents_writeOne]
      rfl
  unfold flush
  split
  · next quiet =>
    rw [isEmpty, List.isEmpty_iff] at quiet
    rw [quiet]
    rfl
  · exact fold q.pending (p.openSequence label, 0)

theorem flush_fst {δ : Type} [Document δ] (q : WriteQueue) (d : δ) :
    (q.flush d).1 = { q with pending := [], deadline := none } := by
  unfold flush
  split
  · next quiet => rw [← List.isEmpty_iff.1 quiet]
  · rfl

theorem pending_flush {δ : Type} [Document δ] (q : WriteQueue) (d : δ) :
    (q.flush d).1.pending = [] := by
  rw [flush_fst]

theorem next_flush (q : WriteQueue) (p : Patch) : (q.flush p).2.1.next = p.next := by
  unfold flush
  split
  · rfl
  · refine List.foldlRecOn (motive := fun s : Patch × Nat => s.1.next = p.next) q.pending _ rfl ?_
    intro s same e _
    rw [next_writeOne, same]

/-! ## Tokens that wait -/

theorem keys_enqueue (h : Nat) (t : String) (waiting : Keyed String) :
    keys (enqueue h t waiting) = if h ∈ keys waiting then keys waiting else keys waiting ++ [h] := by
  induction waiting with
  | nil => rfl
  | cons e waiting ih =>
    by_cases same : e.1 = h
    · simp [enqueue, keys, same]
    · have first : keys (enqueue h t (e :: waiting)) = e.1 :: keys (enqueue h t waiting) := by
        rw [enqueue, if_neg same]
        rfl
      have there : h ∈ keys (e :: waiting) ↔ h ∈ keys waiting := by simp [keys, Ne.symm same]
      rw [first, ih]
      simp only [there]
      split <;> rfl

theorem get?_enqueue (h k : Nat) (t : String) (waiting : Keyed String) :
    get? (enqueue h t waiting) k = if k = h then some t else get? waiting k := by
  induction waiting with
  | nil => simp [enqueue, get?, eq_comm]
  | cons e waiting ih =>
    obtain ⟨j, u⟩ := e
    by_cases same : j = h
    · subst same
      by_cases here : j = k
      · simp [enqueue, get?, here]
      · simp [enqueue, get?, here, Ne.symm here]
    · by_cases here : j = k
      · subst here
        simp [enqueue, get?, same]
      · simp [enqueue, get?, same, here, ih]

theorem nodup_enqueue (nodup : (keys waiting).Nodup) : (keys (enqueue h t waiting)).Nodup := by
  rw [keys_enqueue]
  split
  · exact nodup
  · next fresh => exact List.nodup_middle.2 (by simpa using ⟨fresh, nodup⟩)

theorem setTokens_enqueue (nodup : (keys waiting).Nodup) (c : Contents) :
    c.setTokens (enqueue h t waiting) = (c.setTokens waiting).setToken h t := by
  induction waiting generalizing c with
  | nil => rfl
  | cons e waiting ih =>
    obtain ⟨k, u⟩ := e
    obtain ⟨fresh, rest⟩ := List.nodup_cons.1 nodup
    by_cases same : k = h
    · subst same
      calc c.setTokens (enqueue k t ((k, u) :: waiting))
        _ = c.setTokens ((k, t) :: waiting) := by rw [enqueue, if_pos rfl]
        _ = ((c.setToken k u).setToken k t).setTokens waiting := by
          rw [Contents.setToken_setToken]
          rfl
        _ = (c.setTokens ((k, u) :: waiting)).setToken k t := Contents.setTokens_setToken fresh t _
    · rw [enqueue, if_neg same]
      exact ih rest _

theorem setTokens_push (nodup : (keys q.pending).Nodup) (p : Patch) (h : Nat) (t : String)
    (now : Nat) : (keys (q.push p h t now).1.pending).Nodup ∧
      (q.push p h t now).2.toContents.setTokens (q.push p h t now).1.pending
        = (p.toContents.setTokens q.pending).setToken h t := by
  simp only [WriteQueue.push]
  split
  · have empty : (keys (q.flush p).1.pending).Nodup := by
      rw [pending_flush]
      exact List.nodup_nil
    refine ⟨nodup_enqueue empty, ?_⟩
    rw [setTokens_enqueue empty, pending_flush, toContents_flush]
    rfl
  · exact ⟨nodup_enqueue nodup, setTokens_enqueue nodup _⟩

theorem next_push (q : WriteQueue) (p : Patch) (h : Nat) (t : String) (now : Nat) :
    (q.push p h t now).2.next = p.next := by
  simp only [WriteQueue.push]
  split
  · exact next_flush q p
  · rfl

theorem filter_enqueue (keep : Nat → Bool) (h : Nat) (t : String) (waiting : Keyed String) :
    (enqueue h t waiting).filter (fun e => keep e.1)
      = if keep h then enqueue h t (waiting.filter fun e => keep e.1)
        else waiting.filter fun e => keep e.1 := by
  induction waiting with
  | nil => cases kept : keep h <;> simp [enqueue, kept]
  | cons e waiting ih =>
    by_cases same : e.1 = h
    · cases kept : keep h <;> simp [enqueue, same, kept]
    · cases kept : keep h <;> cases first : keep e.1 <;> simp_all [enqueue]

/-- A deadline is set exactly when something waits. -/
def Timed (q : WriteQueue) : Prop := q.deadline = none ↔ q.pending = []

theorem timed_flush {δ : Type} [Document δ] (q : WriteQueue) (d : δ) : (q.flush d).1.Timed := by
  rw [flush_fst]
  exact iff_of_true rfl rfl

theorem enqueue_ne_nil (waiting : Keyed String) : enqueue h t waiting ≠ [] := by
  cases waiting with
  | nil => exact List.cons_ne_nil _ _
  | cons e waiting =>
    rw [enqueue]
    split <;> exact List.cons_ne_nil _ _

theorem timed_push {δ : Type} [Document δ] (q : WriteQueue) (d : δ) (h : Nat) (t : String)
    (now : Nat) : (q.push d h t now).1.Timed :=
  iff_of_false (Option.some_ne_none _) (enqueue_ne_nil _)

theorem Timed.cancel (timed : q.Timed) (h : Nat) : (q.cancel h).1.Timed := by
  simp only [Timed, WriteQueue.cancel]
  split
  · next none => exact iff_of_true rfl (List.isEmpty_iff.1 none)
  · next some =>
    have left : Keyed.remove q.pending h ≠ [] := fun none => some (List.isEmpty_iff.2 none)
    refine iff_of_false (fun none => ?_) left
    rw [timed.1 none] at left
    exact left rfl

/-! ## Runs -/

inductive Call where
  | push (handle : Nat) (token : String) (now : Nat)
  | cancel (handle : Nat)
  | tick (now : Nat)
  | flush
  deriving DecidableEq, Repr

def Call.run (s : WriteQueue × Patch) : Call → WriteQueue × Patch
  | push h t now => s.1.push s.2 h t now
  | cancel h => ((s.1.cancel h).1, s.2)
  | tick now => ((s.1.tick s.2 now).1, (s.1.tick s.2 now).2.1)
  | flush => ((s.1.flush s.2).1, (s.1.flush s.2).2.1)

def runAll (s : WriteQueue × Patch) (calls : List Call) : WriteQueue × Patch :=
  calls.foldl Call.run s

/-- What becomes of tokens: they come in, they are called off, and all that wait are written. -/
inductive Turn where
  | push (handle : Nat) (token : String)
  | cancel (handle : Nat)
  | drain
  deriving DecidableEq, Repr

/-- The turns of a call. A full queue is drained before a further wire comes in, and a tick drains it
when the time has come. -/
def Call.turns (q : WriteQueue) : Call → List Turn
  | push h t _ =>
    if !Keyed.has q.pending h && q.capacity ≤ q.size then [.drain, .push h t] else [.push h t]
  | cancel h => [.cancel h]
  | tick now => if q.deadline.any (· ≤ now) then [.drain] else []
  | flush => [.drain]

def turns (s : WriteQueue × Patch) : List Call → List Turn
  | [] => []
  | call :: calls => call.turns s.1 ++ turns (call.run s) calls

def arrivals (waiting : Keyed String) : List Turn := waiting.map fun e => .push e.1 e.2

namespace Turn

variable {c : Contents} {rest : List Turn}

def callsOff (h : Nat) : List Turn → Bool
  | [] => false
  | drain :: _ => false
  | cancel k :: rest => k == h || callsOff h rest
  | push _ _ :: rest => callsOff h rest

/-- The tokens that were pushed and not called off, in the order in which they came. -/
def upheld : List Turn → List (Nat × String)
  | [] => []
  | push h t :: rest => if callsOff h rest then upheld rest else (h, t) :: upheld rest
  | _ :: rest => upheld rest

theorem callsOff_arrivals (h : Nat) (waiting : Keyed String) (rest : List Turn) :
    callsOff h (arrivals waiting ++ rest) = callsOff h rest := by
  induction waiting with
  | nil => rfl
  | cons e waiting ih => exact ih

theorem upheld_arrivals (waiting : Keyed String) (rest : List Turn) :
    upheld (arrivals waiting ++ rest)
      = waiting.filter (fun e => !callsOff e.1 rest) ++ upheld rest := by
  induction waiting with
  | nil => rfl
  | cons e waiting ih =>
    have first : upheld (arrivals (e :: waiting) ++ rest)
        = if callsOff e.1 (arrivals waiting ++ rest) then upheld (arrivals waiting ++ rest)
          else e :: upheld (arrivals waiting ++ rest) := rfl
    rw [first, callsOff_arrivals, ih]
    cases off : callsOff e.1 rest <;> simp [off]

theorem upheld_drain (waiting : Keyed String) (rest : List Turn) :
    upheld (arrivals waiting ++ drain :: rest) = waiting ++ upheld rest := by
  rw [upheld_arrivals]
  simp [callsOff, upheld]

theorem upheld_cancel (waiting : Keyed String) (h : Nat) (rest : List Turn) :
    upheld (arrivals waiting ++ cancel h :: rest) = upheld (arrivals (remove waiting h) ++ rest) := by
  have kept : ∀ e : Nat × String,
      (!callsOff e.1 (cancel h :: rest)) = (!callsOff e.1 rest && e.1 != h) := by
    intro e
    rw [callsOff, Bool.not_or, Bool.and_comm, bne, Bool.beq_comm]
  simp only [upheld_arrivals, remove, List.filter_filter, kept, upheld]

theorem setTokens_push (nodup : (keys waiting).Nodup) (c : Contents) (h : Nat) (t : String)
    (rest : List Turn) :
    c.setTokens (upheld (arrivals (enqueue h t waiting) ++ rest))
      = c.setTokens (upheld (arrivals waiting ++ push h t :: rest)) := by
  have later : ∀ k, callsOff k (push h t :: rest) = callsOff k rest := fun _ => rfl
  simp only [upheld_arrivals, later, filter_enqueue fun k => !callsOff k rest]
  cases off : callsOff h rest with
  | true => simp [upheld, off]
  | false =>
    have nodup : (keys (waiting.filter fun e => !callsOff e.1 rest)).Nodup :=
      nodup.sublist (List.filter_sublist.map _)
    simp only [upheld, off, Bool.not_false, if_true, Bool.false_eq_true, if_false]
    rw [Contents.setTokens_append, setTokens_enqueue nodup, Contents.setTokens_append]
    rfl

end Turn

open Turn (upheld)

/-- What a call makes of the tokens that wait and of those on the wires, taken together, is what its
turns say. -/
theorem Call.run_spec (nodup : (keys q.pending).Nodup) (p : Patch) (call : Call) :
    (keys (call.run (q, p)).1.pending).Nodup ∧ ∀ rest,
      (call.run (q, p)).2.toContents.setTokens (upheld (arrivals (call.run (q, p)).1.pending ++ rest))
        = p.toContents.setTokens (upheld (arrivals q.pending ++ (call.turns q ++ rest))) := by
  -- What a drain leaves, whichever call it is in.
  have drained (rest : List Turn) :
      (q.flush p).2.1.toContents.setTokens (upheld (arrivals (q.flush p).1.pending ++ rest))
        = p.toContents.setTokens (upheld (arrivals q.pending ++ .drain :: rest)) := by
    rw [pending_flush, toContents_flush, Turn.upheld_drain, Contents.setTokens_append]
    rfl
  have empty : (keys (q.flush p).1.pending).Nodup := by
    rw [pending_flush]
    exact List.nodup_nil
  cases call with
  | push h t now =>
    simp only [run, WriteQueue.push, turns]
    split
    · refine ⟨nodup_enqueue empty, fun rest => ?_⟩
      rw [Turn.setTokens_push empty]
      exact drained (.push h t :: rest)
    · exact ⟨nodup_enqueue nodup, fun rest => Turn.setTokens_push nodup _ h t rest⟩
  | cancel h =>
    refine ⟨nodup.sublist (List.filter_sublist.map _), fun rest => ?_⟩
    exact congrArg p.toContents.setTokens (Turn.upheld_cancel q.pending h rest).symm
  | tick now =>
    simp only [run, WriteQueue.tick, turns]
    split
    · exact ⟨empty, drained⟩
    · exact ⟨nodup, fun _ => rfl⟩
  | flush => exact ⟨empty, drained⟩

theorem runAll_spec (nodup : (keys q.pending).Nodup) (p : Patch) (calls : List Call) :
    (keys (runAll (q, p) calls).1.pending).Nodup ∧
      (runAll (q, p) calls).2.toContents.setTokens (runAll (q, p) calls).1.pending
        = p.toContents.setTokens (upheld (arrivals q.pending ++ turns (q, p) calls)) := by
  induction calls generalizing q p with
  | nil =>
    refine ⟨nodup, ?_⟩
    have all : upheld (arrivals q.pending ++ []) = q.pending := by
      rw [Turn.upheld_arrivals]
      simp [Turn.callsOff, upheld]
    rw [turns, all]
    rfl
  | cons call calls ih =>
    obtain ⟨nodup', same⟩ := Call.run_spec nodup p call
    obtain ⟨nodup'', all⟩ := ih nodup' (call.run (q, p)).2
    exact ⟨nodup'', all.trans (same _)⟩

/-- Once all is written, a patch holds what writing each token at once would have made of it: the
tokens that are not called off before they are drained, in the order in which they were pushed, but
for those of wires that are not listed. And at any time before, the tokens of the listed wires are
these, if what waits for a wire is taken for its token. -/
theorem flush_runAll (nodup : (keys q.pending).Nodup) (p : Patch) (calls : List Call) :
    let s := runAll (q, p) calls
    ∃ r, p.writeAll (p.listed (upheld (arrivals q.pending ++ turns (q, p) calls))) = (r, .ok ()) ∧
      (s.1.flush s.2).2.1.toContents = r.toContents ∧
      ∀ h, (p.wire? h).isSome = true → ∃ w, s.2.wire? h = some w ∧
        (r.wire? h).map Wire.token = some ((s.1.token? h).getD w.token) := by
  intro s
  obtain ⟨nodup', spec⟩ := runAll_spec nodup p calls
  obtain ⟨r, written, contents⟩ :=
    p.writeAll_listed (upheld (arrivals q.pending ++ turns (q, p) calls))
  have overlaid : r.toContents = s.2.toContents.setTokens s.1.pending := contents.trans spec.symm
  refine ⟨r, written, (toContents_flush _ _).trans overlaid.symm, fun h listed => ?_⟩
  have here : (s.2.wire? h).isSome = true := by
    rw [← Contents.isSome_wire?_setTokens _ s.1.pending, ← overlaid, contents,
      Contents.isSome_wire?_setTokens, listed]
  obtain ⟨w, found⟩ := Option.isSome_iff_exists.1 here
  exact ⟨w, found, overlaid ▸ Contents.token_setTokens nodup' _ found⟩

def narrow : WriteQueue × Patch :=
  ({ delay := 100, capacity := 1 },
    { wires := [⟨1, ⟨5, 0, 6, 0⟩, ""⟩, ⟨2, ⟨5, 1, 6, 1⟩, ""⟩] })

/-- One wire is crowded out by the other, and the other by one that does not exist. -/
def crowding : List Call :=
  [.push 1 "a" 0, .push 1 "b" 10, .push 2 "c" 20, .cancel 1, .push 9 "x" 30, .push 1 "d" 40, .cancel 1]

theorem flush_runAll_crowding :
    (keys narrow.1.pending).Nodup ∧
    upheld (arrivals narrow.1.pending ++ turns narrow crowding)
      = [(1, "a"), (1, "b"), (2, "c"), (9, "x")] ∧
    ∃ r, narrow.2.writeAll [(1, "a"), (1, "b"), (2, "c")] = (r, .ok ()) ∧
      ((runAll narrow crowding).1.flush (runAll narrow crowding).2).2.1.toContents = r.toContents ∧
      ∃ w, (runAll narrow crowding).2.wire? 1 = some w ∧
        (r.wire? 1).map Wire.token = some (((runAll narrow crowding).1.token? 1).getD w.token) := by
  have nodup : (keys narrow.1.pending).Nodup := by decide
  have kept : upheld (arrivals narrow.1.pending ++ turns narrow crowding)
      = [(1, "a"), (1, "b"), (2, "c"), (9, "x")] := by decide
  obtain ⟨r, written, contents, overlaid⟩ := flush_runAll nodup narrow.2 crowding
  refine ⟨nodup, kept, r, ?_, contents, overlaid 1 (by decide)⟩
  have listed : narrow.2.listed [(1, "a"), (1, "b"), (2, "c"), (9, "x")]
      = [(1, "a"), (1, "b"), (2, "c")] := by decide
  rw [← listed, ← kept]
  exact written

end WriteQueue

end Patchbay
