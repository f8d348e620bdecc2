import Patchbay.Proofs.Apart
import Patchbay.Proofs.Replay
import Patchbay.Proofs.Undo

/-!
# What redo makes again

Redo takes the changes of a step from the last to the first, as undo does. So it brings back what
was undone exactly when that order comes to the same as the order in which they were made. It does
where no two changes of a step get in each other's way, and then only if no two wires share a
handle, because a wire is removed again by its handle.
-/

namespace Patchbay

open Keyed (keys)

namespace Change

variable {strict : Prop} {ch : Change} {a b u : Contents}

theorem Made.nodup_handles (made : ch.Made strict a b)
    (nodup : (a.wires.map (·.handle)).Nodup) : (b.wires.map (·.handle)).Nodup := by
  cases made with
  | addNode n fresh => exact nodup
  | removeNode there => exact nodup
  | setBounds new there => exact nodup
  | addWire w fresh =>
    rw [List.map_append]
    exact nodup.append (List.nodup_singleton _) (by simpa using fresh)
  | removeWire i w token there kept =>
    rw [← List.eraseIdx_map]
    exact nodup.eraseIdx _
  | @setToken _ h w new there =>
    have alike : (a.setToken h new).Alike a := ⟨rfl, Contents.map_bare_writeToken h new a.wires⟩
    exact alike.handles ▸ nodup

/-- Where nothing stands under a handle twice, redo makes a change as it was made. -/
theorem Made.again_eq_make (made : ch.Made strict a b) (alike : u.Alike a)
    (nodup : (keys a.nodes).Nodup) (handles : (a.wires.map (·.handle)).Nodup) :
    ch.again u = ch.make u := by
  have hlen := alike.length_wires
  have hhandles := alike.handles
  obtain ⟨nodes, wires⟩ := u
  obtain ⟨rfl, hw⟩ := alike
  cases made with
  | addNode n fresh =>
    simp only [again, inverse, Change.revert, Contents.insertNode, make,
      Keyed.remove_of_not_mem fresh, Nat.min_self]
  | removeNode there =>
    exact congrArg (Contents.mk · wires) (Keyed.filter_key_eq_eraseIdx nodup there)
  | setBounds new there => rfl
  | addWire w fresh =>
    simp only [again, inverse, Change.revert, Contents.insertWire, make]
    rw [hlen, Nat.min_self]
  | removeWire i w token there kept =>
    have hbare : (wires.map Wire.bare)[i]? = some w.bare := by
      rw [hw, List.getElem?_map, there, Option.map_some]
    obtain ⟨v, hv, hvw⟩ := Option.map_eq_some_iff.1 (List.getElem?_map.symm.trans hbare)
    have hvw : v.handle = w.handle := congrArg Prod.fst hvw
    have hgone : wires.filter (·.handle != v.handle) = wires.eraseIdx i :=
      Keyed.filter_key_eq_eraseIdx (hhandles ▸ handles) hv
    rw [hvw] at hgone
    exact congrArg (Contents.mk a.nodes) hgone
  | setToken new there => rfl

end Change

namespace Trail

variable {strict : Prop} {cs : List Change} {a b u : Contents}

theorem nodup_handles (trail : Trail strict cs a b) (nodup : (a.wires.map (·.handle)).Nodup) :
    (b.wires.map (·.handle)).Nodup := by
  induction trail with
  | nil => exact nodup
  | cons made _ ih => exact ih (made.nodup_handles nodup)

theorem make_alike (trail : Trail strict cs a b) (alike : u.Alike a) :
    (cs.foldl (fun x ch => ch.make x) u).Alike b := by
  induction trail generalizing u with
  | nil => exact alike
  | cons made _ ih => exact ih (made.make_alike alike)

theorem again_eq_make (trail : Trail strict cs a b) (alike : u.Alike a)
    (nodup : (keys a.nodes).Nodup) (handles : (a.wires.map (·.handle)).Nodup) :
    cs.foldl (fun x ch => ch.again x) u = cs.foldl (fun x ch => ch.make x) u := by
  induction trail generalizing u with
  | nil => rfl
  | cons made _ ih =>
    rw [List.foldl_cons, List.foldl_cons, made.again_eq_make alike nodup handles]
    exact ih (made.make_alike alike) (made.nodup_keys nodup) (made.nodup_handles handles)

end Trail

namespace Step

def make (s : Step) (c : Contents) : Contents := s.changes.foldl (fun c ch => ch.make c) c

def again (s : Step) (c : Contents) : Contents := s.changes.foldr Change.again c

theorem revert_inverse (s : Step) (c : Contents) : s.inverse.revert c = s.again c :=
  List.foldr_map

/-- Whether no two changes of a step get in each other's way. -/
def Apart (s : Step) : Prop := s.changes.Pairwise fun c d => c.apart d = true

instance (s : Step) : Decidable s.Apart := inferInstanceAs (Decidable (List.Pairwise _ _))

variable {strict : Prop} {steps : List Step} {a b u : Contents}

theorem foldl_make (steps : List Step) (c : Contents) :
    steps.foldl (fun c s => s.make c) c
      = (steps.flatMap (·.changes)).foldl (fun c ch => ch.make c) c := by
  induction steps generalizing c with
  | nil => rfl
  | cons s steps ih => rw [List.foldl_cons, ih, List.flatMap_cons, List.foldl_append, make]

theorem foldl_revert (steps : List Step) (c : Contents) :
    steps.foldl (fun c s => s.revert c) c
      = (steps.reverse.flatMap (·.changes)).foldr Change.revert c := by
  induction steps generalizing c with
  | nil => rfl
  | cons s steps ih =>
    rw [List.foldl_cons, ih, List.reverse_cons, List.flatMap_append, List.foldr_append]
    simp [revert]

theorem foldl_again (trail : Trail strict (steps.flatMap (·.changes)) a b) (alike : u.Alike a)
    (nodup : (keys a.nodes).Nodup) (handles : (a.wires.map (·.handle)).Nodup)
    (apart : ∀ s ∈ steps, s.Apart) :
    steps.foldl (fun c s => s.again c) u = steps.foldl (fun c s => s.make c) u := by
  induction steps generalizing a u with
  | nil => rfl
  | cons s steps ih =>
    obtain ⟨hs, hsteps⟩ := List.forall_mem_cons.1 apart
    obtain ⟨c, first, rest⟩ := Trail.split (List.flatMap_cons ▸ trail)
    have hsame : s.again u = s.make u := by
      rw [again, Change.foldr_again hs, first.again_eq_make alike nodup handles, make]
    rw [List.foldl_cons, List.foldl_cons, hsame]
    exact ih rest (first.make_alike alike) (first.nodup_keys nodup) (first.nodup_handles handles)
      hsteps

end Step

theorem Ledger.trail_take {strict : Prop} {steps : List Step} {befores : List Contents}
    {c : Contents} (ledger : Ledger strict steps befores c) (nodup : (keys c.nodes).Nodup)
    (k : Nat) : ∃ a, (keys a.nodes).Nodup ∧
      Trail strict ((steps.take k).reverse.flatMap (·.changes)) a c := by
  induction ledger generalizing k with
  | nil => exact ⟨_, nodup, by simpa using Trail.nil⟩
  | @cons s steps b c befores trail hb _ ih =>
    cases k with
    | zero => exact ⟨c, nodup, .nil⟩
    | succ k =>
      obtain ⟨a, ha, earlier⟩ := ih hb k
      refine ⟨a, ha, ?_⟩
      rw [List.take_succ_cons, List.reverse_cons, List.flatMap_append, List.flatMap_singleton]
      exact earlier.append trail

namespace Patch

def redos : (k : Nat) → Patch → Option Patch
  | 0, p => some p
  | k + 1, p => p.redo?.bind (redos k)

theorem redos_eq {k : Nat} {p : Patch} (few : k ≤ p.history.undone.length) :
    ∃ r, p.redos k = some r ∧
      r.toContents = (p.history.undone.take k).foldl (fun c s => s.revert c) p.toContents := by
  induction k generalizing p with
  | zero => exact ⟨p, rfl, rfl⟩
  | succ k ih =>
    cases hd : p.history.undone with
    | nil => simp [hd] at few
    | cons s rest =>
      have hlen : k ≤ rest.length := by simpa [hd] using few
      obtain ⟨r, hr, hcontents⟩ := ih (p := { p with
        toContents := s.revert p.toContents
        history := { p.history with undone := rest, done := s.inverse :: p.history.done } }) hlen
      refine ⟨r, ?_, ?_⟩
      · simp only [redos, redo?, hd, Option.bind_some]
        exact hr
      · simpa using hcontents

theorem redos_undos {k : Nat} {p : Patch} (few : k ≤ p.history.done.length) :
    ∃ q r, p.undos k = some q ∧ q.redos k = some r ∧
      q.toContents = (p.history.done.take k).foldl (fun c s => s.revert c) p.toContents ∧
      r.toContents
        = (p.history.done.take k).reverse.foldl (fun c s => s.again c) q.toContents := by
  obtain ⟨q, hq, hcontents, hundone⟩ := undos_eq few
  have hlen : ((p.history.done.take k).reverse.map Step.inverse).length = k := by
    simp only [List.length_map, List.length_reverse, List.length_take]
    omega
  have htake : q.history.undone.take k = (p.history.done.take k).reverse.map Step.inverse := by
    rw [hundone, List.take_left' hlen]
  have few' : k ≤ q.history.undone.length := by
    rw [hundone, List.length_append]
    omega
  obtain ⟨r, hr, hback⟩ := redos_eq few'
  refine ⟨q, r, hq, hr, hcontents, ?_⟩
  rw [hback, htake, List.foldl_map]
  simp only [Step.revert_inverse]

end Patch

/-- Undoing `k` steps and redoing them gives back what was there exactly when making the changes of
each from the last to the first comes to the same as from the first to the last. -/
theorem Session.redos_undos_performAll (p : Patch) (sound : p.Sound) (blank : p.history = {})
    (gs : List Gesture) (s : Session) (run : Session.performAll ⟨p, []⟩ gs = s) (k : Nat)
    (few : k ≤ s.patch.history.done.length) :
    ∃ q r, s.patch.undos k = some q ∧ q.redos k = some r ∧
      (r.toContents = s.patch.toContents ↔
        (s.patch.history.done.take k).reverse.foldl (fun c t => t.again c) q.toContents
          = (s.patch.history.done.take k).reverse.foldl (fun c t => t.make c) q.toContents) ∧
      ((q.wires.map (·.handle)).Nodup → (∀ t ∈ s.patch.history.done.take k, t.Apart) →
        r.toContents = s.patch.toContents) := by
  have closed : p.history.sequences = [] := by rw [blank]
  obtain ⟨steps, kept⟩ := (Kept.start sound closed).performAll gs
    fun (never : False) => never.elim
  rw [run] at kept
  have hdone : s.patch.history.done = steps.take History.limit := by
    rw [kept.done, blank]
    split
    · next he => rw [he, List.take_nil]
    · rw [List.append_nil]
  have hfew : k ≤ min History.limit steps.length := by
    rw [← List.length_take, ← hdone]
    exact few
  have htake : s.patch.history.done.take k = steps.take k :=
    kept.take_done (by omega) (by omega)
  obtain ⟨a, nodup, trail⟩ := kept.ledger.trail_take kept.sound.nodup k
  obtain ⟨q, r, hq, hr, hundone, hredone⟩ := Patch.redos_undos few
  rw [htake] at hundone hredone ⊢
  rw [Step.foldl_revert] at hundone
  have hmade : (steps.take k).reverse.foldl (fun c t => t.make c) q.toContents
      = s.patch.toContents := by
    rw [Step.foldl_make, hundone, trail.foldl_make_revert nodup]
  refine ⟨q, r, hq, hr, ?_, fun handles apart => ?_⟩
  · rw [hredone, hmade]
  · have alike : q.toContents.Alike a := hundone ▸ (trail.revert nodup).1
    rw [hredone, ← hmade]
    apply Step.foldl_again trail alike nodup (alike.handles ▸ handles)
    intro t ht
    exact apart t (List.mem_reverse.1 ht)

theorem Session.redos_undos_cutThenCreate :
    Patch.joined.Sound ∧ Patch.joined.history = {} ∧
      2 ≤ (Session.performAll ⟨Patch.joined, []⟩ cutThenCreate).patch.history.done.length ∧
      ∃ q r, (Session.performAll ⟨Patch.joined, []⟩ cutThenCreate).patch.undos 2 = some q ∧
        q.redos 2 = some r ∧
        r.toContents
          = (Session.performAll ⟨Patch.joined, []⟩ cutThenCreate).patch.toContents := by
  have sound : Patch.joined.Sound := ⟨by decide, by decide, by decide⟩
  have few :
      2 ≤ (Session.performAll ⟨Patch.joined, []⟩ cutThenCreate).patch.history.done.length := by
    decide
  obtain ⟨q, r, hq, hr, -, restores⟩ :=
    redos_undos_performAll Patch.joined sound rfl cutThenCreate _ rfl 2 few
  have hhandles : ((Session.performAll ⟨Patch.joined, []⟩ cutThenCreate).patch.undos 2).map
      (fun q => q.wires.map (·.handle)) = some [3] := by decide
  rw [hq, Option.map_some, Option.some.injEq] at hhandles
  have handles : (q.wires.map (·.handle)).Nodup := by
    rw [hhandles]
    decide
  exact ⟨sound, rfl, few, q, r, hq, hr, restores handles (by decide)⟩

def Patch.lone : Patch where
  nodes := [(1, ⟨"osc~", ⟨0, 0, 40, 20⟩, [false], [true]⟩)]
  next := 2

/-- A sequence that moves a node right and then down. -/
def Session.twoMoves : List Gesture :=
  [.sequence "Move" (.andThen (.edit (.moveNode 1 ⟨10, 0⟩)) (.edit (.moveNode 1 ⟨0, 10⟩)))]

/-- Redo brings the node to where the first of the two moves took it. -/
theorem Session.redos_twoMoves :
    ¬∀ p : Patch, p.Sound → p.history = {} → ∀ (gs : List Gesture) (k : Nat) (q r : Patch),
      (Session.performAll ⟨p, []⟩ gs).patch.undos k = some q → q.redos k = some r →
        r.toContents = (Session.performAll ⟨p, []⟩ gs).patch.toContents := by
  intro restores
  have sound : Patch.lone.Sound := ⟨by decide, by decide, by decide⟩
  have hback : (((Session.performAll ⟨Patch.lone, []⟩ twoMoves).patch.undos 1).bind
      (Patch.redos 1)).map (·.toContents)
        = some ⟨[(1, ⟨"osc~", ⟨10, 0, 40, 20⟩, [false], [true]⟩)], []⟩ := by decide
  obtain ⟨r, hboth, hr⟩ := Option.map_eq_some_iff.1 hback
  obtain ⟨q, hq, hqr⟩ := Option.bind_eq_some_iff.1 hboth
  have h := restores Patch.lone sound rfl twoMoves 1 q r hq hqr
  rw [hr] at h
  exact absurd h (by decide)

end Patchbay
