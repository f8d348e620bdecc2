import Mathlib.Data.List.Induction
import Patchbay.Proofs.Gesture
import Patchbay.Proofs.Queue

/-!
# Queues that are punctual

A queue is asked to take tokens, to call them off, to write what is due or all there is, on documents
of any kind and at times in any order, and its settings change. What one request can do to the wires
that wait and to the deadline is said once. From it follows, for every run, that what waits has a
deadline, that this is the time of the push that set it and the delay of that time, and that wires are
written in the order in which they came.
-/

namespace Patchbay

open Keyed (keys)

def Change.wire? : Change → Option Nat
  | setToken h _ _ => some h
  | _ => none

/-- The changes that tokens make on their wires: those of the wires that are listed and have another
token. -/
def Patch.rewrites (p : Patch) (es : List (Nat × String)) : List Change :=
  es.filterMap fun e => (p.wire? e.1).bind fun w =>
    if w.token = e.2 then none else some (.setToken e.1 w.token e.2)

namespace WriteQueue

/-- What a queue can be asked to do, on a document of any kind. -/
inductive Request : Type 1 where
  | push {δ : Type} [Document δ] (d : δ) (handle : Nat) (token : String) (now : Nat)
  | cancel (handle : Nat)
  | tick {δ : Type} [Document δ] (d : δ) (now : Nat)
  | flush {δ : Type} [Document δ] (d : δ)
  | settings (settings : RoutingSettings)

namespace Request

def run (q : WriteQueue) : Request → WriteQueue
  | push d h t now => (q.push d h t now).1
  | cancel h => (q.cancel h).1
  | tick d now => (q.tick d now).1
  | flush d => (q.flush d).1
  | settings s => q.setSettings s

def pushed? : Request → Option (Nat × Nat)
  | push _ h _ now => some (h, now)
  | _ => none

def setting (s : RoutingSettings) : Request → RoutingSettings
  | settings s => s
  | _ => s

end Request

def serve (q : WriteQueue) (rs : List Request) : WriteQueue := rs.foldl Request.run q

def inForce (s : RoutingSettings) (rs : List Request) : RoutingSettings := rs.foldl Request.setting s

/-- Some wire waits before and after. -/
def Sustains (q q' : WriteQueue) : Prop := ∃ h ∈ keys q.pending, h ∈ keys q'.pending

def SustainsAll : WriteQueue → List Request → Prop
  | _, [] => True
  | q, r :: rs => q.Sustains (r.run q) ∧ SustainsAll (r.run q) rs

/-- A wire was pushed by the `i`-th request of a run when it did not wait, and has waited since. -/
structure CameIn (q : WriteQueue) (rs : List Request) (h i : Nat) : Prop where
  pushed : ∃ r now, rs[i]? = some r ∧ r.pushed? = some (h, now)
  fresh : h ∉ keys (q.serve (rs.take i)).pending
  since : ∀ j, i < j → j ≤ rs.length → h ∈ keys (q.serve (rs.take j)).pending

/-- One wire came in before another. -/
def CameBefore (q : WriteQueue) (rs : List Request) (g h : Nat) : Prop :=
  ∃ i j, q.CameIn rs g i ∧ q.CameIn rs h j ∧ i < j

variable {δ : Type} [Document δ] {q q' : WriteQueue} {r : Request} {rs later : List Request}
  {s : RoutingSettings} {g h i now : Nat} {t : String} {waiting : Keyed String}

@[simp] theorem serve_append (q : WriteQueue) (rs later : List Request) :
    q.serve (rs ++ later) = (q.serve rs).serve later :=
  List.foldl_append

@[simp] theorem serve_singleton (q : WriteQueue) (r : Request) : q.serve [r] = r.run q := rfl

theorem sustainsAll_append :
    q.SustainsAll (rs ++ later) ↔ q.SustainsAll rs ∧ (q.serve rs).SustainsAll later := by
  induction rs generalizing q with
  | nil => exact (and_iff_right trivial).symm
  | cons r rs ih =>
    rw [List.cons_append, SustainsAll, ih, SustainsAll, and_assoc]
    rfl

/-- What a request can do to the wires that wait and to the deadline. -/
inductive Fate (q : WriteQueue) (r : Request) (q' : WriteQueue) : Prop
  /-- Nothing waits any more. -/
  | drained (empty : q'.pending = [])
  /-- Some wires wait on. -/
  | stays (left : (keys q'.pending).Sublist (keys q.pending)) (waits : q'.pending ≠ [])
      (same : q'.deadline = q.deadline)
  /-- One more wire waits. -/
  | joins (h now : Nat) (pushed : r.pushed? = some (h, now)) (fresh : h ∉ keys q.pending)
      (room : q.size < q.capacity) (waits : q.pending ≠ [])
      (joined : keys q'.pending = keys q.pending ++ [h]) (same : q'.deadline = q.deadline)
  /-- A wire waits alone, from now on. -/
  | arms (h now : Nat) (pushed : r.pushed? = some (h, now)) (fresh : h ∉ keys q.pending)
      (alone : keys q'.pending = [h]) (armed : q'.deadline = some (now + q.delay))

theorem Fate.of_same (waits : q'.pending = q.pending) (due : q'.deadline = q.deadline) :
    Fate q r q' := by
  by_cases empty : q'.pending = []
  · exact .drained empty
  · exact .stays (waits ▸ List.Sublist.refl _) empty due

theorem fate_push (timed : q.Timed) (d : δ) (h : Nat) (t : String) (now : Nat) :
    Fate q (.push d h t now) (q.push d h t now).1 := by
  simp only [WriteQueue.push]
  split
  · -- All that waited is written, and the wire comes into an empty queue.
    next full =>
    rw [Bool.and_eq_true, Bool.not_eq_true', ← Bool.not_eq_true, Keyed.has_iff] at full
    rw [flush_fst]
    exact .arms h now rfl full.1 rfl rfl
  · next roomy =>
    by_cases empty : q.pending = []
    · refine .arms h now rfl ?_ ?_ ?_
      · rw [empty]
        exact List.not_mem_nil
      · rw [empty]
        rfl
      · rw [timed.2 empty, Option.getD_none]
    · obtain ⟨due, set⟩ := Option.ne_none_iff_exists'.1 fun none => empty (timed.1 none)
      have same : some (q.deadline.getD (now + q.delay)) = q.deadline := by rw [set, Option.getD_some]
      by_cases here : h ∈ keys q.pending
      · refine .stays ?_ (enqueue_ne_nil _) same
        rw [keys_enqueue, if_pos here]
      · refine .joins h now rfl here ?_ empty ?_ same
        · rw [Bool.and_eq_true, Bool.not_eq_true', ← Bool.not_eq_true, Keyed.has_iff, not_and] at roomy
          simpa using roomy here
        · rw [keys_enqueue, if_neg here]

theorem Request.fate (timed : q.Timed) (r : Request) : Fate q r (r.run q) := by
  cases r with
  | push d h t now => exact fate_push timed d h t now
  | cancel h =>
    by_cases empty : Keyed.remove q.pending h = []
    · exact .drained empty
    · refine .stays (List.filter_sublist.map _) empty ?_
      simp only [run, WriteQueue.cancel, List.isEmpty_iff, empty, if_false]
  | tick d now =>
    simp only [run, WriteQueue.tick]
    split
    · exact .drained (pending_flush q d)
    · exact .of_same rfl rfl
  | flush d => exact .drained (pending_flush q d)
  | settings s => exact .of_same rfl rfl

theorem Request.timed (timed : q.Timed) (r : Request) : (r.run q).Timed := by
  cases r with
  | push d h t now => exact timed_push q d h t now
  | cancel h => exact timed.cancel h
  | tick d now =>
    simp only [run, WriteQueue.tick]
    split
    · exact timed_flush q d
    · exact timed
  | flush d => exact timed_flush q d
  | settings s => exact timed

structure Heeds (q : WriteQueue) (s : RoutingSettings) : Prop where
  delay : q.delay = s.updateDelay
  capacity : q.capacity = max s.queueCapacity 1

theorem heeds_flush (heeds : q.Heeds s) (d : δ) : (q.flush d).1.Heeds s := by
  rw [flush_fst]
  exact ⟨heeds.delay, heeds.capacity⟩

theorem Request.heeds (heeds : q.Heeds s) (r : Request) : (r.run q).Heeds (r.setting s) := by
  cases r with
  | push d h t now =>
    simp only [run, WriteQueue.push]
    split
    · exact ⟨(heeds_flush heeds d).delay, (heeds_flush heeds d).capacity⟩
    · exact ⟨heeds.delay, heeds.capacity⟩
  | cancel h => exact ⟨heeds.delay, heeds.capacity⟩
  | tick d now =>
    simp only [run, WriteQueue.tick]
    split
    · exact heeds_flush heeds d
    · exact heeds
  | flush d => exact heeds_flush heeds d
  | settings s => exact ⟨rfl, rfl⟩

namespace Fate

variable (fate : Fate q r q')
include fate

theorem nodup (nodup : (keys q.pending).Nodup) : (keys q'.pending).Nodup := by
  cases fate with
  | drained empty =>
    rw [empty]
    exact List.nodup_nil
  | stays left => exact nodup.sublist left
  | joins h now pushed fresh room waits joined =>
    rw [joined]
    exact List.nodup_middle.2 (by simpa using ⟨fresh, nodup⟩)
  | arms h now pushed fresh alone =>
    rw [alone]
    exact List.nodup_singleton h

theorem deadline_of_sustains (sustains : q.Sustains q') : q'.deadline = q.deadline := by
  obtain ⟨k, before, after⟩ := sustains
  cases fate with
  | drained empty => simp [empty, keys] at after
  | stays left waits same => exact same
  | joins h now pushed fresh room waits joined same => exact same
  | arms h now pushed fresh alone =>
    rw [alone, List.mem_singleton] at after
    exact absurd (after ▸ before) fresh

/-- If something waits afterwards, it has waited before, or a wire waits alone from now on. -/
theorem sustains_or_arms (waiting : q'.pending ≠ []) : q.Sustains q' ∨
    ∃ h now, r.pushed? = some (h, now) ∧ h ∉ keys q.pending ∧ keys q'.pending = [h] ∧
      q'.deadline = some (now + q.delay) := by
  cases fate with
  | drained empty => exact absurd empty waiting
  | stays left waits same =>
    obtain ⟨e, there⟩ := List.exists_mem_of_ne_nil _ waits
    exact Or.inl ⟨e.1, left.subset (List.mem_map_of_mem there), List.mem_map_of_mem there⟩
  | joins h now pushed fresh room waits joined same =>
    obtain ⟨e, there⟩ := List.exists_mem_of_ne_nil _ waits
    refine Or.inl ⟨e.1, List.mem_map_of_mem there, ?_⟩
    rw [joined]
    exact List.mem_append_left _ (List.mem_map_of_mem there)
  | arms h now pushed fresh alone armed => exact Or.inr ⟨h, now, pushed, fresh, alone, armed⟩

theorem size_le (positive : 0 < q.capacity) (within : q.size ≤ q.capacity) :
    q'.size ≤ q.capacity := by
  have size (q : WriteQueue) : q.size = (keys q.pending).length := (List.length_map _).symm
  cases fate with
  | drained empty =>
    rw [WriteQueue.size, empty]
    exact Nat.zero_le _
  | stays left =>
    rw [size] at within ⊢
    exact Nat.le_trans left.length_le within
  | joins h now pushed fresh room waits joined =>
    rw [size q', joined, List.length_append, ← size]
    exact room
  | arms h now pushed fresh alone =>
    rw [size q', alone]
    exact positive

end Fate

theorem lt_deadline_tick (timed : q.Timed) {δ : Type} [Document δ] (d : δ) (now : Nat)
    (waits : (q.tick d now).1.pending ≠ []) :
    ∃ due, (q.tick d now).1.deadline = some due ∧ now < due := by
  unfold tick at waits ⊢
  split at waits
  · exact absurd (pending_flush q d) waits
  · next early =>
    obtain ⟨due, set⟩ := Option.ne_none_iff_exists'.1 fun none => waits (timed.1 none)
    rw [if_neg early]
    rw [set] at early
    exact ⟨due, set, by simpa using early⟩

/-! ## Runs -/

theorem timed_serve (timed : q.Timed) (rs : List Request) : (q.serve rs).Timed :=
  List.foldlRecOn rs _ timed fun _ timed r _ => r.timed timed

theorem nodup_serve (timed : q.Timed) (nodup : (keys q.pending).Nodup) (rs : List Request) :
    (keys (q.serve rs).pending).Nodup := by
  induction rs using List.reverseRecOn with
  | nil => exact nodup
  | append_singleton rs r ih =>
    rw [serve_append]
    exact (r.fate (timed_serve timed rs)).nodup ih

theorem heeds_serve (heeds : q.Heeds s) (rs : List Request) : (q.serve rs).Heeds (inForce s rs) := by
  induction rs generalizing q s with
  | nil => exact heeds
  | cons r rs ih => exact ih (r.heeds heeds)

theorem deadline_serve_of_sustainsAll (timed : q.Timed) (sustains : q.SustainsAll rs) :
    (q.serve rs).deadline = q.deadline := by
  induction rs generalizing q with
  | nil => rfl
  | cons r rs ih =>
    obtain ⟨first, rest⟩ := sustains
    exact (ih (r.timed timed) rest).trans ((r.fate timed).deadline_of_sustains first)

theorem size_serve_le (timed : q.Timed) (heeds : q.Heeds s) (within : q.size ≤ q.capacity)
    (steady : ∀ s', Request.settings s' ∉ rs) : (q.serve rs).size ≤ max s.queueCapacity 1 := by
  induction rs generalizing q with
  | nil => exact heeds.capacity ▸ within
  | cons r rs ih =>
    have still : r.setting s = s := by
      cases r with
      | settings s' => exact absurd List.mem_cons_self (steady s')
      | _ => rfl
    have heeds' : (r.run q).Heeds s := still ▸ r.heeds heeds
    have positive : 0 < q.capacity := heeds.capacity ▸ Nat.le_max_right _ _
    have within' := (r.fate timed).size_le positive within
    rw [heeds.capacity, ← heeds'.capacity] at within'
    exact ih (r.timed timed) heeds' within' fun s' there => steady s' (List.mem_cons_of_mem _ there)

/-- In a run a push sets the deadline when nothing waits that did, and from then on something does. -/
structure Arms (q : WriteQueue) (s : RoutingSettings) (before : List Request) (r : Request)
    (later : List Request) (due : Nat) : Prop where
  pushed : ∃ h now, r.pushed? = some (h, now) ∧ h ∉ keys (q.serve before).pending ∧
    keys (q.serve (before ++ [r])).pending = [h] ∧ due = now + (inForce s before).updateDelay
  since : (q.serve (before ++ [r])).SustainsAll later

theorem exists_arms (timed : q.Timed) (heeds : q.Heeds s) (empty : q.pending = []) (rs : List Request)
    (waits : (q.serve rs).pending ≠ []) : ∃ before r later due, rs = before ++ r :: later ∧
      q.Arms s before r later due ∧ (q.serve rs).deadline = some due := by
  induction rs using List.reverseRecOn with
  | nil => exact absurd empty waits
  | append_singleton rs r ih =>
    have fate := r.fate (timed_serve timed rs)
    rw [serve_append, serve_singleton] at waits ⊢
    rcases fate.sustains_or_arms waits with sustains | ⟨h, now, pushed, fresh, alone, armed⟩
    · have waited : (q.serve rs).pending ≠ [] := by
        obtain ⟨k, waited, -⟩ := sustains
        exact List.ne_nil_of_mem (List.mem_map.1 waited).choose_spec.1
      obtain ⟨before, p, later, due, rfl, arms, set⟩ :=
        ih waited
      refine ⟨before, p, later ++ [r], due, by simp, ⟨arms.pushed, ?_⟩, ?_⟩
      · refine sustainsAll_append.2 ⟨arms.since, ?_, trivial⟩
        rw [← serve_append, List.append_assoc]
        exact sustains
      · rw [fate.deadline_of_sustains sustains, set]
    · refine ⟨rs, r, [], _, rfl, ⟨⟨h, now, pushed, fresh, ?_, rfl⟩, trivial⟩, ?_⟩
      · rw [serve_append, serve_singleton, alone]
      · rw [armed, (heeds_serve heeds rs).delay]

theorem CameIn.lt (came : q.CameIn rs h i) : i < rs.length := by
  obtain ⟨r, now, there, -⟩ := came.pushed
  exact (List.getElem?_eq_some_iff.1 there).1

theorem CameIn.next (came : q.CameIn rs h i) (waits : h ∈ keys (r.run (q.serve rs)).pending) :
    q.CameIn (rs ++ [r]) h i := by
  obtain ⟨p, now, there, pushed⟩ := came.pushed
  refine ⟨⟨p, now, ?_, pushed⟩, ?_, fun j after within => ?_⟩
  · rw [List.getElem?_append_left came.lt, there]
  · rw [List.take_append_of_le_length (Nat.le_of_lt came.lt)]
    exact came.fresh
  · rcases Nat.lt_or_ge rs.length j with last | early
    · rw [List.take_of_length_le (by rw [List.length_append]; exact last), serve_append]
      exact waits
    · rw [List.take_append_of_le_length early]
      exact came.since j after early

theorem cameIn_length (pushed : r.pushed? = some (h, now)) (fresh : h ∉ keys (q.serve rs).pending)
    (waits : h ∈ keys (r.run (q.serve rs)).pending) : q.CameIn (rs ++ [r]) h rs.length := by
  refine ⟨⟨r, now, by simp, pushed⟩, ?_, fun j after within => ?_⟩
  · rw [List.take_left]
    exact fresh
  · rw [List.take_of_length_le (by rw [List.length_append]; exact after), serve_append]
    exact waits

/-- The wires that wait have come in, one after the other. -/
structure InOrder (q : WriteQueue) (rs : List Request) : Prop where
  came : ∀ h ∈ keys (q.serve rs).pending, ∃ i, q.CameIn rs h i
  order : (keys (q.serve rs).pending).Pairwise (q.CameBefore rs)

theorem InOrder.next (inOrder : q.InOrder rs) (fate : Fate (q.serve rs) r (r.run (q.serve rs))) :
    q.InOrder (rs ++ [r]) := by
  have step : q.serve (rs ++ [r]) = r.run (q.serve rs) := serve_append q rs [r]
  have before {g h : Nat} (hg : g ∈ keys (r.run (q.serve rs)).pending)
      (hh : h ∈ keys (r.run (q.serve rs)).pending) :
      q.CameBefore rs g h → q.CameBefore (rs ++ [r]) g h
    | ⟨i, j, first, second, lt⟩ => ⟨i, j, first.next hg, second.next hh, lt⟩
  constructor
  · intro g there
    rw [step] at there
    cases fate with
    | drained empty => simp [empty, keys] at there
    | stays left =>
      obtain ⟨i, came⟩ := inOrder.came g (left.subset there)
      exact ⟨i, came.next there⟩
    | joins h now pushed fresh room waits joined =>
      rcases List.mem_append.1 (joined ▸ there) with old | new
      · obtain ⟨i, came⟩ := inOrder.came g old
        exact ⟨i, came.next there⟩
      · obtain rfl := List.mem_singleton.1 new
        exact ⟨_, cameIn_length pushed fresh there⟩
    | arms h now pushed fresh alone =>
      obtain rfl := List.mem_singleton.1 (alone ▸ there)
      exact ⟨_, cameIn_length pushed fresh there⟩
  · rw [step]
    cases fate with
    | drained empty =>
      rw [empty]
      exact .nil
    | stays left => exact (inOrder.order.sublist left).imp_of_mem before
    | joins h now pushed fresh room waits joined =>
      have old {g : Nat} (there : g ∈ keys (q.serve rs).pending) :
          g ∈ keys (r.run (q.serve rs)).pending := joined ▸ List.mem_append_left _ there
      have new : h ∈ keys (r.run (q.serve rs)).pending :=
        joined ▸ List.mem_append_right _ (List.mem_singleton_self h)
      rw [joined]
      refine List.pairwise_append.2 ⟨?_, List.pairwise_singleton _ _, fun g there k last => ?_⟩
      · exact inOrder.order.imp_of_mem fun hg hh => before (old hg) (old hh)
      · obtain rfl := List.mem_singleton.1 last
        obtain ⟨i, came⟩ := inOrder.came g there
        exact ⟨i, rs.length, came.next (old there), cameIn_length pushed fresh new, came.lt⟩
    | arms h now pushed fresh alone =>
      rw [alone]
      exact List.pairwise_singleton _ _

theorem inOrder_serve (timed : q.Timed) (empty : q.pending = []) (rs : List Request) : q.InOrder rs := by
  induction rs using List.reverseRecOn with
  | nil =>
    have none : keys (q.serve []).pending = [] := congrArg keys empty
    exact ⟨fun h there => by simp [none] at there, none ▸ .nil⟩
  | append_singleton rs r ih => exact ih.next (r.fate (timed_serve timed rs))

end WriteQueue

/-! ## History -/

theorem History.note_closed {h : History} {l : String} {cs : List Change} (closed : h.sequences = []) :
    h.note l cs = if cs = [] then h else h.push ⟨l, cs⟩ := by
  rw [note, closed]

namespace Patch

variable {p q : Patch} {es : List (Nat × String)} {n : Nat}

theorem rewrites_congr (same : ∀ e ∈ es, p.wire? e.1 = q.wire? e.1) : p.rewrites es = q.rewrites es :=
  List.filterMap_congr fun e there => by rw [same e there]

theorem exists_wires_rewrites (p : Patch) (es : List (Nat × String)) :
    ∃ hs : List Nat, hs.Sublist (keys es) ∧ (p.rewrites es).map Change.wire? = hs.map some := by
  induction es with
  | nil => exact ⟨[], List.Sublist.refl _, rfl⟩
  | cons e es ih =>
    obtain ⟨hs, sub, same⟩ := ih
    rw [rewrites, List.filterMap_cons]
    split
    · exact ⟨hs, sub.cons _, same⟩
    · next c made =>
      refine ⟨e.1 :: hs, sub.cons_cons _, ?_⟩
      obtain ⟨w, -, made⟩ := Option.bind_eq_some_iff.1 made
      obtain ⟨-, made⟩ := Option.ite_none_left_eq_some.1 made
      obtain rfl := Option.some.inj made
      exact congrArg _ same

theorem history_writeOne (p : Patch) (n : Nat) (e : Nat × String) :
    (WriteQueue.writeOne (p, n) e).1.history = p.history.note "" (p.rewrites [e]) := by
  rw [WriteQueue.writeOne_fst]
  cases found : p.wire? e.1 with
  | none => simp [setToken, found, rewrites, Except.toOption]
  | some w =>
    by_cases same : w.token = e.2
    · simp [setToken, found, same, rewrites, Except.toOption]
    · simp only [setToken, found, same, if_false, rewrites, List.filterMap_cons, List.filterMap_nil,
        Option.bind_some]
      rfl

theorem history_foldl_writeOne (state : Patch × Nat) (opened : state.1.history.sequences ≠ [])
    (nodup : (keys es).Nodup) : (es.foldl WriteQueue.writeOne state).1.history
      = state.1.history.note "" (state.1.rewrites es) := by
  induction es generalizing state with
  | nil => exact (History.note_nil _ _).symm
  | cons e es ih =>
    obtain ⟨p, n⟩ := state
    obtain ⟨(fresh : e.1 ∉ keys es), rest⟩ := List.nodup_cons.1 nodup
    have first := history_writeOne p n e
    have others : (WriteQueue.writeOne (p, n) e).1.rewrites es = p.rewrites es := by
      refine rewrites_congr fun f there => ?_
      have ne : f.1 ≠ e.1 := fun same => fresh (same ▸ Keyed.mem_keys_of_mem there)
      change (WriteQueue.writeOne (p, n) e).1.toContents.wire? f.1 = _
      rw [WriteQueue.toContents_writeOne, Contents.wire?_setToken_of_ne ne]
    have both : p.rewrites (e :: es) = p.rewrites [e] ++ p.rewrites es :=
      List.filterMap_append (l := [e])
    rw [List.foldl_cons, ih _ (first ▸ History.sequences_note_ne_nil opened) rest, others, first, both]
    exact History.note_note opened "" "" ""

end Patch

namespace WriteQueue

theorem history_flush {q : WriteQueue} (nodup : (keys q.pending).Nodup) (p : Patch) :
    (q.flush p).2.1.history = p.history.note label (p.rewrites q.pending) := by
  unfold flush
  split
  · next quiet =>
    rw [List.isEmpty_iff.1 quiet]
    exact (History.note_nil _ _).symm
  · have opened : (p.openSequence label).history.sequences ≠ [] := List.cons_ne_nil _ _
    have fold := Patch.history_foldl_writeOne (p.openSequence label, 0) opened nodup
    refine (congrArg History.closeSequence fold).trans ?_
    exact History.closeSequence_note p.history label "" _

/-- Whatever a queue is asked to do, on whatever documents and at whatever times: it has a deadline just
when something waits; as long as something waits the deadline stands, and it is the time of the push
that set it and the delay that was in force; after a tick that leaves something the time has not come;
a queue whose settings stay does not grow over its capacity; and what waits is written, by a flush, a
tick or a push, as one step at most, in the order in which the wires came in. -/
theorem punctual (settings : RoutingSettings) (rs : List Request) :
    let q₀ := ofSettings settings
    let q := q₀.serve rs
    (q.deadline = none ↔ q.pending = []) ∧
    (∀ later, q.SustainsAll later → (q.serve later).deadline = q.deadline) ∧
    (q.pending ≠ [] → ∃ before r later due, rs = before ++ r :: later ∧
      q₀.Arms settings before r later due ∧ q.deadline = some due) ∧
    (∀ {δ : Type} [Document δ] (d : δ) now, (q.tick d now).1.pending ≠ [] →
      ∃ due, (q.tick d now).1.deadline = some due ∧ now < due) ∧
    ((∀ s, Request.settings s ∉ rs) → q.size ≤ max settings.queueCapacity 1) ∧
    ∀ p : Patch, p.history.sequences = [] →
      let cs := p.rewrites q.pending
      let after := if cs = [] then p.history else p.history.push ⟨label, cs⟩
      (∃ hs : List Nat, cs.map Change.wire? = hs.map some ∧ hs.Pairwise (q₀.CameBefore rs)) ∧
        (q.flush p).2.1.history = after ∧
        (∀ now, (q.tick p now).2.1.history = p.history ∨ (q.tick p now).2.1.history = after) ∧
        ∀ h t now, (q.push p h t now).2.history = p.history ∨ (q.push p h t now).2.history = after := by
  intro q₀ q
  have timed₀ : q₀.Timed := iff_of_true rfl rfl
  have heeds₀ : q₀.Heeds settings := ⟨rfl, rfl⟩
  have timed : q.Timed := timed_serve timed₀ rs
  refine ⟨timed, fun later => deadline_serve_of_sustainsAll timed,
    exists_arms timed₀ heeds₀ rfl rs, lt_deadline_tick timed,
    size_serve_le timed₀ heeds₀ (Nat.zero_le _), ?_⟩
  intro p closed cs after
  obtain ⟨hs, sub, wires⟩ := p.exists_wires_rewrites q.pending
  have flushed : (q.flush p).2.1.history = after :=
    (history_flush (nodup_serve timed₀ List.nodup_nil rs) p).trans (History.note_closed closed)
  refine ⟨⟨hs, wires, (inOrder_serve timed₀ rfl rs).order.sublist sub⟩, flushed, fun now => ?_,
    fun h t now => ?_⟩
  · unfold tick
    split
    · exact Or.inr flushed
    · exact Or.inl rfl
  · simp only [WriteQueue.push]
    split
    · exact Or.inr flushed
    · exact Or.inl rfl

def threeWires : Patch where
  wires := [⟨1, ⟨5, 0, 6, 0⟩, ""⟩, ⟨2, ⟨5, 1, 6, 1⟩, ""⟩, ⟨3, ⟨5, 2, 6, 2⟩, "d"⟩]

/-- A queue for two wires: the first is called off and comes again, the third crowds out both. -/
def errands : List Request :=
  [.push threeWires 1 "a" 30, .push threeWires 2 "b" 10, .cancel 1, .push threeWires 1 "c" 90,
    .push threeWires 3 "d" 70, .push threeWires 1 "e" 0]

theorem punctual_errands :
    let settings : RoutingSettings := { updateDelay := 50, queueCapacity := 2 };
    let q := (ofSettings settings).serve errands;
    q.SustainsAll [.cancel 3] ∧ (q.serve [.cancel 3]).deadline = some 120 ∧
    q.pending = [(3, "d"), (1, "e")] ∧
    (∃ before r later due, errands = before ++ r :: later ∧
      (ofSettings settings).Arms settings before r later due ∧ q.deadline = some due) ∧
    (q.tick threeWires 100).1.pending ≠ [] ∧
    (∃ due, (q.tick threeWires 100).1.deadline = some due ∧ 100 < due) ∧
    (∀ s, Request.settings s ∉ errands) ∧ q.size ≤ 2 ∧
    threeWires.history.sequences = [] ∧
    (q.flush threeWires).2.1.history.done = [⟨"Update path", [.setToken 1 "" "e"]⟩] := by
  intro settings q
  obtain ⟨-, stands, arms, due, small, writes⟩ := punctual settings errands
  have sustains : q.SustainsAll [.cancel 3] := ⟨⟨1, by decide, by decide⟩, trivial⟩
  have deadline : q.deadline = some 120 := by decide
  have waits : q.pending = [(3, "d"), (1, "e")] := by decide
  have early : (q.tick threeWires 100).1.pending ≠ [] := by decide
  have steady : ∀ s, Request.settings s ∉ errands := by simp [errands]
  obtain ⟨-, flushed, -⟩ := writes threeWires rfl
  have stood : (q.serve [.cancel 3]).deadline = some 120 := (stands _ sustains).trans deadline
  have armed := arms (by rw [waits]; exact List.cons_ne_nil _ _)
  rw [show (ofSettings settings).serve errands = q from rfl] at due
  have later := due threeWires 100 early
  have within : q.size ≤ 2 := small steady
  have written : (q.flush threeWires).2.1.history.done = [⟨"Update path", [.setToken 1 "" "e"]⟩] := by
    rw [flushed]
    decide
  exact ⟨sustains, stood, waits, armed, early, later, steady, within, rfl, written⟩

end WriteQueue

end Patchbay
