import Patchbay.Proofs.Mail
import Patchbay.Proofs.Queue

/-!
# Edits that wait to be written

The token of a cable that was edited is kept with the cable and queued for its wire. Calls come in
any order, and what is done to the document behind them is not seen. Still the two agree as long as
the cable keeps its key and the token waits: no pass takes the edit back, and a flush writes it.
-/

namespace Patchbay

open Keyed (keys get?)

namespace Mail

variable {m n : Mail} {k key : Nat} {ks : List Nat}

/-- What is queued for the wire of a cable is its token, and the cable says that it waits. -/
def Awaits (m : Mail) (k : Nat) : Prop :=
  ∀ h token unsaved, m.slips.get? k = some (h, token, unsaved) →
    ∀ t, get? m.waiting h = some t → unsaved = true ∧ token = t

def Distinct (m : Mail) : Prop :=
  ∀ j k e f, m.slips.get? j = some e → m.slips.get? k = some f → e.1 = f.1 → j = k

/-- A cable gets a token, which is queued after those that wait, or alone once they are written. -/
def Queues (m n : Mail) (key : Nat) : Prop :=
  ∃ h slip token waiting, m.slips.get? key = some (h, slip) ∧ (waiting = m.waiting ∨ waiting = []) ∧
    n = ⟨m.slips.update key fun e => (e.1, token, true), WriteQueue.enqueue h token waiting⟩

/-- Some cables get tokens, one after the other. -/
inductive Posts : Mail → Mail → List Nat → Prop
  | nil (m : Mail) : Posts m m []
  | cons {m m' n : Mail} {key : Nat} {ks : List Nat} (first : m.Queues m' key)
      (rest : Posts m' n ks) : Posts m n (key :: ks)

theorem Queues.awaits_self (queues : m.Queues n key) : n.Awaits key := by
  obtain ⟨h, slip, token, waiting, found, -, rfl⟩ := queues
  intro h' token' unsaved found' t queued
  simp only [Arena.get?_update_self, found, Option.map_some, Option.some.injEq,
    Prod.mk.injEq] at found'
  obtain ⟨rfl, rfl, rfl⟩ := found'
  simpa [WriteQueue.get?_enqueue] using queued

theorem Queues.awaits (queues : m.Queues n key) (distinct : m.Distinct) (awaits : m.Awaits k) :
    n.Awaits k := by
  by_cases same : k = key
  · exact same ▸ queues.awaits_self
  · obtain ⟨h, slip, token, waiting, found, left, rfl⟩ := queues
    intro h' token' unsaved found' t queued
    simp only [Arena.get?_update_ne same] at found'
    have other : h' ≠ h := by
      rintro rfl
      exact same (distinct k key _ _ found' found rfl)
    simp only [WriteQueue.get?_enqueue, if_neg other] at queued
    rcases left with rfl | rfl
    · exact awaits h' token' unsaved found' t queued
    · exact absurd queued (by simp [get?])

theorem Queues.distinct (queues : m.Queues n key) (distinct : m.Distinct) : n.Distinct := by
  obtain ⟨h, slip, token, waiting, -, -, rfl⟩ := queues
  have old {j : Nat} {e : Nat × String × Bool}
      (there : (m.slips.update key fun e => (e.1, token, true)).get? j = some e) :
      ∃ e', m.slips.get? j = some e' ∧ e'.1 = e.1 := by
    have same := Arena.map_update (f := fun e => (e.1, token, true)) Prod.fst (fun _ => rfl) m.slips key
    exact Arena.of_map_eq same there
  intro j k e f at_j at_k same
  obtain ⟨e', found, handle⟩ := old at_j
  obtain ⟨f', found', handle'⟩ := old at_k
  exact distinct j k e' f' found found' (handle.trans (same.trans handle'.symm))

theorem Queues.nodup (queues : m.Queues n key) (nodup : (keys m.waiting).Nodup) :
    (keys n.waiting).Nodup := by
  obtain ⟨h, slip, token, waiting, -, left, rfl⟩ := queues
  rcases left with rfl | rfl
  · exact WriteQueue.nodup_enqueue nodup
  · exact WriteQueue.nodup_enqueue List.nodup_nil

theorem Posts.awaits (posts : Posts m n ks) (distinct : m.Distinct)
    (awaits : m.Awaits k ∨ k ∈ ks) : n.Awaits k := by
  induction posts with
  | nil => exact awaits.resolve_right List.not_mem_nil
  | cons first rest ih =>
    refine ih (first.distinct distinct) ?_
    rcases awaits with awaits | there
    · exact Or.inl (first.awaits distinct awaits)
    · rcases List.mem_cons.1 there with rfl | there
      · exact Or.inl first.awaits_self
      · exact Or.inr there

theorem Posts.isSome_get? (posts : Posts m n ks) (there : k ∈ ks) :
    (m.slips.get? k).isSome = true := by
  induction posts with
  | nil => exact absurd there List.not_mem_nil
  | cons first rest ih =>
    obtain ⟨h, slip, token, waiting, found, -, rfl⟩ := first
    rcases List.mem_cons.1 there with rfl | there
    · exact Option.isSome_of_eq_some found
    · have later := ih there
      simp only [Arena.get?_update] at later
      split at later
      · rwa [Option.isSome_map] at later
      · exact later

theorem Posts.nodup (posts : Posts m n ks) (nodup : (keys m.waiting).Nodup) :
    (keys n.waiting).Nodup := by
  induction posts with
  | nil => exact nodup
  | cons first rest ih => exact ih (first.nodup nodup)

end Mail

namespace Canvas

open Mail (Queues Posts)

variable {δ : Type} [Document δ] {c c' : Canvas} {d : δ} {k key now : Nat} {ks : List Nat}
  {x y : Cable} {t : String}

/-! ## What calls do to tokens -/

def obstructed (c : Canvas) (key : Nat) : Bool :=
  match c.scene.cable? key, c.scene.anchors? key with
  | some cable, some (start, stop) => c.isBlocked cable start stop
  | _, _ => false

def obstructedAt (c : Canvas) (moved : List Nat) : List Nat :=
  (keys (c.scene.cables.filter fun e => e.2.touchesAny moved)).filter c.obstructed

def Call.queues (c : Canvas) (d : δ) : Call → List Nat
  | pushToken key _ _ | straightenCable key _ => if (c.scene.cable? key).isSome then [key] else []
  | routeCable key _ => if (c.scene.anchors? key).isSome then [key] else []
  | endSegment _ =>
    match c.drag with
    | .segment drag =>
      if drag.moved && (c.scene.cable? drag.cable).isSome then [drag.cable] else []
    | _ => []
  | endMove now =>
    match (c.endMove d now).2.2 with
    | .ok offset =>
      if offset ≠ .origin && c.settings.routing.autoRouteOnOverlap then
        (c.showOffset offset).obstructedAt c.selection.boxes
      else []
    | .error _ => []
  | _ => []

/-- What a call does to the tokens of a canvas, and the cables for which it queues some. -/
inductive Delivers (c c' : Canvas) : List Nat → Prop
  | posts {ks : List Nat} (posts : Posts c.mail c'.mail ks) : Delivers c c' ks
  | written (none : c'.queue.pending = []) : Delivers c c' []
  | cancelled (keep : Nat → Bool) (slips : c'.scene.slips = c.scene.slips)
      (left : c'.queue.pending = c.queue.pending.filter fun e => keep e.1) : Delivers c c' []
  | passed (upholds : c.scene.Upholds c'.scene) (same : c'.queue.pending = c.queue.pending) :
      Delivers c c' []

theorem Delivers.of_mail (same : c'.mail = c.mail) : Delivers c c' [] :=
  .posts (same ▸ .nil c.mail)

theorem queues_pushToken (found : c.scene.cable? key = some x) (d : δ) (token : String) (now : Nat) :
    Queues c.mail (c.pushToken d key token now).1.mail key := by
  have slip : c.mail.slips.get? key = some (x.handle, x.token, x.unsaved) := by
    simp [mail, Scene.get?_slips, found, Scene.slip]
  have slips : (c.scene.updateCable key fun x => { x with token := token, unsaved := true }).slips
      = c.scene.slips.update key fun e => (e.1, token, true) :=
    Arena.map_update_comm Scene.slip (fun _ => rfl) c.scene.cableArena key
  have left : ∃ waiting, (waiting = c.queue.pending ∨ waiting = []) ∧
      (c.queue.push d x.handle token now).1.pending
        = WriteQueue.enqueue x.handle token waiting := by
    simp only [WriteQueue.push]
    split
    · exact ⟨[], Or.inr rfl, by rw [WriteQueue.pending_flush]⟩
    · exact ⟨_, Or.inl rfl, rfl⟩
  obtain ⟨waiting, left, queued⟩ := left
  refine ⟨x.handle, _, token, waiting, slip, left, ?_⟩
  simp only [pushToken, found, mail, slips, queued]

theorem posts_single {m n : Mail} (queues : m.Queues n key) : Posts m n [key] :=
  .cons queues (.nil n)

theorem queues_led (found : c.scene.cable? key = some x) (route : Route) (d : δ) (token : String)
    (now : Nat) : Queues c.mail (({ c with
      scene := c.scene.updateCable key fun x => { x with route := route } } : Canvas).pushToken d key
        token now).1.mail key := by
  have same : ({ c with scene := c.scene.updateCable key fun x => { x with route := route } } :
      Canvas).mail = c.mail :=
    congrArg (Mail.mk · c.queue.pending) (Scene.slips_updateCable fun _ => rfl)
  rw [← same]
  exact queues_pushToken (Scene.cable?_updateCable_self found _) d token now

theorem queues_routeCable (anchored : (c.scene.anchors? key).isSome = true) (d : δ) (now : Nat) :
    Queues c.mail (c.routeCable d key now).1.mail key := by
  obtain ⟨⟨start, stop⟩, anchors⟩ := Option.isSome_iff_exists.1 anchored
  obtain ⟨x, found, -⟩ := Option.bind_eq_some_iff.1 anchors
  simp only [routeCable, found, anchors]
  exact queues_led found _ d _ now

theorem queues_straightenCable (found : c.scene.cable? key = some x) (d : δ) (now : Nat) :
    Queues c.mail (c.straightenCable d key now).1.mail key := by
  simp only [straightenCable, found]
  exact queues_led found .straight d "" now

theorem apart_routeCable (c : Canvas) (d : δ) (key now : Nat) :
    (c.routeCable d key now).1.scene.boxArena = c.scene.boxArena ∧
      ∀ j ≠ key, (c.routeCable d key now).1.scene.cable? j = c.scene.cable? j := by
  unfold routeCable
  split
  · unfold pushToken
    dsimp only
    split
    · exact ⟨rfl, fun j other => Scene.cable?_updateCable_ne other _⟩
    · refine ⟨rfl, fun j other => ?_⟩
      exact (Scene.cable?_updateCable_ne other _).trans (Scene.cable?_updateCable_ne other _)
  · exact ⟨rfl, fun _ _ => rfl⟩

theorem obstructed_congr {b : Canvas} (boxes : b.scene.boxArena = c.scene.boxArena)
    (cable : b.scene.cable? key = c.scene.cable? key) : b.obstructed key = c.obstructed key := by
  have ends : b.scene.ends? = c.scene.ends? := funext fun x => by
    simp only [Scene.ends?, Scene.anchor?_congr boxes]
  have anchors : b.scene.anchors? key = c.scene.anchors? key := by
    rw [Scene.anchors?, cable, ends, Scene.anchors?]
  simp only [obstructed, cable, anchors, isBlocked, Scene.obstacles, Scene.boxes_congr boxes]

theorem routeIfBlocked_eq (c : Canvas) (d : δ) (key now : Nat) : routeIfBlocked now (c, d) key
    = if c.obstructed key then ((c.routeCable d key now).1, (c.routeCable d key now).2.1)
      else (c, d) := by
  cases found : c.scene.cable? key with
  | none => simp [routeIfBlocked, obstructed, found]
  | some cable =>
    cases anchors : c.scene.anchors? key with
    | none => simp [routeIfBlocked, obstructed, found, anchors]
    | some ends => simp only [routeIfBlocked, obstructed, found, anchors]

theorem isSome_anchors?_of_obstructed (blocked : c.obstructed key = true) :
    (c.scene.anchors? key).isSome = true := by
  unfold obstructed at blocked
  split at blocked
  · next anchors => rw [anchors, Option.isSome_some]
  · exact absurd blocked Bool.false_ne_true

theorem posts_foldl (nodup : ks.Nodup) (c : Canvas) (d : δ) :
    Posts c.mail (ks.foldl (routeIfBlocked now) (c, d)).1.mail (ks.filter c.obstructed) := by
  induction ks generalizing c d with
  | nil => exact .nil c.mail
  | cons key ks ih =>
    obtain ⟨fresh, nodup⟩ := List.nodup_cons.1 nodup
    rw [List.foldl_cons, routeIfBlocked_eq]
    by_cases blocked : c.obstructed key = true
    · rw [if_pos blocked, List.filter_cons_of_pos blocked]
      refine .cons (queues_routeCable (isSome_anchors?_of_obstructed blocked) d now) ?_
      obtain ⟨boxes, cables⟩ := apart_routeCable c d key now
      have same : ks.filter c.obstructed = ks.filter (c.routeCable d key now).1.obstructed :=
        List.filter_congr fun j there =>
          (obstructed_congr boxes (cables j fun here => fresh (here ▸ there))).symm
      exact same ▸ ih nodup _ _
    · rw [if_neg blocked, List.filter_cons_of_neg blocked]
      exact ih nodup c d

theorem posts_routeBlocked (cables : (keys c.scene.cables).Nodup) (d : δ) (moved : List Nat)
    (now : Nat) : Posts c.mail (c.routeBlocked d moved now).1.mail (c.obstructedAt moved) :=
  posts_foldl (cables.sublist (List.filter_sublist.map _)) c d

def letGo (c : Canvas) (offset : Point) : Canvas :=
  { c with drag := .none, snapper := c.snapper.clear }.showOffset offset

def moveNodes (c : Canvas) (d : δ) (offset : Point) : δ × Except EditError Unit :=
  Document.inSequence d moveLabel fun d =>
    Document.editAll (fun d h => Document.moveNode d h offset) d
      (c.selection.boxes.filterMap fun key => (c.scene.box? key).bind Box.handle)

/-- What comes of a move that ends at an offset. -/
inductive Released (c : Canvas) (d : δ) (now : Nat) (offset : Point) :
    Canvas × δ × Except EditError Point → Prop
  | still (home : offset = .origin) : Released c d now offset (c.letGo offset, d, .ok offset)
  | refused (away : offset ≠ .origin) {e : EditError}
      (refused : ((c.letGo offset).moveNodes d offset).2 = .error e) :
      Released c d now offset
        ((c.letGo offset).requestSync, ((c.letGo offset).moveNodes d offset).1, .error e)
  | moved (away : offset ≠ .origin) (made : ((c.letGo offset).moveNodes d offset).2 = .ok ())
      (off : c.settings.routing.autoRouteOnOverlap = false) :
      Released c d now offset
        ((c.letGo offset).requestSync, ((c.letGo offset).moveNodes d offset).1, .ok offset)
  | routed (away : offset ≠ .origin) (made : ((c.letGo offset).moveNodes d offset).2 = .ok ())
      (on : c.settings.routing.autoRouteOnOverlap = true) {b : Canvas} {d' : δ}
      (routed : (c.letGo offset).requestSync.routeBlocked ((c.letGo offset).moveNodes d offset).1
        c.selection.boxes now = (b, d')) :
      Released c d now offset (b, d', .ok offset)

theorem released_endMove {grabbed : Nat} {start offset : Point}
    (drag : c.drag = .boxes grabbed start offset) (d : δ) (now : Nat) :
    Released c d now (c.snapper.settle offset) (c.endMove d now) := by
  simp only [endMove, drag]
  generalize c.snapper.settle offset = offset
  split
  · next home => exact .still home
  · next away =>
    split
    · next e refused => exact .refused away refused
    · next made =>
      split
      · next on => exact .routed away made on rfl
      · next off => exact .moved away made (Bool.eq_false_iff.2 off)

theorem delivers_endMove (cables : (keys c.scene.cables).Nodup) (d : δ) (now : Nat) :
    Delivers c (c.endMove d now).1 (Call.queues c d (.endMove now)) := by
  cases drag : c.drag with
  | boxes grabbed start offset =>
    have released := released_endMove drag d now
    generalize c.snapper.settle offset = offset at released
    have mail : (c.letGo offset).mail = c.mail := mail_showOffset _ offset
    simp only [Call.queues]
    generalize c.endMove d now = result at released
    cases released with
    | still home => simpa [home] using Delivers.of_mail mail
    | refused away refused => exact .of_mail mail
    | moved away made off =>
      have quiet : Delivers c (c.letGo offset).requestSync [] := .of_mail mail
      simpa [off] using quiet
    | @routed away made on b d' routed =>
      have nodup : (keys (c.letGo offset).scene.cables).Nodup := by
        rw [Scene.keys_cables, letGo, outline_showOffset, ← Scene.keys_cables]
        exact cables
      have posts := posts_routeBlocked (c := (c.letGo offset).requestSync) nodup
        ((c.letGo offset).moveNodes d offset).1 c.selection.boxes now
      rw [routed] at posts
      have start : (c.letGo offset).requestSync.mail = c.mail := mail
      simp only [ne_eq, away, not_false_eq_true, decide_true, on, Bool.and_self, if_true]
      exact .posts (start ▸ posts)
  | _ =>
    simp only [Call.queues, endMove, drag]
    exact .of_mail rfl

theorem pending_cancel (q : WriteQueue) (hs : List Nat) :
    (hs.foldl (fun q h => (q.cancel h).1) q).pending
      = q.pending.filter fun e => !hs.contains e.1 := by
  induction hs generalizing q with
  | nil => simp
  | cons h hs ih =>
    rw [List.foldl_cons, ih, WriteQueue.cancel, Keyed.remove, List.filter_filter]
    refine List.filter_congr fun e _ => ?_
    by_cases here : e.1 = h <;> simp [here]

theorem delivers_deleteSelection (c : Canvas) (d : δ) :
    Delivers c (c.deleteSelection d).1 [] := by
  have left := pending_cancel c.queue c.doomedCables
  unfold deleteSelection
  split
  · exact .of_mail rfl
  · dsimp only
    split
    · split <;> exact .cancelled (fun h => !c.doomedCables.contains h) rfl left
    · have slips (b : Canvas) (ks : List Nat) :
          ({ b with scene := ks.foldl Scene.removeBox b.scene, selection := {} } :
            Canvas).markSelection.scene.slips = b.scene.slips :=
        (congrArg Mail.slips (mail_markSelection _)).trans (Scene.slips_removeBoxes _ ks)
      split <;> exact .cancelled (fun h => !c.doomedCables.contains h) (slips ..) left

theorem pending_tick (q : WriteQueue) (d : δ) (now : Nat) :
    (q.tick d now).1.pending = [] ∨ (q.tick d now).1 = q := by
  unfold WriteQueue.tick
  split
  · exact Or.inl (WriteQueue.pending_flush q d)
  · exact Or.inr rfl

theorem delivers_tick (c : Canvas) (d : δ) (now : Nat) : Delivers c (c.tick d now).1 [] := by
  simp only [tick]
  split
  · next none => exact .written (List.isEmpty_iff.1 none)
  · next waits =>
    rcases pending_tick c.queue d now with none | same
    · exact absurd (List.isEmpty_iff.2 none) waits
    · have mail : Mail.mk c.scene.slips (c.queue.tick d now).1.pending = c.mail := by
        rw [same]
        rfl
      exact .of_mail mail

theorem delivers_endSegment (c : Canvas) (d : δ) (now : Nat) :
    Delivers c (c.endSegment d now).1 (Call.queues c d (.endSegment now)) := by
  unfold endSegment Call.queues
  cases c.drag with
  | segment drag =>
    dsimp only
    cases drag.moved with
    | false => exact .of_mail rfl
    | true =>
      cases found : c.scene.cable? drag.cable with
      | none => exact .of_mail rfl
      | some x =>
        exact .posts (posts_single (queues_pushToken (c := { c with drag := .none }) found d _ now))
  | _ => exact .of_mail rfl

theorem delivers_sync (c : Canvas) (d : δ) : Delivers c (c.sync d).1 [] := by
  refine .passed (upholds_sync c d) ?_
  exact congrArg Mail.waiting ((mail_dropLostDrag _).trans (mail_markSelection _))

theorem delivers_idle (c : Canvas) (d : δ) : Delivers c (c.idle d).1 [] := by
  unfold idle
  split
  · exact .of_mail rfl
  · exact delivers_sync c d

theorem Call.delivers (call : Call) (regular : c.scene.Regular) (d : δ) :
    Delivers c (call.run c d).1 (call.queues c d) := by
  have quiet : Delivers c c [] := .of_mail rfl
  cases call with
  | setLocked locked => exact .of_mail (mail_setLocked c locked)
  | sync => exact delivers_sync c d
  | idle => exact delivers_idle c d
  | selectBox key toggle => exact .of_mail (mail_selectBox c key toggle)
  | selectCable key toggle => exact .of_mail (mail_selectCable c key toggle)
  | deselectAll => exact .of_mail (mail_markSelection _)
  | beginLasso position => exact .of_mail (mail_beginLasso c position)
  | updateLasso position => exact .of_mail (mail_updateLasso c position)
  | endLasso => exact .of_mail (mail_endLasso c)
  | beginMove grabbed position => exact .of_mail (mail_beginMove c grabbed position)
  | dragMove position bypass now => exact .of_mail (mail_dragMove c position bypass now)
  | endMove now => exact delivers_endMove regular.cables d now
  | beginResize key edges position => exact .of_mail (mail_beginResize c key edges position)
  | dragResize position bypass now => exact .of_mail (mail_dragResize c position bypass now)
  | endResize => exact .of_mail (mail_endResize c d)
  | deleteSelection => exact delivers_deleteSelection c d
  | alignSelection a => exact .of_mail (mail_alignSelection c d a)
  | beginConnection jack multi => exact .of_mail (mail_beginConnection c jack multi)
  | dragConnection position => exact .of_mail (mail_dragConnection c position)
  | endConnection => exact .of_mail (mail_endConnection c d)
  | cancelConnection => exact .of_mail (mail_cancelConnection c)
  | beginSegment key position => exact .of_mail (mail_beginSegment c key position)
  | dragSegment position => exact .of_mail (mail_dragSegment c position)
  | endSegment now => exact delivers_endSegment c d now
  | cancelSegment => exact .of_mail (mail_cancelSegment c)
  | cancelDrag => exact .of_mail (mail_cancelDrag c)
  | routeCable key now =>
    cases anchored : (c.scene.anchors? key).isSome with
    | false =>
      have none : c.scene.anchors? key = none := by simpa using anchored
      cases found : c.scene.cable? key <;>
        simpa [queues, run, Canvas.routeCable, found, none] using quiet
    | true =>
      simp only [queues, anchored, if_true]
      exact .posts (posts_single (queues_routeCable anchored d now))
  | straightenCable key now =>
    cases found : c.scene.cable? key with
    | none => simpa [queues, run, Canvas.straightenCable, found] using quiet
    | some x =>
      simp only [queues, found, Option.isSome_some, if_true]
      exact .posts (posts_single (queues_straightenCable found d now))
  | reanchorCable key => exact .of_mail (mail_reanchorCable c key)
  | pushToken key token now =>
    cases found : c.scene.cable? key with
    | none => simpa [queues, run, Canvas.pushToken, found] using quiet
    | some x =>
      simp only [queues, found, Option.isSome_some, if_true]
      exact .posts (posts_single (queues_pushToken found d token now))
  | tick now => exact delivers_tick c d now
  | flushTokens => exact .written (WriteQueue.pending_flush c.queue d)
  | placeBlank position => exact .of_mail (mail_placeBlank c position)
  | commitBlank key text => exact .of_mail (mail_commitBlank c d key text)
  | cancelBlank key => exact .of_mail (mail_cancelBlank c key)
  | _ => exact .of_mail rfl

/-! ## Every run -/

theorem Outcome.nextCable_le {s t : Scene} {e : δ} (outcome : Outcome s d t e) :
    s.nextCable ≤ t.nextCable := by
  have next {u : Scene} (outline : t.outline = u.outline) : t.nextCable = u.nextCable :=
    Scene.nextCable_of_outline outline
  cases outcome with
  | same outline => exact Nat.le_of_eq (next outline).symm
  | reconciled outline => exact next outline ▸ (Scene.upholds_reconcile s _).next
  | placed position outline => exact Nat.le_of_eq (next outline).symm
  | dropped keys blank outline =>
    have kept := congrArg Arena.next (Scene.cableArena_foldl_removeBox keys s)
    exact Nat.le_of_eq ((next outline).trans kept).symm
  | committed key handle text position made blank created closed outline =>
    exact Nat.le_of_eq (next outline).symm

theorem Delivers.nodup (delivers : Delivers c c' ks) (nodup : (keys c.queue.pending).Nodup) :
    (keys c'.queue.pending).Nodup := by
  cases delivers with
  | posts posts => exact posts.nodup nodup
  | written none => exact none ▸ List.nodup_nil
  | cancelled keep slips left => exact left ▸ nodup.sublist (List.filter_sublist.map _)
  | passed upholds same => exact same ▸ nodup

theorem distinct_mail (regular : c.scene.Regular) : c.mail.Distinct := by
  have cable {k : Nat} {e : Nat × String × Bool} (there : c.mail.slips.get? k = some e) :
      ∃ x, (k, x) ∈ c.scene.cables ∧ x.handle = e.1 := by
    obtain ⟨x, found, rfl⟩ := Option.map_eq_some_iff.1 ((c.scene.get?_slips k).symm.trans there)
    exact ⟨x, Scene.mem_cables regular.cableOrder found, rfl⟩
  intro j k e f at_j at_k same
  obtain ⟨x, hx, handle⟩ := cable at_j
  obtain ⟨y, hy, handle'⟩ := cable at_k
  have once := List.inj_on_of_nodup_map regular.cableHandles hx hy
    (handle.trans (same.trans handle'.symm))
  exact congrArg Prod.fst once

theorem awaits_iff : c.mail.Awaits k ↔ ∀ x, c.scene.cable? k = some x →
    ∀ t, c.queue.token? x.handle = some t → x.unsaved = true ∧ x.token = t := by
  simp only [Mail.Awaits, mail, Scene.get?_slips, Option.map_eq_some_iff, Scene.slip,
    Prod.mk.injEq, WriteQueue.token?]
  constructor
  · intro awaits x found t waits
    exact awaits x.handle x.token x.unsaved ⟨x, found, rfl, rfl, rfl⟩ t waits
  · rintro awaits _ _ _ ⟨x, found, rfl, rfl, rfl⟩ t waits
    exact awaits x found t waits

/-- One call: a cable that awaits its token goes on to, and so does one that is given a token. -/
theorem Delivers.awaits (delivers : Delivers c c' ks) (regular : c.scene.Regular)
    (regular' : c'.scene.Regular) (nodup : (keys c.queue.pending).Nodup)
    (awaits : c.mail.Awaits k ∧ k < c.scene.nextCable ∨ k ∈ ks) : c'.mail.Awaits k := by
  cases delivers with
  | posts posts => exact posts.awaits (distinct_mail regular) (awaits.imp_left And.left)
  | written none =>
    intro h token unsaved found t waits
    have waits : get? c'.queue.pending h = some t := waits
    exact absurd waits (by simp [none, get?])
  | cancelled keep slips left =>
    obtain ⟨awaits, -⟩ := awaits.resolve_right List.not_mem_nil
    intro h token unsaved found t waits
    have there : (h, t) ∈ c'.queue.pending := Keyed.mem_of_get? waits
    rw [left] at there
    have found : c.scene.slips.get? k = some (h, token, unsaved) := by
      rw [← slips]
      exact found
    exact awaits h token unsaved found t (Keyed.get?_of_mem nodup (List.mem_filter.1 there).1)
  | passed upholds same =>
    obtain ⟨awaits, old⟩ := awaits.resolve_right List.not_mem_nil
    rw [awaits_iff] at awaits ⊢
    intro y there t waits
    obtain ⟨x, hx, ⟨handle, -, -⟩, kept⟩ :=
      upholds.cables k y (Scene.mem_cables regular'.cableOrder there) old
    have waits : c.queue.token? x.handle = some t := by
      rw [← handle, WriteQueue.token?, ← same]
      exact waits
    obtain ⟨unsaved, token⟩ := awaits x (Scene.cable?_of_mem hx) t waits
    obtain ⟨unsaved', token', -⟩ := kept unsaved
    exact ⟨unsaved', token'.trans token⟩

theorem Delivers.isSome_cable? (delivers : Delivers c c' ks) (there : k ∈ ks) :
    (c.scene.cable? k).isSome = true := by
  cases delivers with
  | posts posts =>
    have found := posts.isSome_get? there
    rw [mail, Scene.get?_slips, Option.isSome_map] at found
    exact found
  | _ => exact absurd there List.not_mem_nil

theorem Reached.waiting (reached : Reached c) : (keys c.queue.pending).Nodup := by
  induction reached with
  | ofSettings settings => exact List.nodup_nil
  | call reached d call ih => exact (call.delivers reached.regular d).nodup ih

/-- A canvas on which at some time a token has been queued for the cable of a key, whatever the
documents were that it was used with. -/
inductive Queued (k : Nat) : Canvas → Prop
  | queues {δ : Type} [Document δ] {c : Canvas} (reached : Reached c) (d : δ) (call : Call)
      (queues : k ∈ call.queues c d) : Queued k (call.run c d).1
  | call {δ : Type} [Document δ] {c : Canvas} (queued : Queued k c) (d : δ) (call : Call) :
      Queued k (call.run c d).1

theorem Queued.reached (queued : Queued k c) : Reached c := by
  induction queued with
  | queues reached d call _ => exact reached.call d call
  | call _ d call ih => exact ih.call d call

theorem Queued.lt (queued : Queued k c) : k < c.scene.nextCable := by
  induction queued with
  | queues reached d call queues =>
    have there := (call.delivers reached.regular d).isSome_cable? queues
    obtain ⟨x, found⟩ := Option.isSome_iff_exists.1 there
    exact Nat.lt_of_lt_of_le (Arena.lt_next found) (call.outcome _ d).nextCable_le
  | call _ d call ih => exact Nat.lt_of_lt_of_le ih (call.outcome _ d).nextCable_le

theorem Queued.awaits (queued : Queued k c) : c.mail.Awaits k := by
  induction queued with
  | queues reached d call queues =>
    exact (call.delivers reached.regular d).awaits reached.regular (reached.call d call).regular
      reached.waiting (Or.inr queues)
  | call queued d call ih =>
    have reached := queued.reached
    exact (call.delivers reached.regular d).awaits reached.regular (reached.call d call).regular
      reached.waiting (Or.inl ⟨ih, queued.lt⟩)

theorem queued_play {settings : CanvasSettings} {p : Patch} {before : List Event} {call : Call}
    (queues : k ∈ call.queues (play settings p before).1 (play settings p before).2)
    (after : List Event) : Queued k (play settings p (before ++ .call call :: after)).1 := by
  have split : play settings p (before ++ .call call :: after)
      = after.foldl (fun state e => e.run state)
        (call.run (play settings p before).1 (play settings p before).2) := by
    simp [play, Event.run]
  rw [split]
  refine List.foldlRecOn (motive := fun state : Canvas × Patch => Queued k state.1) _ _
    (.queues (reached_play settings p before) _ call queues) ?_
  rintro ⟨c, q⟩ queued (made | m) -
  · exact queued.call q made
  · exact queued

theorem sync_waiting (found : c.scene.cable? k = some x) (regular : c.scene.Regular)
    (unsaved : x.unsaved = true) (d : δ) (there : (c.sync d).1.scene.cable? k = some y) :
    (y.handle = x.handle ∧ y.token = x.token ∧ y.unsaved = true) ∧
      (c.sync d).1.queue.pending = c.queue.pending ∧
      (y.route = x.route ∨ ∃ a b, (c.sync d).1.scene.anchors? k = some (a, b) ∧
        y.route = x.route.reanchor a b) := by
  have after := ((Call.sync.outcome c d).regular regular).cableOrder
  obtain ⟨z, hz, ⟨handle, -, -⟩, kept⟩ :=
    (upholds_sync c d).cables k y (Scene.mem_cables after there) (Arena.lt_next found)
  obtain rfl : z = x := Option.some.inj ((Scene.cable?_of_mem hz).symm.trans found)
  obtain ⟨unsaved', token, route⟩ := kept unsaved
  refine ⟨⟨handle, token, unsaved'⟩, ?_, ?_⟩
  · exact congrArg Mail.waiting ((mail_dropLostDrag _).trans (mail_markSelection _))
  · rwa [Scene.anchors?, there, Option.bind_some]

/-- Once a token has been queued for a cable, then as long as the cable keeps its key and a token
waits for its wire, that is the token of the cable, which is marked. A pass over any document leaves
it so, and the route but for its anchors; and a flush writes it, if the wire is listed. -/
theorem queued_edit_stays (queued : Queued k c) (found : c.scene.cable? k = some x)
    (waits : c.queue.token? x.handle = some t) :
    (x.unsaved = true ∧ x.token = t) ∧
    (∀ {δ : Type} [Document δ] (d : δ) (y : Cable), (c.sync d).1.scene.cable? k = some y →
      (y.handle = x.handle ∧ y.token = x.token ∧ y.unsaved = true) ∧
        (c.sync d).1.queue.pending = c.queue.pending ∧
        (y.route = x.route ∨ ∃ a b, (c.sync d).1.scene.anchors? k = some (a, b) ∧
          y.route = x.route.reanchor a b)) ∧
    ∀ p : Patch, (p.wire? x.handle).isSome = true →
      ((c.flushTokens p).2.1.wire? x.handle).map Wire.token = some t := by
  obtain ⟨unsaved, token⟩ := awaits_iff.1 queued.awaits x found t waits
  refine ⟨⟨unsaved, token⟩, fun d y there => ?_, fun p listed => ?_⟩
  · exact sync_waiting found queued.reached.regular unsaved d there
  · obtain ⟨w, listed⟩ := Option.isSome_iff_exists.1 listed
    have written : (c.flushTokens p).2.1.toContents = p.toContents.setTokens c.queue.pending :=
      WriteQueue.toContents_flush c.queue p
    have waits : get? c.queue.pending x.handle = some t := waits
    rw [written, Contents.token_setTokens queued.reached.waiting p.toContents listed, waits]
    rfl

/-- A wire whose cable is edited; the patch gets another token before the edit is written, and the
canvas is brought in line. -/
def overtaken : List Event :=
  [.mutate (.insertNode ⟨"osc~", ⟨0, 0, 40, 20⟩, [], [true]⟩),
    .mutate (.insertNode ⟨"dac~", ⟨100, 100, 40, 20⟩, [true], []⟩),
    .mutate (.insertWire ⟨1, 0, 2, 0⟩), .call .sync, .call (.beginSegment 1 ⟨15, 20⟩),
    .call (.dragSegment ⟨15, 40⟩), .call (.endSegment 0), .mutate (.edit (.setToken 3 "BB4oHnjmeObK")),
    .call .sync]

theorem queued_edit_stays_overtaken :
    Queued 1 (play {} {} overtaken).1 ∧
      (∃ x, (play {} {} overtaken).1.scene.cable? 1 = some x ∧
        (play {} {} overtaken).1.queue.token? x.handle = some "BB4oHqDmoObK" ∧
        x.unsaved = true ∧ x.token = "BB4oHqDmoObK" ∧
        ((play {} {} overtaken).2.wire? x.handle).map Wire.token = some "BB4oHnjmeObK" ∧
        (((play {} {} overtaken).1.flushTokens (play {} {} overtaken).2).2.1.wire? x.handle).map
          Wire.token = some "BB4oHqDmoObK") := by
  have queues : 1 ∈ (Call.endSegment 0).queues (play {} {} (overtaken.take 6)).1
      (play {} {} (overtaken.take 6)).2 := by decide +kernel
  have run : overtaken.take 6 ++ .call (.endSegment 0) :: overtaken.drop 7 = overtaken := rfl
  have queued : Queued 1 (play {} {} overtaken).1 := run ▸ queued_play queues (overtaken.drop 7)
  have waits : ((play {} {} overtaken).1.scene.cable? 1).bind (fun x =>
      (play {} {} overtaken).1.queue.token? x.handle) = some "BB4oHqDmoObK" := by decide +kernel
  have handle : ((play {} {} overtaken).1.scene.cable? 1).map Cable.handle = some 3 := by
    decide +kernel
  have wire : ((play {} {} overtaken).2.wire? 3).map Wire.token = some "BB4oHnjmeObK" := by
    decide +kernel
  obtain ⟨x, found, waits⟩ := Option.bind_eq_some_iff.1 waits
  have handle : x.handle = 3 := by simpa [found] using handle
  rw [← handle] at wire
  have listed : ((play {} {} overtaken).2.wire? x.handle).isSome = true := by
    rw [← Option.isSome_map, wire, Option.isSome_some]
  obtain ⟨⟨unsaved, token⟩, -, written⟩ := queued_edit_stays queued found waits
  exact ⟨queued, x, found, waits, unsaved, token, wire, written _ listed⟩

end Canvas

end Patchbay
