import Patchbay.Proofs.Acts
import Patchbay.Proofs.Return

/-!
# Gestures that are undone

A gesture on a canvas that is in line with its patch, the undoing of it in the patch, and a canvas
brought in line after each: the nodes are shown as before. So are the wires that the gesture left,
unless their plan did not fit on the way or was taken along whole; those that it took out or led
elsewhere are drawn anew.
-/

namespace Patchbay

open Keyed (keys)

namespace Canvas

open Scene (Drawing Joins Resemble Settled Sustains UpToDate boxesOf drawing?_of_mem refreshCable
  route?_of_mem span?)

/-- A gesture, and the undoing of it, with the canvas brought in line after each. -/
def Act.undone (act : Act) (c : Canvas) (p : Patch) : Option (Canvas × Patch) :=
  let (c, p) := act.run c p
  let (c, p, _) := c.sync p
  p.undo?.map fun p =>
    let (c, p, _) := c.sync p
    (c, p)

/-- Just brought in line with a patch, without showing a node twice, with nothing held and no sequence
open. -/
structure Poised (c : Canvas) (p : Patch) : Prop where
  synced : ∃ c₀ p₀, Reached c₀ ∧ c₀.scene.handles.Nodup ∧ (c₀.sync p₀).1 = c ∧ (c₀.sync p₀).2.1 = p
  free : c.drag = .none
  sound : p.Sound
  closed : p.history.sequences = []

variable {c t : Canvas} {p q r : Patch} {still : Prop} {h : Nat} {w : Wire} {a b : Point}
  {x : Nat × Cable} {act : Act} {moved : List Nat} {stops : List Scene}

theorem wellFormed_sync (wf : c.scene.WellFormed) (nodup : (keys p.nodes).Nodup) :
    (c.sync p).1.scene.WellFormed := by
  obtain ⟨shown, blanks, settled⟩ := (atRest_sync wf nodup).1.settled
  exact settled.wf

theorem numbered_sync (numbered : c.scene.Numbered) (p : Patch) : (c.sync p).1.scene.Numbered := by
  obtain ⟨f, g, marked⟩ := marked_sync c p
  exact (numbered.reconcile _).of_outline marked.recast.outline

theorem settled_sync (wf : c.scene.WellFormed) (nodup : (keys p.nodes).Nodup) :
    ∃ shown blanks, Settled p.toContents shown blanks (c.sync p).1.scene ∧
      Resemble blanks c.scene.blanks := by
  obtain ⟨shown, settled, -⟩ := wf.settled (c := p.toContents) nodup
  obtain ⟨f, g, marked⟩ := marked_sync c p
  exact ⟨_, _, marked.settled settled, Scene.resemble_mapValues marked.alike _⟩

theorem exists_synced (wf : c.scene.WellFormed) (numbered : c.scene.Numbered)
    (nodup : (keys p.nodes).Nodup) (hx : x ∈ c.scene.cables)
    (spans : span? p.toContents (boxesOf p.nodes) x.2.handle = some (w, a, b))
    (joins : Joins c.scene.boxes x.2 w.ends) (upToDate : UpToDate x.2 w.token) :
    ∃ y ∈ (c.sync p).1.scene.cables,
      (∃ on, y.2 = { x.2 with route := x.2.route.reanchor a b, selected := on }) ∧
        Joins (c.sync p).1.scene.boxes y.2 w.ends := by
  obtain ⟨f, g, marked⟩ := marked_sync c p
  obtain ⟨y, hy, drawn, joins⟩ := wf.exists_refreshed numbered nodup hx spans joins
  rw [upToDate.refreshCable_eq] at drawn
  refine ⟨(y.1, { y.2 with selected := g y.1 }), ?_, ⟨g y.1, by rw [drawn]⟩,
    joins.of_outline marked.recast.outline⟩
  rw [marked.recast.cables]
  exact Keyed.mem_mapValues.2 ⟨y.2, hy, rfl⟩

theorem mem_sync (hx : x ∈ (c.sync p).1.scene.cables) :
    ∃ y ∈ (c.scene.reconcile p.toContents.listing).1.cables, ∃ on,
      x.2 = { y.2 with selected := on } := by
  obtain ⟨f, g, marked⟩ := marked_sync c p
  rw [marked.recast.cables] at hx
  obtain ⟨y, hy, same⟩ := Keyed.mem_mapValues.1 hx
  exact ⟨_, hy, _, same⟩

namespace Poised

theorem settled (poised : Poised c p) : ∃ shown blanks, Settled p.toContents shown blanks c.scene := by
  obtain ⟨c₀, p₀, reached, distinct, rfl, rfl⟩ := poised.synced
  have nodup : (keys p₀.nodes).Nodup := poised.sound.nodup
  exact (atRest_sync (Scene.wellFormed_iff.2 ⟨reached.regular, distinct⟩) nodup).1.settled

theorem wellFormed (poised : Poised c p) : c.scene.WellFormed := by
  obtain ⟨shown, blanks, settled⟩ := poised.settled
  exact settled.wf

theorem numbered (poised : Poised c p) : c.scene.Numbered := by
  obtain ⟨c₀, p₀, reached, -, rfl, -⟩ := poised.synced
  exact (reached.call p₀ .sync).numbered

theorem exists_cable (poised : Poised c p)
    (spans : span? p.toContents (boxesOf p.nodes) h = some (w, a, b)) :
    ∃ x ∈ c.scene.cables, x.2.handle = h ∧ Joins c.scene.boxes x.2 w.ends ∧
      c.scene.ends? x.2 = some (a, b) ∧ refreshCable x.2 w.token a b = x.2 := by
  obtain ⟨c₀, p₀, reached, -, rfl, rfl⟩ := poised.synced
  exact exists_cable_sync (p := p₀) reached poised.sound.nodup spans

end Poised

/-! ## There and back -/

/-- A canvas and a patch before a gesture, and after it. -/
structure Turned (c : Canvas) (p : Patch) (t : Canvas) (q : Patch) (moved : List Nat)
    (stops : List Scene) (still : Prop) : Prop where
  poised : Poised c p
  stirred : Stirred c p t q moved stops
  sound : q.Sound
  edited : p.Edited still q
  saved : ¬still → ∀ x ∈ c.scene.cables, x.2.unsaved = false

namespace Turned

theorem wellFormed (turned : Turned c p t q moved stops still) : t.scene.WellFormed :=
  turned.stirred.sheds.wellFormed turned.poised.wellFormed

theorem numbered (turned : Turned c p t q moved stops still) : t.scene.Numbered :=
  turned.stirred.sheds.numbered turned.poised.numbered

theorem spans_iff (turned : Turned c p t q moved stops still) (before : p.wire? h = some w) {w' : Wire}
    (after : q.wire? h = some w') (ends : w.ends = w'.ends) :
    span? q.toContents (boxesOf q.nodes) h = none ↔
      span? p.toContents (boxesOf p.nodes) h = none := by
  have same := turned.edited.isSome_span? turned.poised.sound turned.sound.nodup before after ends
  rw [← Option.not_isSome_iff_eq_none, ← Option.not_isSome_iff_eq_none, same]

theorem spans (turned : Turned c p t q moved stops still)
    (joined : ∀ w w', p.wire? h = some w → q.wire? h = some w' → w.ends = w'.ends)
    (shown : ∀ x ∈ c.scene.cables, x.2.handle = h → span? p.toContents (boxesOf p.nodes) h ≠ none)
    (before : p.wire? h = some w) (hx : x ∈ (t.sync q).1.scene.cables) (named : x.2.handle = h) :
    ∃ w' a b, span? q.toContents (boxesOf q.nodes) h = some (w', a, b) ∧
      span? p.toContents (boxesOf p.nodes) h ≠ none := by
  have nodup := turned.sound.nodup
  obtain ⟨_, settled, -⟩ := turned.wellFormed.settled (c := q.toContents) nodup
  obtain ⟨y, hy, on, same⟩ := mem_sync hx
  have named' : y.2.handle = h := by rw [← named, same]
  obtain ⟨e, he, handle⟩ := Scene.exists_firstWire (settled.cables y hy).1
  obtain ⟨v, after, -⟩ := Scene.wire?_of_firstWires he
  rw [handle, named'] at after
  have iff := turned.spans_iff before after (joined w v before after)
  cases there : span? q.toContents (boxesOf q.nodes) h with
  | none =>
    -- Without its wire a cable is there only if it was there before the gesture.
    obtain ⟨owner, rewired⟩ :=
      (Scene.wellFormed_iff.1 turned.wellFormed).1.rewired turned.numbered nodup
    obtain ⟨z, hz, named, -⟩ :=
      turned.stirred.former y (rewired.mem_of_span?_eq_none nodup hy (named' ▸ there))
    exact absurd (iff.1 there) (shown z hz (named.trans named'))
  | some span =>
    obtain ⟨w', a, b⟩ := span
    exact ⟨w', a, b, rfl, fun none => by simp [iff.2 none] at there⟩

theorem token_of_mem (turned : Turned c p t q moved stops still)
    (saved : ∀ x ∈ c.scene.cables, x.2.unsaved = false)
    (there : span? q.toContents (boxesOf q.nodes) h = some (w, a, b))
    (hx : x ∈ (t.sync q).1.scene.cables) (named : x.2.handle = h) :
    x.2.unsaved = false ∧ x.2.token = w.token := by
  have nodup := turned.sound.nodup
  obtain ⟨owner, rewired⟩ :=
    (Scene.wellFormed_iff.1 turned.wellFormed).1.rewired turned.numbered nodup
  obtain ⟨e, outlet, inlet, y, hy, old, former, same, -, -, -, draft⟩ :=
    rewired.exists_draft nodup there
  obtain ⟨z, hz, on, marked⟩ := mem_sync hx
  have named' : z.2.handle = h := by rw [← named, marked]
  obtain rfl := List.inj_on_of_nodup_map rewired.cableHandles hy hz
    ((draft.ends.1.trans same).trans named'.symm)
  rw [marked]
  refine draft.saved fun v hv _ => ?_
  obtain ⟨u, hu, -, unsaved⟩ := turned.stirred.former v (former v hv)
  rw [← Bool.not_eq_true]
  exact fun waits => absurd (unsaved waits) (by simp [saved u hu])

variable (back : r.toContents = p.toContents)

include back

theorem absent (turned : Turned c p t q moved stops still)
    (joined : ∀ w w', p.wire? h = some w → q.wire? h = some w' → w.ends = w'.ends)
    (shown : ∀ x ∈ c.scene.cables, x.2.handle = h → span? p.toContents (boxesOf p.nodes) h ≠ none)
    (none : span? p.toContents (boxesOf p.nodes) h = none) :
    ((t.sync q).1.sync r).1.scene.drawing? h = .none := by
  have wf := wellFormed_sync turned.wellFormed turned.sound.nodup
  have nodup := turned.poised.sound.nodup
  rw [drawing?_sync, back]
  obtain ⟨owner, rewired⟩ :=
    (Scene.wellFormed_iff.1 wf).1.rewired (numbered_sync turned.numbered q) nodup
  obtain ⟨_, settled, -⟩ := wf.settled (c := p.toContents) nodup
  refine Option.map_eq_none_iff.2 (List.find?_eq_none.2 fun x hx named => ?_)
  obtain rfl : x.2.handle = h := by simpa using named
  obtain ⟨e, he, handle⟩ := Scene.exists_firstWire (settled.cables x hx).1
  obtain ⟨w, before, -⟩ := Scene.wire?_of_firstWires he
  obtain ⟨-, -, -, -, there⟩ := turned.spans joined shown (handle ▸ before)
    (rewired.mem_of_span?_eq_none nodup hx none) rfl
  exact there none

/-- A wire that the gesture left is shown between the same jacks. Its route is the one before exactly if
its plan has fitted at each stop and at the pass after the gesture, and was not taken along whole. -/
theorem returns (turned : Turned c p t q moved stops still) (same : q.wire? h = p.wire? h)
    (spans : span? p.toContents (boxesOf p.nodes) h = some (w, a, b)) :
    Option.Rel Drawing.Matches (((t.sync q).1.sync r).1.scene.drawing? h) (c.scene.drawing? h) ∧
      (((t.sync q).1.sync r).1.scene.route? h = c.scene.route? h ↔
        c.scene.Tethered t.scene h ∧ ∀ x ∈ c.scene.cables, x.2.handle = h →
          Sustains moved stops x.2 ∧ ∀ e ∈ span? q.toContents (boxesOf q.nodes) h,
            ¬x.2.route.Misfits e.2.1 e.2.2) := by
  have wf := turned.poised.wellFormed
  obtain ⟨x, hx, rfl, former, ends, fixed⟩ := turned.poised.exists_cable spans
  have upToDate := Scene.upToDate_of_refreshCable fixed
  have still := Scene.reanchor_of_refreshCable fixed
  obtain ⟨y, hy, ⟨handle, outlet, inlet⟩, ⟨token, unsaved⟩, route⟩ := turned.stirred.kept x hx same
  have before := (Scene.span?_eq_some_iff.1 spans).1
  have after : q.wire? x.2.handle = some w := same.trans before
  obtain ⟨⟨w', a', b'⟩, there⟩ := Option.ne_none_iff_exists'.1 fun none =>
    absurd (((turned.spans_iff before after rfl).1 none).symm.trans spans) (by simp)
  obtain rfl := Option.some.inj (after.symm.trans (Scene.span?_eq_some_iff.1 there).1)
  -- Both passes find the cable, and bring its route to their anchors.
  have joins : Joins t.scene.boxes y.2 w.ends := by
    rw [Joins, outlet, inlet]
    exact ⟨former.1.shed turned.stirred.sheds, former.2.shed turned.stirred.sheds⟩
  have upToDate : UpToDate y.2 w.token := by rwa [UpToDate, token, unsaved]
  obtain ⟨z, hz, ⟨on, led⟩, joins⟩ := exists_synced turned.wellFormed turned.numbered
    turned.sound.nodup hy (handle ▸ there) joins upToDate
  have wf' := wellFormed_sync turned.wellFormed turned.sound.nodup
  have nodup : (keys r.nodes).Nodup := back ▸ turned.poised.sound.nodup
  have named : z.2.handle = x.2.handle := by rw [led, handle]
  obtain ⟨v, hv, ⟨on', led'⟩, joins⟩ := exists_synced wf' (numbered_sync turned.numbered q)
    nodup hz (by rw [back, named]; exact spans) joins (by rwa [led])
  have wf'' := wellFormed_sync wf' nodup
  have named' : v.2.handle = x.2.handle := by rw [led', named]
  constructor
  · rw [drawing?_of_mem wf.cableHandles hx rfl, drawing?_of_mem wf''.cableHandles hv named']
    refine .some ⟨?_, ?_, ?_⟩
    · exact joins.1.sign_eq.trans former.1.sign_eq.symm
    · exact joins.2.sign_eq.trans former.2.sign_eq.symm
    · dsimp only
      rw [led', led, token]
  · have only (P : Nat × Cable → Prop) :
        (∀ e ∈ c.scene.cables, e.2.handle = x.2.handle → P e) ↔ P x := by
      refine ⟨fun each => each x hx rfl, fun this e he named => ?_⟩
      rwa [List.inj_on_of_nodup_map wf.cableHandles he hx named]
    rw [route?_of_mem wf.cableHandles hx rfl, route?_of_mem wf''.cableHandles hv named', led', led,
      route, only, Scene.tethered_iff wf.cableHandles turned.wellFormed.cableHandles hx rfl hy handle,
      route, there]
    simp only [Option.some.injEq, Option.mem_def, forall_eq']
    exact Scene.trail_returns_iff still (fun u hu => turned.stirred.anchored u hu x.2) a' b'

theorem pictures (turned : Turned c p t q moved stops still) (sole : p.Sole h)
    (shown : ∀ x ∈ c.scene.cables, x.2.handle = h → span? p.toContents (boxesOf p.nodes) h ≠ none)
    (other : q.wire? h ≠ p.wire? h) (there : span? p.toContents (boxesOf p.nodes) h ≠ none) :
    Scene.Pictures p.toContents (boxesOf p.nodes)
      (fun route token a b => route = (Route.raw token).reanchor a b) h
      (((t.sync q).1.sync r).1.scene.drawing? h) := by
  have wf := wellFormed_sync turned.wellFormed turned.sound.nodup
  have nodup := turned.poised.sound.nodup
  rw [drawing?_sync, back]
  obtain ⟨owner, rewired⟩ := (Scene.wellFormed_iff.1 wf).1.rewired (c := p.toContents)
    (numbered_sync turned.numbered q) nodup
  refine rewired.pictures nodup (fun _ _ _ _ => there) ?_
  intro old e w outlet inlet a b z spans former named draft
  have before := (Scene.span?_eq_some_iff.1 spans).1
  cases draft with
  | fresh => exact ⟨rfl, Route.ofToken_eq _ _ _⟩
  | @kept k y mem handle ends =>
    have hy := former _ mem
    have named' : y.handle = h := handle.trans named
    obtain ⟨v, a', b', there', -⟩ := turned.spans
      (fun _ _ before after => (turned.edited.stays turned.poised.sound sole before after).1)
      shown before hy named'
    have after := (Scene.span?_eq_some_iff.1 there').1
    obtain ⟨joined, kept⟩ := turned.edited.stays turned.poised.sound sole before after
    have apart : w ≠ v := fun same => other (after.trans (same ▸ before.symm))
    -- The gesture wrote tokens, so everything was saved, and what is shown now is what it wrote.
    obtain ⟨saved, token⟩ := turned.token_of_mem (turned.saved fun still => apart (kept still))
      there' hy named'
    have new : w.token ≠ y.token := by
      intro same
      have first : w.handle = h := by simpa using List.find?_some before
      have second : v.handle = h := by simpa using List.find?_some after
      obtain ⟨_, _, _⟩ := w
      exact apart (Wire.mk.injEq .. ▸ ⟨first.trans second.symm, joined, same.trans token⟩)
    rw [refreshCable, if_pos ⟨new, saved⟩]
    exact ⟨rfl, Route.ofToken_eq _ _ _⟩

theorem resemble (turned : Turned c p t q moved stops still) :
    Resemble ((t.sync q).1.sync r).1.scene.boxes
      (c.scene.boxes.filter (·.2.handle.isSome) ++ t.scene.blanks) := by
  obtain ⟨shown, blanks, settled⟩ := turned.poised.settled
  obtain ⟨shown₁, blanks₁, settled₁, behind₁⟩ :=
    settled_sync turned.wellFormed turned.sound.nodup
  obtain ⟨shown₂, blanks₂, settled₂, behind₂⟩ :=
    settled_sync settled₁.wf (p := r) (back ▸ turned.poised.sound.nodup)
  rw [settled₁.blanks_eq] at behind₂
  rw [settled₂.boxes, settled.filter_isSome]
  rw [back] at settled₂
  have numbered := numbered_sync (numbered_sync turned.numbered q) r
  exact List.rel_append (settled₂.resemble settled numbered turned.poised.numbered)
    (behind₂.trans behind₁)

end Turned

/-! ## Gestures -/

/-- What a recorded gesture makes of a canvas and its patch can be taken back. -/
theorem turned_run (poised : Poised c p) (fits : act.Fits c p) (records : act.Records c p) :
    Turned c p (act.run c p).1 (act.run c p).2 (act.moved c) (act.stops c p) act.Still ∧
      ∃ r, ((act.run c p).1.sync (act.run c p).2).2.1.undo? = some r ∧
        r.toContents = p.toContents := by
  obtain ⟨sound, edited, s, rest, done, back⟩ :=
    (act.retouched poised.free fits).reverts poised.sound poised.closed records
  refine ⟨⟨poised, act.stirred poised.free fits records, sound, edited,
    fits.saved⟩, ?_⟩
  have same : ((act.run c p).1.sync (act.run c p).2).2.1.history.done = s :: rest := done
  rw [Patch.undo?, same]
  exact ⟨_, rfl, back⟩

/-- Whether a gesture leaves what the patch says of a wire. -/
def Act.Keeps (act : Act) (c : Canvas) (p : Patch) (h : Nat) : Prop :=
  (act.run c p).2.wire? h = p.wire? h

/-- Whether a plan fits at each stop of a gesture and at the pass after it, and is not taken along whole
otherwise than its token says. -/
def Act.Faithful (act : Act) (c : Canvas) (p : Patch) (h : Nat) : Prop :=
  c.scene.Tethered (act.run c p).1.scene h ∧ ∀ x ∈ c.scene.cables, x.2.handle = h →
    Sustains (act.moved c) (act.stops c p) x.2 ∧
      ∀ e ∈ span? (act.run c p).2.toContents (boxesOf (act.run c p).2.nodes) h,
        ¬x.2.route.Misfits e.2.1 e.2.2

/-- Whether a new canvas shows something of a handle, if this one does. -/
def Known (c : Canvas) (p : Patch) (h : Nat) : Prop :=
  (c.scene.drawing? h).isSome → ((fresh c.settings p).scene.drawing? h).isSome

instance (c : Canvas) (p : Patch) (h : Nat) : Decidable (c.Known p h) :=
  inferInstanceAs (Decidable (_ → _))

instance (act : Act) (c : Canvas) (p : Patch) (h : Nat) : Decidable (act.Keeps c p h) :=
  inferInstanceAs (Decidable (_ = _))

instance (act : Act) (c : Canvas) (p : Patch) (h : Nat) : Decidable (act.Faithful c p h) :=
  inferInstanceAs (Decidable (_ ∧ ∀ x ∈ c.scene.cables, _ → _ ∧ ∀ e ∈ span? _ _ h, _))

/-- After a gesture was undone, the nodes are shown as before it, and what is not in the document as
the gesture left it. A wire that it left is shown between the same jacks and with the same token as
before, and with the same route exactly if the gesture was faithful to it; any other wire is shown as
on a new canvas. -/
theorem undone_returns (poised : Poised c p) (fits : act.Fits c p) (records : act.Records c p) :
    ∃ t r, act.undone c p = some (t, r) ∧ r.toContents = p.toContents ∧
      Resemble t.scene.boxes
        (c.scene.boxes.filter (·.2.handle.isSome) ++ (act.run c p).1.scene.blanks) ∧
      ∀ h, c.Known p h →
        (act.Keeps c p h →
          Option.Rel Drawing.Matches (t.scene.drawing? h) (c.scene.drawing? h) ∧
          (t.scene.route? h = c.scene.route? h ↔ act.Faithful c p h)) ∧
        (¬act.Keeps c p h → p.Sole h →
          t.scene.drawing? h = (fresh c.settings p).scene.drawing? h) := by
  obtain ⟨turned, r, undo, back⟩ := turned_run poised fits records
  have made : act.undone c p = some ((((act.run c p).1.sync (act.run c p).2).1.sync r).1,
      (((act.run c p).1.sync (act.run c p).2).1.sync r).2.1) := by
    simp only [Act.undone, undo, Option.map_some]
  unfold Act.Keeps Act.Faithful
  generalize (act.run c p).1 = t, (act.run c p).2 = q at turned made ⊢
  refine ⟨_, _, made, back, turned.resemble back, fun h known => ?_⟩
  have new := pictures_fresh c.settings poised.sound.nodup h
  have shown : ∀ x ∈ c.scene.cables, x.2.handle = h →
      span? p.toContents (boxesOf p.nodes) h ≠ none := by
    intro x hx named none
    rw [Known, drawing?_of_mem poised.wellFormed.cableHandles hx named, new.eq_none none] at known
    exact absurd (known rfl) (by simp)
  refine ⟨fun same => ?_, fun other sole => ?_⟩
  · cases spans : span? p.toContents (boxesOf p.nodes) h with
    | none =>
      have gone : ∀ x ∈ c.scene.cables, x.2.handle ≠ h := fun x hx named => shown x hx named spans
      have former : c.scene.drawing? h = .none := Scene.drawing?_of_not_mem gone
      have joined (w w' : Wire) (before : p.wire? h = some w) (after : q.wire? h = some w') :
          w.ends = w'.ends := by
        rw [Option.some.inj (before.symm.trans (same.symm.trans after))]
      rw [Scene.route?, Scene.route?, turned.absent back joined shown spans, former]
      refine ⟨.none, iff_of_true rfl ⟨fun d there => ?_, fun x hx named => absurd named (gone x hx)⟩⟩
      exact absurd (former.symm.trans there) (by simp)
    | some span => exact turned.returns back same spans
  · have joined (w w' : Wire) (before : p.wire? h = some w) (after : q.wire? h = some w') :
        w.ends = w'.ends := (turned.edited.stays poised.sound sole before after).1
    cases spans : span? p.toContents (boxesOf p.nodes) h with
    | none => rw [turned.absent back joined shown spans, new.eq_none spans]
    | some span => exact (turned.pictures back sole shown other (by simp [spans])).unique new

/-! ## Canvases that come back, and canvases that do not -/

theorem poised_sync (reached : Reached c) (distinct : c.scene.handles.Nodup)
    (free : (c.sync p).1.drag = .none) (sound : p.Sound) (closed : p.history.sequences = []) :
    Poised (c.sync p).1 (c.sync p).2.1 where
  synced := ⟨c, p, reached, distinct, rfl, rfl⟩
  free := free
  sound := ⟨sound.nodup, sound.nodes_below, sound.wires_below⟩
  closed := closed

def Act.shown? (act : Act) (c : Canvas) (p : Patch) (h : Nat) : Option Drawing :=
  (act.undone c p).bind fun r => r.1.scene.drawing? h

def Act.shownRoute? (act : Act) (c : Canvas) (p : Patch) (h : Nat) : Option Route :=
  (act.shown? c p h).map (·.route)

def Act.boxes (act : Act) (c : Canvas) (p : Patch) : Keyed Box :=
  ((act.undone c p).map fun r => r.1.scene.boxes).getD []

def after (p : Patch) (calls : List Call) : Canvas × Patch :=
  play {} p ((Call.sync :: calls).map .call)

theorem poised_after (calls : List Call) (distinct : (after p calls).1.scene.handles.Nodup)
    (free : ((after p calls).1.sync (after p calls).2).1.drag = .none)
    (sound : (after p calls).2.Sound) (closed : (after p calls).2.history.sequences = []) :
    Poised ((after p calls).1.sync (after p calls).2).1
      ((after p calls).1.sync (after p calls).2).2.1 :=
  poised_sync (reached_play {} p _) distinct free sound closed

open Patch (stair)

theorem undone_returns_stair :
    let c := ((ofSettings {}).sync stair).1
    let p := ((ofSettings {}).sync stair).2.1
    Poised c p ∧ (Act.move swerve).Fits c p ∧ (Act.move swerve).Records c p ∧
      (Act.move swerve).Keeps c p 3 ∧ (Act.move swerve).Faithful c p 3 ∧
      ∃ t r, (Act.move swerve).undone c p = some (t, r) ∧ r.toContents = p.toContents ∧
        Option.Rel Drawing.Matches (t.scene.drawing? 3) (c.scene.drawing? 3) ∧
        t.scene.route? 3 = c.scene.route? 3 := by
  have poised := poised_sync (p := stair) (.ofSettings {}) (by decide +kernel) rfl
    ⟨by decide, by decide, by decide⟩ rfl
  have fits : (Act.move swerve).Fits ((ofSettings {}).sync stair).1
      ((ofSettings {}).sync stair).2.1 := rfl
  have records : (Act.move swerve).Records ((ofSettings {}).sync stair).1
      ((ofSettings {}).sync stair).2.1 := by decide +kernel
  have keeps : (Act.move swerve).Keeps ((ofSettings {}).sync stair).1
      ((ofSettings {}).sync stair).2.1 3 := by decide +kernel
  have faithful : (Act.move swerve).Faithful ((ofSettings {}).sync stair).1
      ((ofSettings {}).sync stair).2.1 3 := by decide +kernel
  obtain ⟨t, r, undone, back, -, wires⟩ := undone_returns poised fits records
  obtain ⟨same, routes⟩ := (wires 3 (by decide +kernel)).1 keeps
  exact ⟨poised, fits, records, keeps, faithful, t, r, undone, back, same, routes.2 faithful⟩

end Canvas

namespace Patch

def parallel : Patch where
  nodes := stair.nodes
  wires := [⟨3, ⟨1, 0, 2, 0⟩, "BB4oHnjmeObK"⟩, ⟨4, ⟨1, 0, 2, 0⟩, ""⟩]
  next := 5

def twin : Patch where
  nodes := [(1, ⟨"osc~", ⟨0, 0, 40, 20⟩, [], [true, true]⟩),
    (2, ⟨"dac~", ⟨100, 100, 40, 20⟩, [true, true], []⟩)]
  wires := [⟨3, ⟨1, 0, 2, 0⟩, "BB4oHnjmeObK"⟩, ⟨4, ⟨1, 1, 2, 1⟩, "BB4oHnjmeObK"⟩]
  next := 5

/-- Two wires with the same handle, of which the second leads from a node that is not there. -/
def shared : Patch where
  nodes := column.nodes
  wires := [⟨3, ⟨1, 0, 2, 0⟩, "BB4oHlAeeB7K"⟩, ⟨3, ⟨9, 0, 2, 0⟩, ""⟩]
  next := 4

def loose : Patch where
  nodes := stair.nodes
  wires := [⟨3, ⟨9, 0, 2, 0⟩, "BB4oHnjmeObK"⟩]
  next := 4

end Patch

namespace Canvas

open Patch (column stair emptied parallel twin shared loose)
open Scene (Drawing Resemble)

/-- The lower box is taken aside and then down, and the cable is selected. -/
def aside : List Call :=
  [.beginMove 2 ⟨0, 0⟩, .dragMove ⟨10, 0⟩ true 0, .dragMove ⟨0, 20⟩ true 0, .endMove 0,
    .selectCable 1 false]

/-- A canvas on which a cable was bent, and then not deleted, since that was tried with another
patch. What the bend had queued was forgotten. -/
def forgotten : Canvas :=
  (((after twin [.beginSegment 1 ⟨65, 60⟩, .dragSegment ⟨65, 70⟩, .endSegment 0,
    .selectCable 1 false]).1.deleteSelection emptied).1)

/-- Not everything is as before: plans that are taken along whole stay elsewhere, others are lost on the
way, wires that are taken out can come back with a plan that was lost, and what is not in the document
stays where it is. -/
theorem undone_differ :
    (¬ ∀ c p, Poised c p → ∀ act : Act, act.Fits c p → act.Records c p → ∀ h, c.Known p h →
      act.Keeps c p h → act.shownRoute? c p h = c.scene.route? h) ∧
    (¬ ∀ c p, Poised c p → ∀ act : Act, act.Fits c p → act.Records c p → ∀ h, c.Known p h →
      act.Keeps c p h → c.scene.Tethered (act.run c p).1.scene h →
        act.shownRoute? c p h = c.scene.route? h) ∧
    (¬ ∀ c p, Poised c p → ∀ act : Act, act.Fits c p → act.Records c p → ∀ h, c.Known p h →
      ¬act.Keeps c p h → p.Sole h → act.shownRoute? c p h = c.scene.route? h) ∧
    (¬ ∀ c p, Poised c p → ∀ act : Act, act.Fits c p → act.Records c p →
      Resemble (act.boxes c p) c.scene.boxes) := by
  refine ⟨fun always => ?_, fun always => ?_, fun always => ?_, fun always => ?_⟩
  · have poised := poised_after (p := stair) [.selectBox 1 false, .selectBox 2 true]
      (by decide +kernel) (by decide +kernel) ⟨by decide, by decide, by decide⟩ rfl
    have same := always _ _ poised (.move descent) (by decide +kernel) (by decide +kernel) 3
      (by decide +kernel) (by decide +kernel)
    revert same
    decide +kernel
  · have poised := poised_after (p := column) [] (by decide +kernel) (by decide +kernel)
      ⟨by decide, by decide, by decide⟩ rfl
    have same := always _ _ poised (.move detour) (by decide +kernel) (by decide +kernel) 3
      (by decide +kernel) (by decide +kernel) (by decide +kernel)
    revert same
    decide +kernel
  · have poised := poised_after (p := column) aside (by decide +kernel) (by decide +kernel)
      ⟨by decide +kernel, by decide +kernel, by decide +kernel⟩ (by decide +kernel)
    have same := always _ _ poised .delete (by decide +kernel) (by decide +kernel) 3
      (by decide +kernel) (by decide +kernel) (by decide +kernel)
    revert same
    decide +kernel
  · have poised := poised_after (p := column)
      [.placeBlank ⟨200, 200⟩, .selectBox 1 false, .selectBox 3 true] (by decide +kernel)
      (by decide +kernel)
      ⟨by decide +kernel, by decide +kernel, by decide +kernel⟩ rfl
    have bounds := (always _ _ poised (.move descent) (by decide +kernel)
      (by decide +kernel)).bounds
    revert bounds
    decide +kernel

/-- None of the conditions can be left out: that no tokens wait for a bend to write them, that a
deletion takes wires out with their tokens, that a new canvas shows the wire too, that no other wire
has its handle, and that no node was shown twice. -/
theorem undone_conditions :
    (¬ ∀ c p, Poised c p → ∀ m, (Act.bend m).Records c p → ∀ h, c.Known p h →
      (Act.bend m).Keeps c p h → (Act.bend m).Faithful c p h →
        (Act.bend m).shownRoute? c p h = c.scene.route? h) ∧
    (¬ ∀ c p, Poised c p → Act.delete.Records c p → ∀ h, c.Known p h → ¬Act.delete.Keeps c p h →
      p.Sole h → Act.delete.shown? c p h = (fresh c.settings p).scene.drawing? h) ∧
    (¬ ∀ c p, Poised c p → ∀ act : Act, act.Fits c p → act.Records c p → ∀ h,
      act.Keeps c p h → act.Faithful c p h → act.shownRoute? c p h = c.scene.route? h) ∧
    (¬ ∀ c p, Poised c p → ∀ act : Act, act.Fits c p → act.Records c p → ∀ h, c.Known p h →
      ¬act.Keeps c p h → act.shown? c p h = (fresh c.settings p).scene.drawing? h) ∧
    (¬ ∀ c (p : Patch), Reached c → (c.sync p).1.drag = .none → p.Sound →
      p.history.sequences = [] → ∀ act : Act, act.Fits (c.sync p).1 (c.sync p).2.1 →
        act.Records (c.sync p).1 (c.sync p).2.1 → Resemble (act.boxes (c.sync p).1 (c.sync p).2.1)
          ((c.sync p).1.scene.boxes.filter (·.2.handle.isSome) ++
            (act.run (c.sync p).1 (c.sync p).2.1).1.scene.blanks)) := by
  refine ⟨fun always => ?_, fun always => ?_, fun always => ?_, fun always => ?_,
    fun always => ?_⟩
  · have poised := poised_sync (c := forgotten) (p := twin)
      ((reached_play {} twin _).call emptied .deleteSelection) (by decide +kernel)
      (by decide +kernel) ⟨by decide, by decide, by decide⟩ rfl
    have same := always _ _ poised ⟨2, ⟨65, 60⟩, [⟨65, 80⟩], 0⟩ (by decide +kernel) 3
      (by decide +kernel) (by decide +kernel) (by decide +kernel)
    revert same
    decide +kernel
  · have poised := poised_after (p := parallel) [.selectCable 2 false] (by decide +kernel)
      (by decide +kernel) ⟨by decide +kernel, by decide +kernel, by decide +kernel⟩ rfl
    have same := always _ _ poised (by decide +kernel) 3 (by decide +kernel) (by decide +kernel)
      (by decide +kernel)
    revert same
    decide +kernel
  · have poised := poised_sync (p := loose) (reached_play {} stair [.call .sync])
      (by decide +kernel) (by decide +kernel) ⟨by decide, by decide, by decide⟩ rfl
    have same := always _ _ poised (.move ⟨2, ⟨0, 0⟩, [⟨⟨0, 30⟩, true, 0⟩], 0⟩)
      (by decide +kernel) (by decide +kernel) 3 (by decide +kernel) (by decide +kernel)
    revert same
    decide +kernel
  · have poised := poised_after (p := shared) aside (by decide +kernel) (by decide +kernel)
      ⟨by decide +kernel, by decide +kernel, by decide +kernel⟩ (by decide +kernel)
    have same := always _ _ poised .delete (by decide +kernel) (by decide +kernel) 3
      (by decide +kernel) (by decide +kernel)
    revert same
    decide +kernel
  · have reached := reached_strayed.call emptied (.commitBlank 3 "b")
    have bounds := (always _ ((Call.commitBlank 3 "b").run strayed emptied).2 reached
      (by decide +kernel) ⟨by decide +kernel, by decide +kernel, by decide +kernel⟩
      (by decide +kernel) (.move ⟨3, ⟨0, 0⟩, [⟨⟨0, 30⟩, true, 0⟩], 0⟩) (by decide +kernel)
      (by decide +kernel)).bounds
    revert bounds
    decide +kernel

end Canvas

end Patchbay
