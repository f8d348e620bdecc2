import Patchbay.Proofs.Budget
import Patchbay.Proofs.Intact
import Patchbay.Proofs.Loyalty
import Patchbay.Proofs.Marks
import Patchbay.Proofs.Trail

/-!
# Routes that are attached

A route is attached when it is straight, or a plan from the outlet of its cable to the inlet. This is
so exactly if re-anchoring leaves it. Most calls either leave a cable where it is, between the same
anchors, or give it a route that is attached.
-/

namespace Patchbay

open Keyed (keys)

namespace Scene

/-- The plan of a cable is one, and goes from its outlet to its inlet. -/
def Attached (s : Scene) (x : Cable) : Prop :=
  ∀ ps, x.route = .segmented ps → ps.isValid = true ∧
    ∃ a b, s.ends? x = some (a, b) ∧ ps.head? = some a ∧ ps.getLast? = some b

def AttachedAt (s : Scene) (h : Nat) : Prop :=
  ∀ x ∈ s.cables, x.2.handle = h → s.Attached x.2

instance (s : Scene) (x : Cable) : Decidable (s.Attached x) :=
  match hr : x.route, he : s.ends? x with
  | .straight, _ => isTrue fun _ h => absurd (hr.symm.trans h) (by simp)
  | .segmented _, none => isFalse fun h => by
    obtain ⟨-, _, _, found, -⟩ := h _ hr
    exact absurd (he.symm.trans found) (by simp)
  | .segmented ps, some (a, b) =>
    decidable_of_iff (ps.isValid = true ∧ ps.head? = some a ∧ ps.getLast? = some b)
      (by simp [Attached, hr, he])

instance (s : Scene) (h : Nat) : Decidable (s.AttachedAt h) :=
  inferInstanceAs (Decidable (∀ x ∈ s.cables, x.2.handle = h → s.Attached x.2))

/-- Each cable of a handle is attached, or has the route and the anchors that it had. -/
def Mends (s t : Scene) (h : Nat) : Prop :=
  ∀ k y, (k, y) ∈ t.cables → y.handle = h → t.Attached y ∨
    ∃ x, (k, x) ∈ s.cables ∧ x.handle = h ∧ y.route = x.route ∧ t.ends? y = s.ends? x

variable {s t u : Scene} {x y : Cable} {a b : Point} {h k : Nat} {f : Nat → Box → Box}
  {g : Nat → Cable → Cable} {r : Route}

theorem attached_iff (anchors : s.ends? x = some (a, b)) :
    s.Attached x ↔ x.route.reanchor a b = x.route := by
  unfold Attached
  cases x.route with
  | straight => simp
  | segmented ps =>
    simp only [Route.segmented.injEq, forall_eq', anchors, Option.some.injEq, Prod.mk.injEq,
      Route.reanchor_eq_segmented_iff]
    constructor
    · rintro ⟨valid, a', b', ⟨rfl, rfl⟩, ends⟩
      exact ⟨valid, valid, (Plan.anchor_eq_self_iff valid).2 ends⟩
    · rintro ⟨valid, -, same⟩
      exact ⟨valid, a, b, ⟨rfl, rfl⟩, (Plan.anchor_eq_self_iff valid).1 same⟩

theorem Attached.congr (attached : s.Attached x) (route : y.route = x.route)
    (ends : t.ends? y = s.ends? x) : t.Attached y := by
  unfold Attached at attached ⊢
  rw [route, ends]
  exact attached

theorem exists_ends (wired : s.isWired x = true) : ∃ a b, s.ends? x = some (a, b) := by
  have found {ref : JackRef} (there : (s.jack? ref).isSome = true) : ∃ p, s.anchor? ref = some p := by
    obtain ⟨b, hb, hlt⟩ := isSome_jack?_iff.1 there
    have hq : b.jack? ref.side ref.index = some (b.jacks ref.side)[ref.index] :=
      (b.jack?_eq ref.side ref.index).trans (List.getElem?_eq_getElem hlt)
    exact ⟨(b.jackBounds (b.jacks ref.side)[ref.index]).centre, by simp [anchor?, jackBounds?, hb, hq]⟩
  simp only [isWired, Bool.and_eq_true] at wired
  obtain ⟨a, ha⟩ := found wired.1
  obtain ⟨b, hb⟩ := found wired.2
  exact ⟨a, b, ends?_eq_some_iff.2 ⟨ha, hb⟩⟩

theorem Mends.attachedAt (mends : s.Mends t h) (attached : s.AttachedAt h) : t.AttachedAt h := by
  rintro ⟨k, y⟩ hy named
  rcases mends k y hy named with held | ⟨x, hx, named', route, ends⟩
  · exact held
  · exact (attached (k, x) hx named').congr route ends

theorem Mends.refl (s : Scene) : s.Mends s h := fun _ y hy named => Or.inr ⟨y, hy, named, rfl, rfl⟩

theorem Mends.trans (first : s.Mends t h) (second : t.Mends u h) : s.Mends u h := by
  intro k z hz named
  rcases second k z hz named with held | ⟨y, hy, named', route, ends⟩
  · exact Or.inl held
  · rcases first k y hy named' with held | ⟨x, hx, named'', route', ends'⟩
    · exact Or.inl (held.congr route ends)
    · exact Or.inr ⟨x, hx, named'', route.trans route', ends.trans ends'⟩

/-! ## Changes to a scene -/

theorem mends_of_anchors (anchors : ∀ ref, t.anchor? ref = s.anchor? ref)
    (cables : t.cableArena = s.cableArena.mapValues g)
    (same : ∀ k x, (g k x).handle = x.handle ∧ (g k x).outlet = x.outlet ∧
      (g k x).inlet = x.inlet ∧ (g k x).route = x.route) : s.Mends t h := by
  intro k y hy named
  rw [Scene.cables, cables, Arena.entries_mapValues] at hy
  obtain ⟨x, hx, made⟩ := Keyed.mem_mapValues.1 hy
  obtain rfl : y = g k x := made
  obtain ⟨handle, outlet, inlet, route⟩ := same k x
  exact Or.inr ⟨x, hx, handle.symm.trans named, route, ends?_congr anchors ⟨outlet, inlet⟩⟩

theorem Marked.mends {g : Nat → Bool} (marked : Marked s t f g) : s.Mends t h :=
  mends_of_anchors marked.anchor? marked.cableArena fun _ _ => ⟨rfl, rfl, rfl, rfl⟩

theorem mends_mapBoxes (boxes : t.boxArena = s.boxArena.mapValues f) (cables : t.cables = s.cables)
    (spots : ∀ k b side i, ((f k b).jack? side i).map (f k b).jackBounds
      = (b.jack? side i).map b.jackBounds) : s.Mends t h := by
  intro k y hy named
  exact Or.inr ⟨y, cables ▸ hy, named, rfl, ends?_congr (anchor?_mapBoxes boxes spots) ⟨rfl, rfl⟩⟩

theorem mends_updateBox (s : Scene) (k : Nat) {f : Box → Box}
    (spots : ∀ b side i, ((f b).jack? side i).map (f b).jackBounds
      = (b.jack? side i).map b.jackBounds) : s.Mends (s.updateBox k f) h := by
  refine mends_mapBoxes (s.boxArena.update_eq_mapValues k f) rfl fun j b side i => ?_
  split
  · exact spots b side i
  · rfl

theorem mends_updateBoxes (s : Scene) (ks : List Nat) {f : Box → Box}
    (spots : ∀ b side i, ((f b).jack? side i).map (f b).jackBounds
      = (b.jack? side i).map b.jackBounds) : s.Mends (s.updateBoxes ks f) h := by
  refine mends_mapBoxes (t := s.updateBoxes ks f)
    (f := fun j b => if ks.contains j then f b else b) rfl rfl fun j b side i => ?_
  split
  · exact spots b side i
  · rfl

theorem mends_target (s : Scene) (ref : JackRef) (on : Bool) :
    s.Mends (s.updateJack ref fun q => { q with targeted := on }) h :=
  mends_updateBox s ref.box fun b => (b.alike_mapJack (f := fun q => { q with targeted := on })
    (fun _ => rfl) (fun _ => rfl) (fun _ => rfl) ref.side ref.index).jackBounds?

theorem mends_of_jacks (tidy : s.Tidy) (cables : t.cables = s.cables)
    (boxes : ∀ k b, s.box? k = some b → (∃ side, b.jacks side ≠ []) → t.box? k = some b) :
    s.Mends t h := by
  intro k y hy named
  have mem : (k, y) ∈ s.cables := cables ▸ hy
  have wired := tidy.wired _ mem
  have anchors {ref : JackRef} (there : (s.jack? ref).isSome = true) :
      t.anchor? ref = s.anchor? ref := by
    obtain ⟨b, found, hlt⟩ := isSome_jack?_iff.1 there
    have stays := boxes ref.box b found ⟨ref.side, fun none => by simp [none] at hlt⟩
    simp only [anchor?, jackBounds?, found, stays]
  simp only [isWired, Bool.and_eq_true] at wired
  refine Or.inr ⟨y, mem, named, rfl, ?_⟩
  simp only [ends?, anchors wired.1, anchors wired.2]

theorem mends_addBox (tidy : s.Tidy) (b : Box) : s.Mends (s.addBox b).2 h := by
  refine mends_of_jacks tidy rfl fun k a found _ => ?_
  have old : k ≠ s.nextBox := Nat.ne_of_lt (Arena.lt_next found)
  rw [box?_addBox, if_neg old, found]

theorem mends_foldl_removeBox (tidy : s.Tidy) (regular : s.Regular) {ks : List Nat}
    (blank : ∀ k ∈ ks, ∀ b, s.box? k = some b → b.handle = none) :
    s.Mends (ks.foldl removeBox s) h := by
  have cables := cables_congr (cableArena_foldl_removeBox ks s)
  refine mends_of_jacks tidy cables fun k b found ⟨side, jacks⟩ => ?_
  have mem : (k, b) ∈ s.boxes := mem_boxes regular.boxOrder found
  have stays : k ∉ ks := fun gone => jacks (tidy.bare _ mem (blank k gone b found) side)
  refine box?_of_mem ?_
  rw [boxes_foldl_removeBox]
  exact List.mem_filter.2 ⟨mem, by simpa using stays⟩

theorem mends_updateCable (s : Scene) (k : Nat) {f : Cable → Cable}
    (same : ∀ x, (f x).handle = x.handle ∧ (f x).outlet = x.outlet ∧ (f x).inlet = x.inlet ∧
      (f x).route = x.route) : s.Mends (s.updateCable k f) h := by
  refine mends_of_anchors (fun _ => rfl) (s.cableArena.update_eq_mapValues k f) fun j x => ?_
  split
  · exact same x
  · exact ⟨rfl, rfl, rfl, rfl⟩

theorem mends_updateRoute (tidy : s.Tidy) (held : ∀ x a b, (k, x) ∈ s.cables → x.handle = h →
      s.ends? x = some (a, b) → r.reanchor a b = r) :
    s.Mends (s.updateCable k fun x => { x with route := r }) h := by
  intro j y hy named
  rw [cables_updateCable] at hy
  rcases Keyed.of_mem_update hy with ⟨mem, -⟩ | ⟨x, hx, same⟩
  · exact Or.inr ⟨y, mem, named, rfl, rfl⟩
  · obtain ⟨rfl, rfl⟩ := Prod.mk.inj same
    obtain ⟨a, b, ends⟩ := exists_ends (tidy.wired _ hx)
    exact Or.inl ((attached_iff (x := { x with route := r }) ends).2 (held x a b hx named ends))

theorem anchors?_of_mem (mem : (k, x) ∈ s.cables) : s.anchors? k = s.ends? x := by
  rw [anchors?, cable?_of_mem mem, Option.bind_some]

theorem mends_updateRoute_of_anchors (tidy : s.Tidy)
    (anchors : s.anchors? k = some (a, b)) (held : r.reanchor a b = r) :
    s.Mends (s.updateCable k fun x => { x with route := r }) h := by
  refine mends_updateRoute tidy fun x a' b' mem _ ends => ?_
  rw [← anchors?_of_mem mem, anchors] at ends
  obtain ⟨rfl, rfl⟩ := Prod.mk.inj (Option.some.inj ends)
  exact held

end Scene

theorem Route.reanchor_around (start stop : Point) (obstacles : List Rect)
    (settings : RoutingSettings) : (Route.around start stop obstacles settings).reanchor start stop
      = Route.around start stop obstacles settings := by
  unfold Route.around
  split
  · next ps found =>
    have route := Lattice.admissible_of_findPlan found
    split
    · next bent =>
      have valid := route.isValid bent
      exact Route.reanchor_eq_segmented_iff.2
        ⟨valid, valid, (Plan.anchor_eq_self_iff valid).2 ⟨route.begins, route.ends⟩⟩
    · rfl
  · rfl

namespace Canvas

open Scene (Mends)

variable {δ : Type} [Document δ] {c : Canvas} {d : δ} {h key now : Nat} {position : Point}

theorem mends_markSelection (c : Canvas) : c.scene.Mends c.markSelection.scene h :=
  (Scene.marked_mark c.selection c.scene).mends

theorem mends_clearTarget (c : Canvas) : c.scene.Mends c.clearTarget.scene h := by
  unfold clearTarget
  split
  · exact .refl _
  · exact Scene.mends_target _ _ _

theorem mends_aim (c : Canvas) (target : Option JackRef) : c.scene.Mends (c.aim target).scene h := by
  unfold aim
  split
  · exact .refl _
  · split
    · exact mends_clearTarget c
    · dsimp only
      split
      · exact (mends_clearTarget c).trans (Scene.mends_target _ _ _)
      · exact mends_clearTarget c

theorem mends_dropLostDrag (c : Canvas) : c.scene.Mends c.dropLostDrag.scene h := by
  unfold dropLostDrag
  split
  · exact mends_clearTarget _
  · exact .refl _

theorem mends_selectBox (c : Canvas) (key : Nat) (toggle : Bool) :
    c.scene.Mends (c.selectBox key toggle).scene h := by
  unfold selectBox
  split
  · exact .refl _
  · exact mends_markSelection _

theorem mends_selectCable (c : Canvas) (key : Nat) (toggle : Bool) :
    c.scene.Mends (c.selectCable key toggle).scene h := by
  unfold selectCable
  split
  · exact .refl _
  · exact mends_markSelection _

theorem mends_beginLasso (c : Canvas) (position : Point) :
    c.scene.Mends (c.beginLasso position).1.scene h := by
  unfold beginLasso
  split
  · exact .refl _
  · exact mends_markSelection _

theorem mends_updateLasso (c : Canvas) (position : Point) :
    c.scene.Mends (c.updateLasso position).scene h := by
  unfold updateLasso
  split <;> exact .refl _

theorem mends_endLasso (c : Canvas) : c.scene.Mends c.endLasso.1.scene h := by
  unfold endLasso
  split
  · exact mends_markSelection _
  · exact .refl _

theorem mends_beginMove (c : Canvas) (grabbed : Nat) (position : Point) :
    c.scene.Mends (c.beginMove grabbed position).1.scene h := by
  unfold beginMove
  split
  · exact .refl _
  · dsimp only
    refine Mends.trans ?_ (Scene.mends_updateBoxes _ _ fun b => Box.jackBounds?_congr rfl fun side =>
      by cases side <;> rfl)
    split
    · exact .refl _
    · exact mends_markSelection _

theorem mends_beginResize (c : Canvas) (key : Nat) (edges : Edges) (position : Point) :
    c.scene.Mends (c.beginResize key edges position).1.scene h := by
  unfold beginResize
  split
  · exact .refl _
  · exact Scene.mends_updateBox _ _ fun b => Box.jackBounds?_congr rfl fun side =>
      by cases side <;> rfl

theorem mends_endResize (c : Canvas) (d : δ) : c.scene.Mends (c.endResize d).1.scene h := by
  unfold endResize
  split
  · dsimp only
    split
    · exact .refl _
    · split
      · exact .refl _
      · split <;> exact .refl _
  · exact .refl _

theorem mends_beginConnection (c : Canvas) (jack : JackRef) (multi : Bool) :
    c.scene.Mends (c.beginConnection jack multi).1.scene h := by
  unfold beginConnection
  split
  · exact .refl _
  · split <;> exact .refl _

theorem mends_dragConnection (c : Canvas) (position : Point) :
    c.scene.Mends (c.dragConnection position).1.scene h := by
  unfold dragConnection
  split
  · dsimp only
    split
    · exact .refl _
    · exact mends_aim _ _
  · exact .refl _

theorem mends_endConnection (c : Canvas) (d : δ) : c.scene.Mends (c.endConnection d).1.scene h := by
  unfold endConnection
  split
  · dsimp only
    split
    · exact mends_clearTarget _
    · split <;> exact mends_clearTarget _
  · exact .refl _

theorem mends_cancelConnection (c : Canvas) : c.scene.Mends c.cancelConnection.scene h := by
  unfold cancelConnection
  split
  · exact mends_clearTarget _
  · exact .refl _

theorem mends_beginSegment (c : Canvas) (key : Nat) (position : Point) :
    c.scene.Mends (c.beginSegment key position).1.scene h := by
  unfold beginSegment
  split
  · exact .refl _
  · split
    · split
      · exact .refl _
      · split <;> exact .refl _
    · exact .refl _

theorem mends_pushToken (c : Canvas) (d : δ) (key : Nat) (token : String) (now : Nat) :
    c.scene.Mends (c.pushToken d key token now).1.scene h := by
  unfold pushToken
  split
  · exact .refl _
  · exact Scene.mends_updateCable _ _ fun _ => ⟨rfl, rfl, rfl, rfl⟩

theorem mends_endSegment (c : Canvas) (d : δ) (now : Nat) :
    c.scene.Mends (c.endSegment d now).1.scene h := by
  unfold endSegment
  split
  · dsimp only
    split
    · split
      · exact .refl _
      · exact mends_pushToken _ d _ _ _
    · exact .refl _
  · exact .refl _

theorem mends_markSaved (c : Canvas) : c.scene.Mends c.markSaved.scene h :=
  Scene.mends_of_anchors (g := fun _ x => { x with unsaved := false }) (fun _ => rfl) rfl fun _ _ =>
    ⟨rfl, rfl, rfl, rfl⟩

theorem mends_tick (c : Canvas) (d : δ) (now : Nat) : c.scene.Mends (c.tick d now).1.scene h := by
  unfold tick
  dsimp only
  split
  · exact mends_markSaved _
  · exact .refl _

theorem mends_placeBlank (tidy : c.scene.Tidy) (position : Point) :
    c.scene.Mends (c.placeBlank position).1.scene h := by
  unfold placeBlank
  split
  · exact .refl _
  · exact (Scene.mends_addBox tidy _).trans (mends_markSelection _)

theorem mends_cancelBlank (tidy : c.scene.Tidy) (regular : c.scene.Regular) (key : Nat) :
    c.scene.Mends (c.cancelBlank key).1.scene h := by
  unfold cancelBlank
  split
  · next blank =>
    have gone : ∀ k ∈ [key], ∀ b, c.scene.box? k = some b → b.handle = none := by
      intro k hk b found
      rw [List.mem_singleton.1 hk] at found
      simpa [found] using blank
    exact Scene.mends_foldl_removeBox tidy regular gone
  · exact .refl _

theorem mends_commitBlank (tidy : c.scene.Tidy) (regular : c.scene.Regular) (d : δ) (key : Nat)
    (text : String) : c.scene.Mends (c.commitBlank d key text).1.scene h := by
  unfold commitBlank
  split
  · exact .refl _
  · split
    · exact .refl _
    · dsimp only
      split
      · exact mends_cancelBlank tidy regular key
      · split
        · exact .refl _
        · exact Scene.mends_updateBox _ _ fun b => Box.jackBounds?_congr rfl fun side =>
            by cases side <;> rfl

theorem mends_deleteSelection (tidy : c.scene.Tidy) (regular : c.scene.Regular) (d : δ) :
    c.scene.Mends (c.deleteSelection d).1.scene h := by
  have gone := Scene.mends_foldl_removeBox (h := h) tidy regular (blank_uncommitted c)
  unfold deleteSelection
  split
  · exact .refl _
  · dsimp only
    split
    · split <;> exact .refl _
    · split <;> exact gone.trans (mends_markSelection _)

theorem mends_routeCable (tidy : c.scene.Tidy) (d : δ) (key now : Nat) :
    c.scene.Mends (c.routeCable d key now).1.scene h := by
  unfold routeCable
  split
  · next anchors =>
    refine Mends.trans ?_ (mends_pushToken _ d _ _ _)
    exact Scene.mends_updateRoute_of_anchors tidy anchors (Route.reanchor_around _ _ _ _)
  · exact .refl _

theorem mends_routeBlocked (tidy : c.scene.Tidy) (d : δ) (moved : List Nat) (now : Nat) :
    c.scene.Mends (c.routeBlocked d moved now).1.scene h := by
  refine (routeBlocked_induction (P := fun state => state.1.scene.outline = c.scene.outline ∧
    c.scene.Mends state.1.scene h) moved now ?_ ⟨rfl, .refl _⟩).2
  rintro b e key ⟨outline, mends⟩
  have routed := mends_routeCable (h := h) (tidy.of_outline outline) e key now
  exact ⟨(outline_routeCable b e key now).trans outline, mends.trans routed⟩

theorem mends_straightenCable (tidy : c.scene.Tidy) (d : δ) (key now : Nat) :
    c.scene.Mends (c.straightenCable d key now).1.scene h := by
  unfold straightenCable
  split
  · exact .refl _
  · exact (Scene.mends_updateRoute tidy fun _ _ _ _ _ _ => rfl).trans (mends_pushToken _ d _ _ _)

theorem mends_reanchorCable (tidy : c.scene.Tidy) (key : Nat) :
    c.scene.Mends (c.reanchorCable key).1.scene h := by
  unfold reanchorCable
  split
  · next anchors =>
    exact Scene.mends_updateRoute_of_anchors tidy anchors (Route.reanchor_self _ _ _)
  · exact .refl _

theorem mends_dragSegment (tidy : c.scene.Tidy) (position : Point) :
    c.scene.Mends (c.dragSegment position).1.scene h := by
  unfold dragSegment
  split
  · split
    · exact .refl _
    · next anchors =>
      split
      · exact .refl _
      · exact Scene.mends_updateRoute_of_anchors tidy anchors (Route.reanchor_self _ _ _)
  · exact .refl _

/-- A pass leaves a cable attached if its handle stands for one wire. -/
theorem attachedAt_sync {p : Patch} (joined : Joined c p) (loyal : Scene.Loyal p c.scene h) :
    (c.sync p).1.scene.AttachedAt h := by
  obtain ⟨shown, t, report, course⟩ := joined.wf.course (c := p.toContents) joined.bounded.nodup
  have drawn : (c.scene.reconcile p.toContents.listing).1.AttachedAt h := by
    intro x hx named
    obtain ⟨e, -, -, outlet, inlet, a, b, -, -, ha, hb, old, -, draft⟩ :=
      course.loyal_drawnBy joined.wf joined.bounded.nodup rfl loyal hx named
    obtain ⟨-, houtlet, hinlet⟩ := draft.ends
    refine (Scene.attached_iff (Scene.ends?_eq_some_iff.2 ⟨?_, ?_⟩)).2 draft.reanchor_eq
    · rw [houtlet, ha]
    · rw [hinlet, hb]
  have marked := (mends_markSelection (h := h) { c with
    scene := (c.scene.reconcile p.toContents.listing).1, syncPending := false
    selection := c.selection.retain (c.scene.reconcile p.toContents.listing).1 }).trans
      (mends_dropLostDrag _)
  exact marked.attachedAt drawn

end Canvas

end Patchbay
