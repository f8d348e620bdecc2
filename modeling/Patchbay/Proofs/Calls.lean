import Patchbay.Canvas.Align
import Patchbay.Canvas.Connect
import Patchbay.Canvas.Create
import Patchbay.Canvas.Delete
import Patchbay.Canvas.Move
import Patchbay.Canvas.Resize
import Patchbay.Canvas.Sync
import Patchbay.Proofs.Mutation
import Patchbay.Proofs.Outline

/-!
# What the calls of a canvas do to its scene

Most calls leave the outline of the scene as it is. The others reconcile it, place a box, drop some,
or give one the handle of a node that was just made. So every scene that calls can bring about is
regular, whatever documents they were made with.
-/

namespace Patchbay

namespace Canvas

inductive Call where
  | setSettings (settings : CanvasSettings)
  | setViewport (viewport : Viewport)
  | setGridOrigin (origin : Point)
  | setLocked (locked : Bool)
  | sync
  | idle
  | requestSync
  | selectBox (key : Nat) (toggle : Bool)
  | selectCable (key : Nat) (toggle : Bool)
  | deselectAll
  | beginLasso (position : Point)
  | updateLasso (position : Point)
  | endLasso
  | beginMove (grabbed : Nat) (position : Point)
  | dragMove (position : Point) (bypass : Bool) (now : Nat)
  | endMove (now : Nat)
  | beginResize (key : Nat) (edges : Edges) (position : Point)
  | dragResize (position : Point) (bypass : Bool) (now : Nat)
  | endResize
  | deleteSelection
  | alignSelection (alignment : Alignment)
  | beginConnection (jack : JackRef) (multi : Bool)
  | dragConnection (position : Point)
  | endConnection
  | cancelConnection
  | beginSegment (key : Nat) (position : Point)
  | dragSegment (position : Point)
  | endSegment (now : Nat)
  | cancelSegment
  | cancelDrag
  | routeCable (key now : Nat)
  | straightenCable (key now : Nat)
  | reanchorCable (key : Nat)
  | pushToken (key : Nat) (token : String) (now : Nat)
  | tick (now : Nat)
  | flushTokens
  | placeBlank (position : Point)
  | commitBlank (key : Nat) (text : String)
  | cancelBlank (key : Nat)

variable {δ : Type} [Document δ]

def Call.run (c : Canvas) (d : δ) : Call → Canvas × δ
  | setSettings settings => (c.setSettings settings, d)
  | setViewport viewport => ({ c with viewport := viewport }, d)
  | setGridOrigin origin => ({ c with gridOrigin := origin }, d)
  | setLocked locked => (c.setLocked locked, d)
  | sync => ((c.sync d).1, (c.sync d).2.1)
  | idle => ((c.idle d).1, (c.idle d).2.1)
  | requestSync => (c.requestSync, d)
  | selectBox key toggle => (c.selectBox key toggle, d)
  | selectCable key toggle => (c.selectCable key toggle, d)
  | deselectAll => (c.deselectAll, d)
  | beginLasso position => ((c.beginLasso position).1, d)
  | updateLasso position => (c.updateLasso position, d)
  | endLasso => (c.endLasso.1, d)
  | beginMove grabbed position => ((c.beginMove grabbed position).1, d)
  | dragMove position bypass now => ((c.dragMove position bypass now).1, d)
  | endMove now => ((c.endMove d now).1, (c.endMove d now).2.1)
  | beginResize key edges position => ((c.beginResize key edges position).1, d)
  | dragResize position bypass now => ((c.dragResize position bypass now).1, d)
  | endResize => ((c.endResize d).1, (c.endResize d).2.1)
  | deleteSelection => ((c.deleteSelection d).1, (c.deleteSelection d).2.1)
  | alignSelection a => ((c.alignSelection d a).1, (c.alignSelection d a).2.1)
  | beginConnection jack multi => ((c.beginConnection jack multi).1, d)
  | dragConnection position => ((c.dragConnection position).1, d)
  | endConnection => ((c.endConnection d).1, (c.endConnection d).2.1)
  | cancelConnection => (c.cancelConnection, d)
  | beginSegment key position => ((c.beginSegment key position).1, d)
  | dragSegment position => ((c.dragSegment position).1, d)
  | endSegment now => ((c.endSegment d now).1, (c.endSegment d now).2.1)
  | cancelSegment => (c.cancelSegment, d)
  | cancelDrag => (c.cancelDrag, d)
  | routeCable key now => ((c.routeCable d key now).1, (c.routeCable d key now).2.1)
  | straightenCable key now => ((c.straightenCable d key now).1, (c.straightenCable d key now).2.1)
  | reanchorCable key => ((c.reanchorCable key).1, d)
  | pushToken key token now => c.pushToken d key token now
  | tick now => ((c.tick d now).1, (c.tick d now).2.1)
  | flushTokens => ((c.flushTokens d).1, (c.flushTokens d).2.1)
  | placeBlank position => ((c.placeBlank position).1, d)
  | commitBlank key text => ((c.commitBlank d key text).1, (c.commitBlank d key text).2.1)
  | cancelBlank key => ((c.cancelBlank key).1, d)

/-- A canvas that calls have brought about, each of them made with whatever document. -/
inductive Reached : Canvas → Prop
  | ofSettings (settings : CanvasSettings) : Reached (ofSettings settings)
  | call {δ : Type} [Document δ] {c : Canvas} (reached : Reached c) (d : δ) (call : Call) :
      Reached (call.run c d).1

/-! ## Calls that leave the outline -/

variable {c : Canvas} {d : δ} {key now : Nat} {position : Point}

@[simp] theorem outline_markSelection (c : Canvas) :
    c.markSelection.scene.outline = c.scene.outline :=
  Scene.outline_mark c.selection c.scene

@[simp] theorem outline_clearTarget (c : Canvas) :
    c.clearTarget.scene.outline = c.scene.outline := by
  unfold clearTarget
  split
  · rfl
  · exact Scene.outline_updateJack (by exact fun _ => rfl) _ _

@[simp] theorem outline_aim (c : Canvas) (target : Option JackRef) :
    (c.aim target).scene.outline = c.scene.outline := by
  unfold aim
  split
  · rfl
  · split
    · exact outline_clearTarget c
    · dsimp only
      split
      · exact (Scene.outline_updateJack (by exact fun _ => rfl) _ _).trans (outline_clearTarget c)
      · exact outline_clearTarget c

@[simp] theorem outline_follow (c : Canvas) (moved : List Nat) :
    (c.follow moved).scene.outline = c.scene.outline :=
  Scene.outline_mapCables fun _ x => Scene.joint_eq_iff.2 (followMoved_ends c.scene moved x)

@[simp] theorem outline_showOffset (c : Canvas) (offset : Point) :
    (c.showOffset offset).scene.outline = c.scene.outline := by
  refine (outline_follow _ _).trans ?_
  exact Scene.outline_updateBoxes (by exact fun _ => rfl) _

@[simp] theorem outline_pushToken (c : Canvas) (d : δ) (key : Nat) (token : String) (now : Nat) :
    (c.pushToken d key token now).1.scene.outline = c.scene.outline := by
  unfold pushToken
  split
  · rfl
  · exact Scene.outline_updateCable (by exact fun _ => rfl)

@[simp] theorem outline_markSaved (c : Canvas) : c.markSaved.scene.outline = c.scene.outline :=
  Scene.outline_mapCables (by exact fun _ _ => rfl)

@[simp] theorem outline_routeCable (c : Canvas) (d : δ) (key now : Nat) :
    (c.routeCable d key now).1.scene.outline = c.scene.outline := by
  unfold routeCable
  split
  · refine (outline_pushToken ..).trans ?_
    exact Scene.outline_updateCable (by exact fun _ => rfl)
  · rfl

theorem routeBlocked_induction {P : Canvas × δ → Prop} (moved : List Nat) (now : Nat)
    (step : ∀ b e key, P (b, e) → P ((b.routeCable e key now).1, (b.routeCable e key now).2.1))
    (base : P (c, d)) : P (c.routeBlocked d moved now) := by
  refine List.foldlRecOn (motive := P) _ _ base ?_
  rintro ⟨b, e⟩ held key -
  simp only [routeIfBlocked]
  split
  · split
    · exact step b e key held
    · exact held
  · exact held

theorem outline_routeBlocked (c : Canvas) (d : δ) (moved : List Nat) (now : Nat) :
    (c.routeBlocked d moved now).1.scene.outline = c.scene.outline :=
  routeBlocked_induction (P := fun state => state.1.scene.outline = c.scene.outline) moved now
    (fun b e key same => (outline_routeCable b e key now).trans same) rfl

theorem outline_cancelSegment (c : Canvas) : c.cancelSegment.scene.outline = c.scene.outline := by
  unfold cancelSegment
  split
  · exact Scene.outline_updateCable (by exact fun _ => rfl)
  · rfl

@[simp] theorem outline_cancelDrag (c : Canvas) : c.cancelDrag.scene.outline = c.scene.outline := by
  unfold cancelDrag
  split
  · rfl
  · refine (outline_follow _ _).trans ?_
    exact Scene.outline_updateBoxes (by exact fun _ => rfl) _
  · refine (outline_follow _ _).trans ?_
    exact Scene.outline_updateBox fun b => Box.tag_layoutJacks { b with bounds := b.home }
  · exact outline_clearTarget _
  · exact outline_cancelSegment c
  · rfl

@[simp] theorem outline_dropLostDrag (c : Canvas) :
    c.dropLostDrag.scene.outline = c.scene.outline := by
  unfold dropLostDrag
  split
  · exact outline_clearTarget _
  · rfl

theorem outline_setLocked (c : Canvas) (locked : Bool) :
    (c.setLocked locked).scene.outline = c.scene.outline := by
  unfold setLocked
  split
  · exact (outline_markSelection _).trans (outline_cancelDrag c)
  · rfl

theorem outline_selectBox (c : Canvas) (key : Nat) (toggle : Bool) :
    (c.selectBox key toggle).scene.outline = c.scene.outline := by
  unfold selectBox
  split
  · rfl
  · exact outline_markSelection _

theorem outline_selectCable (c : Canvas) (key : Nat) (toggle : Bool) :
    (c.selectCable key toggle).scene.outline = c.scene.outline := by
  unfold selectCable
  split
  · rfl
  · exact outline_markSelection _

theorem outline_beginLasso (c : Canvas) (position : Point) :
    (c.beginLasso position).1.scene.outline = c.scene.outline := by
  unfold beginLasso
  split
  · rfl
  · exact outline_markSelection _

theorem outline_updateLasso (c : Canvas) (position : Point) :
    (c.updateLasso position).scene.outline = c.scene.outline := by
  unfold updateLasso
  split <;> rfl

theorem outline_endLasso (c : Canvas) : c.endLasso.1.scene.outline = c.scene.outline := by
  unfold endLasso
  split
  · exact outline_markSelection _
  · rfl

theorem outline_beginMove (c : Canvas) (grabbed : Nat) (position : Point) :
    (c.beginMove grabbed position).1.scene.outline = c.scene.outline := by
  unfold beginMove
  split
  · rfl
  · dsimp only
    refine (Scene.outline_updateBoxes (by exact fun _ => rfl) _).trans ?_
    split
    · rfl
    · exact outline_markSelection _

theorem outline_dragMove (c : Canvas) (position : Point) (bypass : Bool) (now : Nat) :
    (c.dragMove position bypass now).1.scene.outline = c.scene.outline := by
  unfold dragMove
  split
  · split
    · rfl
    · exact outline_showOffset _ _
  · rfl

theorem outline_endMove (c : Canvas) (d : δ) (now : Nat) :
    (c.endMove d now).1.scene.outline = c.scene.outline := by
  unfold endMove
  split
  · dsimp only
    split
    · exact outline_showOffset _ _
    · split
      · exact outline_showOffset _ _
      · split
        · exact (outline_routeBlocked _ _ _ _).trans (outline_showOffset _ _)
        · exact outline_showOffset _ _
  · rfl

theorem outline_beginResize (c : Canvas) (key : Nat) (edges : Edges) (position : Point) :
    (c.beginResize key edges position).1.scene.outline = c.scene.outline := by
  unfold beginResize
  split
  · rfl
  · exact Scene.outline_updateBox fun _ => rfl

theorem outline_dragResize (c : Canvas) (position : Point) (bypass : Bool) (now : Nat) :
    (c.dragResize position bypass now).1.scene.outline = c.scene.outline := by
  unfold dragResize
  split
  · split
    · rfl
    · refine (outline_follow _ _).trans ?_
      exact Scene.outline_updateBox fun b => Box.tag_layoutJacks { b with bounds := _ }
  · rfl

theorem outline_endResize (c : Canvas) (d : δ) :
    (c.endResize d).1.scene.outline = c.scene.outline := by
  unfold endResize
  split
  · dsimp only
    split
    · rfl
    · split
      · rfl
      · split <;> rfl
  · rfl

theorem placed_foldl (s : Scene) (moves : Keyed (Nat × Point)) :
    (moves.foldl placeBox s).outline = s.outline ∧ (moves.foldl placeBox s).cableArena = s.cableArena ∧
      ∀ k, (Keyed.keys moves).contains k = false → (moves.foldl placeBox s).box? k = s.box? k := by
  induction moves generalizing s with
  | nil => exact ⟨rfl, rfl, fun _ _ => rfl⟩
  | cons m moves ih =>
    obtain ⟨outline, cables, apart⟩ := ih (placeBox s m)
    refine ⟨outline.trans (Scene.outline_updateBox fun _ => rfl), cables, fun k out => ?_⟩
    simp only [Keyed.keys, List.map_cons, List.contains_cons, Bool.or_eq_false_iff,
      beq_eq_false_iff_ne] at out
    exact (apart k out.2).trans (Scene.box?_updateBox_ne out.1 _)

theorem outline_alignSelection (c : Canvas) (d : δ) (a : Alignment) :
    (c.alignSelection d a).1.scene.outline = c.scene.outline := by
  unfold alignSelection
  split
  · rfl
  · dsimp only
    split
    · rfl
    · split
      · rfl
      · exact (outline_follow _ _).trans (placed_foldl c.scene _).1

theorem outline_beginConnection (c : Canvas) (jack : JackRef) (multi : Bool) :
    (c.beginConnection jack multi).1.scene.outline = c.scene.outline := by
  unfold beginConnection
  split
  · rfl
  · split <;> rfl

theorem outline_dragConnection (c : Canvas) (position : Point) :
    (c.dragConnection position).1.scene.outline = c.scene.outline := by
  unfold dragConnection
  split
  · dsimp only
    split
    · rfl
    · exact outline_aim _ _
  · rfl

theorem outline_endConnection (c : Canvas) (d : δ) :
    (c.endConnection d).1.scene.outline = c.scene.outline := by
  unfold endConnection
  split
  · dsimp only
    split
    · exact outline_clearTarget _
    · split
      · exact outline_clearTarget _
      · exact outline_clearTarget _
  · rfl

theorem outline_cancelConnection (c : Canvas) :
    c.cancelConnection.scene.outline = c.scene.outline := by
  unfold cancelConnection
  split
  · exact outline_clearTarget _
  · rfl

theorem outline_beginSegment (c : Canvas) (key : Nat) (position : Point) :
    (c.beginSegment key position).1.scene.outline = c.scene.outline := by
  unfold beginSegment
  split
  · rfl
  · split
    · split
      · rfl
      · split <;> rfl
    · rfl

theorem outline_dragSegment (c : Canvas) (position : Point) :
    (c.dragSegment position).1.scene.outline = c.scene.outline := by
  unfold dragSegment
  split
  · split
    · rfl
    · split
      · rfl
      · exact Scene.outline_updateCable (by exact fun _ => rfl)
  · rfl

theorem outline_endSegment (c : Canvas) (d : δ) (now : Nat) :
    (c.endSegment d now).1.scene.outline = c.scene.outline := by
  unfold endSegment
  split
  · dsimp only
    split
    · split
      · rfl
      · exact outline_pushToken _ _ _ _ _
    · rfl
  · rfl

theorem outline_straightenCable (c : Canvas) (d : δ) (key now : Nat) :
    (c.straightenCable d key now).1.scene.outline = c.scene.outline := by
  unfold straightenCable
  split
  · rfl
  · refine (outline_pushToken ..).trans ?_
    exact Scene.outline_updateCable (by exact fun _ => rfl)

theorem outline_reanchorCable (c : Canvas) (key : Nat) :
    (c.reanchorCable key).1.scene.outline = c.scene.outline := by
  unfold reanchorCable
  split
  · exact Scene.outline_updateCable (by exact fun _ => rfl)
  · rfl

theorem outline_tick (c : Canvas) (d : δ) (now : Nat) :
    (c.tick d now).1.scene.outline = c.scene.outline := by
  unfold tick
  dsimp only
  split
  · exact outline_markSaved _
  · rfl

/-! ## Calls that change the outline -/

/-- What becomes of a scene and a document. Only the outline of the new scene is told. -/
inductive Outcome (s : Scene) (d : δ) (t : Scene) (e : δ) : Prop
  | same (outline : t.outline = s.outline)
  | reconciled (outline : t.outline
      = (s.reconcile (Document.listing (Document.deliver (Document.deliver d)))).1.outline)
  | placed (position : Point) (outline : t.outline = (s.addBox (Box.blank position)).2.outline)
  | dropped (keys : List Nat) (blank : ∀ k ∈ keys, ∀ b, s.box? k = some b → b.handle = none)
      (outline : t.outline = (keys.foldl Scene.removeBox s).outline)
  | committed (key handle : Nat) (text : String) (position : Point) (made : δ)
      (blank : ∀ b, s.box? key = some b → b.handle = none)
      (created : Document.createNode (Document.openSequence d createLabel) text position
        = .ok (handle, made))
      (closed : e = Document.closeSequence made)
      (outline : t.outline = (s.updateBox key fun b =>
        { b with handle := some handle, editing := false }).outline)

theorem outcome_sync (c : Canvas) (d : δ) :
    Outcome c.scene d (c.sync d).1.scene (c.sync d).2.1 :=
  .reconciled ((outline_dropLostDrag _).trans (outline_markSelection _))

theorem outcome_idle (c : Canvas) (d : δ) :
    Outcome c.scene d (c.idle d).1.scene (c.idle d).2.1 := by
  unfold idle
  split
  · exact .same rfl
  · exact outcome_sync c d

theorem outcome_placeBlank (c : Canvas) (d : δ) (position : Point) :
    Outcome c.scene d (c.placeBlank position).1.scene d := by
  unfold placeBlank
  split
  · exact .same rfl
  · exact .placed position (outline_markSelection _)

theorem outcome_cancelBlank (c : Canvas) (d e : δ) (key : Nat) :
    Outcome c.scene d (c.cancelBlank key).1.scene e := by
  unfold cancelBlank
  split
  · next blank =>
    refine .dropped [key] ?_ rfl
    intro k hk b found
    rw [List.mem_singleton.1 hk] at found
    simpa [found] using blank
  · exact .same rfl

theorem blank_uncommitted (c : Canvas) : ∀ k ∈ Keyed.keys ((c.selection.boxes.filterMap fun key =>
      (c.scene.box? key).map fun b => (key, b)).filter fun e => e.2.handle.isNone),
    ∀ b, c.scene.box? k = some b → b.handle = none := by
  intro k hk b found
  obtain ⟨e, he, rfl⟩ := List.mem_map.1 hk
  obtain ⟨he, none⟩ := List.mem_filter.1 he
  obtain ⟨key, -, some⟩ := List.mem_filterMap.1 he
  obtain ⟨a, ha, rfl⟩ := Option.map_eq_some_iff.1 some
  obtain rfl : a = b := Option.some.inj (ha.symm.trans found)
  simpa using none

theorem outcome_deleteSelection (c : Canvas) (d : δ) :
    Outcome c.scene d (c.deleteSelection d).1.scene (c.deleteSelection d).2.1 := by
  have blank := blank_uncommitted c
  unfold deleteSelection
  split
  · exact .same rfl
  · dsimp only
    split
    · split
      · exact .same rfl
      · exact .same rfl
    · split
      · exact .dropped _ blank (outline_markSelection _)
      · exact .dropped _ blank (outline_markSelection _)

theorem outcome_commitBlank (c : Canvas) (d : δ) (key : Nat) (text : String) :
    Outcome c.scene d (c.commitBlank d key text).1.scene (c.commitBlank d key text).2.1 := by
  unfold commitBlank
  split
  · exact .same rfl
  · next b found =>
    split
    · exact .same rfl
    · next blank =>
      have none : ∀ a, c.scene.box? key = some a → a.handle = none := by
        intro a there
        obtain rfl : b = a := Option.some.inj (found.symm.trans there)
        simpa using blank
      dsimp only
      split
      · exact outcome_cancelBlank c d d key
      · cases created : Document.createNode (Document.openSequence d createLabel)
            (String.ofList (Text.trim text.toList)) b.content.position with
        | error e =>
          simp only [Document.inSequence, createOne, created]
          exact .same rfl
        | ok result =>
          obtain ⟨handle, made⟩ := result
          simp only [Document.inSequence, createOne, created]
          exact .committed key handle _ _ made none created rfl rfl

theorem Call.outcome (call : Call) (c : Canvas) (d : δ) :
    Outcome c.scene d (call.run c d).1.scene (call.run c d).2 := by
  cases call with
  | setSettings _ => exact .same rfl
  | setViewport _ => exact .same rfl
  | setGridOrigin _ => exact .same rfl
  | setLocked locked => exact .same (outline_setLocked c locked)
  | sync => exact outcome_sync c d
  | idle => exact outcome_idle c d
  | requestSync => exact .same rfl
  | selectBox key toggle => exact .same (outline_selectBox c key toggle)
  | selectCable key toggle => exact .same (outline_selectCable c key toggle)
  | deselectAll => exact .same (outline_markSelection _)
  | beginLasso position => exact .same (outline_beginLasso c position)
  | updateLasso position => exact .same (outline_updateLasso c position)
  | endLasso => exact .same (outline_endLasso c)
  | beginMove grabbed position => exact .same (outline_beginMove c grabbed position)
  | dragMove position bypass now => exact .same (outline_dragMove c position bypass now)
  | endMove now => exact .same (outline_endMove c d now)
  | beginResize key edges position => exact .same (outline_beginResize c key edges position)
  | dragResize position bypass now => exact .same (outline_dragResize c position bypass now)
  | endResize => exact .same (outline_endResize c d)
  | deleteSelection => exact outcome_deleteSelection c d
  | alignSelection a => exact .same (outline_alignSelection c d a)
  | beginConnection jack multi => exact .same (outline_beginConnection c jack multi)
  | dragConnection position => exact .same (outline_dragConnection c position)
  | endConnection => exact .same (outline_endConnection c d)
  | cancelConnection => exact .same (outline_cancelConnection c)
  | beginSegment key position => exact .same (outline_beginSegment c key position)
  | dragSegment position => exact .same (outline_dragSegment c position)
  | endSegment now => exact .same (outline_endSegment c d now)
  | cancelSegment => exact .same (outline_cancelSegment c)
  | cancelDrag => exact .same (outline_cancelDrag c)
  | routeCable key now => exact .same (outline_routeCable c d key now)
  | straightenCable key now => exact .same (outline_straightenCable c d key now)
  | reanchorCable key => exact .same (outline_reanchorCable c key)
  | pushToken key token now => exact .same (outline_pushToken c d key token now)
  | tick now => exact .same (outline_tick c d now)
  | flushTokens => exact .same (outline_markSaved _)
  | placeBlank position => exact outcome_placeBlank c d position
  | commitBlank key text => exact outcome_commitBlank c d key text
  | cancelBlank key => exact outcome_cancelBlank c d d key

theorem Outcome.regular {s t : Scene} {e : δ} (outcome : Outcome s d t e) (regular : s.Regular) :
    t.Regular := by
  cases outcome with
  | same outline => exact regular.of_outline outline
  | reconciled outline => exact (regular.reconcile _).of_outline outline
  | placed position outline =>
    exact (regular.addBox (by simp [Box.blank]) fun _ => rfl).of_outline outline
  | dropped keys blank outline => exact (regular.foldl_removeBox keys).of_outline outline
  | committed key handle text position made blank created closed outline =>
    refine (regular.updateBox ?_ ?_).of_outline outline
    · exact fun b _ => by simp
    · exact fun b _ none => absurd none (by simp)

/-- Whatever is done with a canvas, its scene is regular. -/
theorem Reached.regular (reached : Reached c) : c.scene.Regular := by
  induction reached with
  | ofSettings settings =>
    exact (Scene.wellFormed_iff.1 Scene.wellFormed_empty).1
  | call _ d call ih => exact (call.outcome _ d).regular ih

/-- Only two documents in turn can give a scene two boxes of one handle; what else it takes to be well
formed holds of every scene. -/
theorem Reached.wellFormed_iff (reached : Reached c) :
    c.scene.WellFormed ↔ c.scene.handles.Nodup :=
  Scene.wellFormed_iff.trans (and_iff_right reached.regular)

end Canvas

end Patchbay
