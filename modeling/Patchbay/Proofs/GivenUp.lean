import Patchbay.Proofs.Aim
import Patchbay.Proofs.Forfeit
import Patchbay.Proofs.Numbered
import Patchbay.Proofs.Spring
import Patchbay.Proofs.Stirred
import Patchbay.Proofs.Undone

/-!
# Drags that are given up

Whatever a drag has done since it began, giving it up takes it back: boxes go home, the cable that was
bent gets its route again, the jack that was aimed at goes out. Places and tokens are always as they
were. Of the routes of cables that followed, those come back that were at no stop without a plan; and
a target that was there before the drag is given up with it.
-/

namespace Patchbay

open Keyed (keys mapValues)

def Jack.putOut (q : Jack) : Jack := { q with targeted := false }

namespace Box

variable {b : Box}

def dark (b : Box) : Box := { b with jackList := b.jackList.map Jack.putOut }

theorem dark_eq_self (numbered : b.Numbered) (unlit : ∀ side i, ¬b.Lit side i) : b.dark = b := by
  have out : ∀ q ∈ b.jackList, q.putOut = q := by
    intro q mem
    cases lit : q.targeted with
    | false => rw [Jack.putOut, ← lit]
    | true =>
      rw [numbered.jackList_eq, List.mem_append] at mem
      obtain ⟨side, there⟩ : ∃ side, q ∈ b.jacks side := mem.elim (⟨.inlet, ·⟩) (⟨.outlet, ·⟩)
      obtain ⟨i, at_i⟩ := List.getElem?_of_mem there
      exact absurd (lit_iff.2 ⟨q, at_i, lit⟩) (unlit side i)
  rw [dark, List.map_congr_left out, List.map_id']

theorem dark_mapJack {f : Jack → Jack} (same : ∀ q, (f q).putOut = q.putOut) (b : Box) (side : Side)
    (i : Nat) : (b.mapJack side i f).dark = b.dark := by
  rw [dark, map_mapJack same, mapJack_eq, dark]

theorem numbered_dark : b.dark.Numbered ↔ b.Numbered := by
  have labels : b.dark.jackList.map Jack.label = b.jackList.map Jack.label := by
    rw [dark, List.map_map]
    rfl
  rw [Numbered, labels, Numbered, dark]

end Box

namespace Scene

variable {s t : Scene}

def places (s : Scene) : Keyed Rect := s.boxes.map fun e => (e.1, e.2.bounds)

def darkened (s : Scene) : Keyed Box := mapValues s.boxes fun _ => Box.dark

def unrouted (s : Scene) : Keyed Cable := mapValues s.cables fun _ x => { x with route := .straight }

theorem places_of_darkened (same : t.darkened = s.darkened) : t.places = s.places := by
  have of (s : Scene) : s.places = s.darkened.map fun e => (e.1, e.2.bounds) := by
    rw [darkened, mapValues, List.map_map]
    rfl
  rw [of, same, ← of]

theorem darkened_updateJack (s : Scene) (ref : JackRef) (on : Bool) :
    (s.updateJack ref fun q => { q with targeted := on }).darkened = s.darkened := by
  simp only [darkened, updateJack, boxes_updateBox, mapValues, Keyed.update, List.map_map]
  refine List.map_congr_left fun e _ => ?_
  simp only [Function.comp_apply]
  split
  · exact congrArg (Prod.mk e.1) (Box.dark_mapJack (f := fun q => { q with targeted := on })
      (fun _ => rfl) e.2 ref.side ref.index)
  · rfl

theorem numbered_of_darkened (same : t.darkened = s.darkened) (numbered : s.Numbered) :
    t.Numbered := by
  intro e he
  have mem : (e.1, e.2.dark) ∈ s.darkened := same ▸ List.mem_map_of_mem he
  obtain ⟨f, hf, alike⟩ := List.mem_map.1 mem
  have dark : f.2.dark = e.2.dark := congrArg Prod.snd alike
  exact Box.numbered_dark.1 (dark ▸ Box.numbered_dark.2 (numbered f hf))

theorem darkened_of_unlit (numbered : s.Numbered) (unlit : ∀ ref, ¬s.Lit ref) :
    s.darkened = s.boxes :=
  Keyed.mapValues_eq_self fun e he => Box.dark_eq_self (numbered e he) fun side i lit =>
    unlit ⟨e.1, side, i⟩ ⟨e.2, he, lit⟩

theorem unrouted_mapCables {g : Nat → Cable → Cable} (cables : t.cableArena = s.cableArena.mapValues g)
    (same : ∀ k x, g k x = { x with route := (g k x).route }) : t.unrouted = s.unrouted := by
  have entries : t.cables = mapValues s.cables g := by
    rw [Scene.cables, cables, Arena.entries_mapValues, Scene.cables]
  rw [unrouted, entries, mapValues, mapValues, List.map_map, unrouted, mapValues]
  refine List.map_congr_left fun e _ => Prod.ext rfl ?_
  simp only [Function.comp_apply]
  rw [same]

end Scene

namespace Canvas

open Drag (Kind)
open Scene (Held)

variable {δ : Type} [Document δ] {c s t u : Canvas} {d : δ} {kind : Kind} {calls : List Call}
  {stops : List Scene} {grabbed key : Nat} {start offset : Point} {edges : Edges}

def Call.continues? : Call → Option Kind
  | dragMove _ _ _ => some .boxes
  | dragResize _ _ _ => some .resize
  | dragConnection _ => some .connection
  | dragSegment _ => some .segment
  | updateLasso _ => some .lasso
  | _ => none

def drive (state : Canvas × δ) (calls : List Call) : Canvas × δ :=
  calls.foldl (fun state call => call.run state.1 state.2) state

def scenes (state : Canvas × δ) : List Call → List Scene
  | [] => []
  | call :: calls => (call.run state.1 state.2).1.scene :: scenes (call.run state.1 state.2) calls

theorem drive_induction {P : Canvas → List Scene → Prop} (d : δ) (stops : List Scene)
    (step : ∀ t stops (call : Call), call.continues? = some kind → P t stops →
      P (call.run t d).1 (stops ++ [(call.run t d).1.scene]))
    (goesOn : ∀ call ∈ calls, call.continues? = some kind) (base : P s stops) :
    P (drive (s, d) calls).1 (stops ++ scenes (s, d) calls) ∧ (drive (s, d) calls).2 = d := by
  induction calls generalizing s stops with
  | nil => exact ⟨(List.append_nil stops).symm ▸ base, rfl⟩
  | cons call calls ih =>
    obtain ⟨first, rest⟩ := List.forall_mem_cons.1 goesOn
    have document : (call.run s d).2 = d := by
      cases call <;> first | rfl | exact absurd first (by simp [Call.continues?])
    have next := ih _ rest (step s stops call first base)
    have same : call.run s d = ((call.run s d).1, d) := Prod.ext rfl document
    have onward : drive (s, d) (call :: calls) = drive ((call.run s d).1, d) calls := by
      rw [← same]
      rfl
    have scenes : scenes (s, d) (call :: calls)
        = (call.run s d).1.scene :: scenes ((call.run s d).1, d) calls := by
      rw [← same]
      rfl
    rw [onward, scenes]
    simpa using next

/-- What it takes for a drag to be taken back whole: that all cables that follow spring back, that the
jacks of a box that is resized are laid out as they should be, and that no jack is the target when a
cable is begun. -/
def Regains (c : Canvas) (stops : List Scene) : Prop :=
  match c.drag with
  | .boxes _ _ _ => ∀ e ∈ c.scene.cables, c.scene.Springs stops c.selection.boxes e.2
  | .resize key _ _ _ => (∀ e ∈ c.scene.boxes, e.1 = key → e.2.layoutJacks = e.2) ∧
      ∀ e ∈ c.scene.cables, c.scene.Springs stops [key] e.2
  | .connection _ _ => c.target = none
  | _ => True

instance (c : Canvas) (stops : List Scene) : Decidable (c.Regains stops) := by
  unfold Regains
  split <;> infer_instance

structure GivenUp (s : Canvas) (stops : List Scene) (u : Canvas) : Prop where
  queue : u.queue = s.queue
  places : u.scene.places = s.scene.places
  unrouted : u.scene.unrouted = s.scene.unrouted
  whole : u.scene.boxes = s.scene.boxes ∧ u.scene.cables = s.scene.cables ∧ u.target = s.target ↔
    s.Regains stops

structure Tugs (put : Rect → Box → Box) (moved : List Nat) (s t : Canvas) (stops : List Scene) :
    Prop where
  held : Held put s.scene t.scene moved stops
  unrouted : t.scene.unrouted = s.scene.unrouted
  selection : t.selection = s.selection
  queue : t.queue = s.queue
  target : t.target = s.target

variable {put : Rect → Box → Box} {moved : List Nat}

theorem Tugs.refl (put : Rect → Box → Box) (moved : List Nat) (s : Canvas) : Tugs put moved s s [] :=
  ⟨.refl put s.scene moved, rfl, rfl, rfl, rfl⟩

structure Trails (put : Rect → Box → Box) (moved : List Nat) (r : Rect → Rect) (t u : Canvas) :
    Prop where
  boxArena : u.scene.boxArena = (t.scene.putBoxes put moved r).boxArena
  cableArena : u.scene.cableArena = t.scene.cableArena.mapValues fun _ => followMoved u.scene moved
  selection : u.selection = t.selection
  queue : u.queue = t.queue
  target : u.target = t.target

theorem Trails.unrouted {r : Rect → Rect} (trails : Trails put moved r t u) :
    u.scene.unrouted = t.scene.unrouted :=
  Scene.unrouted_mapCables trails.cableArena fun _ x => followMoved_eq u.scene moved x

theorem Tugs.next {r : Rect → Rect} (tugs : Tugs put moved s t stops) (puts : Scene.Puts put)
    (trails : Trails put moved r t u) : Tugs put moved s u (stops ++ [u.scene]) where
  held := tugs.held.next puts trails.boxArena trails.cableArena
  unrouted := trails.unrouted.trans tugs.unrouted
  selection := trails.selection.trans tugs.selection
  queue := trails.queue.trans tugs.queue
  target := trails.target.trans tugs.target

/-- Once the boxes are put back, the canvas is as it was if that brings them back and all cables spring
back. -/
theorem Tugs.back (tugs : Tugs put moved s t stops) (exact : s.scene.boxArena.Exact)
    (puts : Scene.Puts put)
    (home : ∀ e ∈ s.scene.boxes, moved.contains e.1 = true → e.2.home = e.2.bounds)
    (trails : Trails put moved id t u) :
    u.queue = s.queue ∧ u.scene.places = s.scene.places ∧ u.scene.unrouted = s.scene.unrouted ∧
      (u.scene.boxes = s.scene.boxes ∧ u.scene.cables = s.scene.cables ∧ u.target = s.target ↔
        (∀ e ∈ s.scene.boxes, moved.contains e.1 = true → put e.2.bounds e.2 = e.2) ∧
          ∀ e ∈ s.scene.cables, s.scene.Springs stops moved e.2) := by
  obtain ⟨put', cables⟩ := tugs.held.back exact trails.boxArena trails.cableArena
  have boxes : u.scene.boxes
      = mapValues s.scene.boxes fun k b => if moved.contains k then put b.home b else b := by
    rw [Scene.boxes_congr put']
    exact Scene.boxes_mapBoxes ..
  have whole : u.scene.boxes = s.scene.boxes ↔
      ∀ e ∈ s.scene.boxes, moved.contains e.1 = true → put e.2.bounds e.2 = e.2 := by
    rw [boxes, Keyed.mapValues_eq_self_iff]
    refine forall₂_congr fun e he => ?_
    split
    · next held => simp only [held, true_implies, home e he held]
    · next other => exact iff_of_true rfl fun held => absurd held other
  refine ⟨trails.queue.trans tugs.queue, ?_, trails.unrouted.trans tugs.unrouted, ?_⟩
  · rw [Scene.places, boxes, mapValues, List.map_map]
    refine List.map_congr_left fun e he => Prod.ext rfl ?_
    simp only [Function.comp_apply]
    split
    · next held => rw [puts.bounds, home e he held]
    · rfl
  · rw [whole, and_iff_left (trails.target.trans tugs.target)]
    exact and_congr_right fun same => cables (whole.2 same)

/-! ## Boxes -/

theorem trails_put {r : Rect → Rect}
    (scene : u.scene = ({ t with scene := t.scene.putBoxes put moved r }.follow moved).scene)
    (rest : u.selection = t.selection ∧ u.queue = t.queue ∧ u.target = t.target) :
    Trails put moved r t u where
  boxArena := by rw [scene]; rfl
  cableArena := by
    have same : followMoved u.scene moved = followMoved (t.scene.putBoxes put moved r) moved :=
      funext fun x => Scene.followMoved_congr (fun k => by rw [scene]; rfl) moved x
    rw [same, scene]
    rfl
  selection := rest.1
  queue := rest.2.1
  target := rest.2.2

theorem tugs_dragMove (tugs : Tugs (fun r b => { b with bounds := r }) s.selection.boxes s t stops)
    (there : (s.scene.box? grabbed).isSome = true) (drag : t.drag = .boxes grabbed start offset)
    (position : Point) (bypass : Bool) (now : Nat) :
    Tugs (fun r b => { b with bounds := r }) s.selection.boxes s (t.dragMove position bypass now).1
        (stops ++ [(t.dragMove position bypass now).1.scene]) ∧
      ∃ e, (t.dragMove position bypass now).1.drag = .boxes grabbed start e := by
  obtain ⟨box, found⟩ := Option.isSome_iff_exists.1 ((tugs.held.isSome_box? grabbed).trans there)
  simp only [dragMove, drag, found]
  generalize t.snapper.move _ _ = answer
  obtain ⟨snapper, e⟩ := answer
  refine ⟨tugs.next (r := (·.shifted e)) Scene.puts_bounds ?_, e, rfl⟩
  rw [← tugs.selection]
  exact trails_put rfl ⟨rfl, rfl, rfl⟩

theorem givenUp_boxes (drag : s.drag = .boxes grabbed start offset)
    (exact : s.scene.boxArena.Exact)
    (there : (s.scene.box? grabbed).isSome = true)
    (home : ∀ e ∈ s.scene.boxes, s.selection.boxes.contains e.1 = true → e.2.home = e.2.bounds)
    (d : δ) (goesOn : ∀ call ∈ calls, call.continues? = some .boxes) :
    GivenUp s (scenes (s, d) calls) (drive (s, d) calls).1.cancelDrag ∧ (drive (s, d) calls).2 = d := by
  obtain ⟨⟨tugs, e, held⟩, document⟩ := drive_induction
    (P := fun t stops => Tugs (fun r b => { b with bounds := r }) s.selection.boxes s t stops ∧
      ∃ e, t.drag = .boxes grabbed start e) d []
    (by
      rintro t stops (_ | _) goesOn ⟨tugs, e, drag⟩
      case dragMove position bypass now =>
        exact tugs_dragMove tugs there drag position bypass now
      all_goals exact absurd goesOn (by simp [Call.continues?]))
    goesOn ⟨.refl _ s.selection.boxes s, offset, drag⟩
  refine ⟨?_, document⟩
  generalize (drive (s, d) calls).1 = t at tugs held
  have back : Trails (fun r b => { b with bounds := r }) t.selection.boxes id t t.cancelDrag := by
    unfold Canvas.cancelDrag
    simp only [held]
    exact trails_put rfl ⟨rfl, rfl, rfl⟩
  rw [tugs.selection] at back
  obtain ⟨queue, places, unrouted, whole⟩ := tugs.back exact Scene.puts_bounds home back
  refine ⟨queue, places, unrouted, whole.trans ?_⟩
  rw [Regains, drag]
  exact and_iff_right fun _ _ _ => rfl

theorem updateBox_eq (s : Scene) (key : Nat) (f : Box → Box) :
    s.updateBox key f = s.updateBoxes [key] f := by
  rw [Scene.updateBox, Scene.updateBoxes, Scene.mapBoxes, Arena.update_eq_mapValues]
  simp only [List.contains_cons, List.contains_nil, Bool.or_false, beq_iff_eq]

theorem tugs_dragResize
    (tugs : Tugs (fun r b => { b with bounds := r }.layoutJacks) [key] s t stops)
    (there : (s.scene.box? key).isSome = true) (drag : t.drag = .resize key edges start offset)
    (position : Point) (bypass : Bool) (now : Nat) :
    Tugs (fun r b => { b with bounds := r }.layoutJacks) [key] s (t.dragResize position bypass now).1
        (stops ++ [(t.dragResize position bypass now).1.scene]) ∧
      ∃ e, (t.dragResize position bypass now).1.drag = .resize key edges start e := by
  obtain ⟨box, found⟩ := Option.isSome_iff_exists.1 ((tugs.held.isSome_box? key).trans there)
  simp only [dragResize, drag, found, updateBox_eq]
  generalize t.snapper.resize _ _ = answer
  obtain ⟨snapper, e⟩ := answer
  dsimp only
  generalize keepMinimum _ _ _ = r
  refine ⟨tugs.next (r := fun _ => r) Scene.puts_fitted ?_, e, rfl⟩
  exact trails_put rfl ⟨rfl, rfl, rfl⟩

theorem givenUp_resize (drag : s.drag = .resize key edges start offset)
    (exact : s.scene.boxArena.Exact)
    (there : (s.scene.box? key).isSome = true)
    (home : ∀ e ∈ s.scene.boxes, [key].contains e.1 = true → e.2.home = e.2.bounds)
    (d : δ) (goesOn : ∀ call ∈ calls, call.continues? = some .resize) :
    GivenUp s (scenes (s, d) calls) (drive (s, d) calls).1.cancelDrag ∧ (drive (s, d) calls).2 = d := by
  obtain ⟨⟨tugs, e, held⟩, document⟩ := drive_induction
    (P := fun t stops => Tugs (fun r b => { b with bounds := r }.layoutJacks) [key] s t stops ∧
      ∃ e, t.drag = .resize key edges start e) d []
    (by
      rintro t stops (_ | _) goesOn ⟨tugs, e, drag⟩
      case dragResize position bypass now =>
        exact tugs_dragResize tugs there drag position bypass now
      all_goals exact absurd goesOn (by simp [Call.continues?]))
    goesOn ⟨.refl _ [key] s, offset, drag⟩
  refine ⟨?_, document⟩
  generalize (drive (s, d) calls).1 = t at tugs held
  have back : Trails (fun r b => { b with bounds := r }.layoutJacks) [key] id t t.cancelDrag := by
    unfold Canvas.cancelDrag
    simp only [held, updateBox_eq]
    exact trails_put rfl ⟨rfl, rfl, rfl⟩
  obtain ⟨queue, places, unrouted, whole⟩ := tugs.back exact Scene.puts_fitted home back
  refine ⟨queue, places, unrouted, whole.trans ?_⟩
  rw [Regains, drag]
  exact and_congr_left fun _ => forall₂_congr fun e _ => by simp

/-! ## Cables -/

theorem darkened_clearTarget (c : Canvas) : c.clearTarget.scene.darkened = c.scene.darkened := by
  unfold clearTarget
  split
  · rfl
  · exact Scene.darkened_updateJack ..

theorem darkened_aim (c : Canvas) (target : Option JackRef) :
    (c.aim target).scene.darkened = c.scene.darkened := by
  unfold aim
  split
  · rfl
  · split
    · exact darkened_clearTarget c
    · dsimp only
      split
      · exact (Scene.darkened_updateJack ..).trans (darkened_clearTarget c)
      · exact darkened_clearTarget c

structure Draws (s t : Canvas) : Prop where
  drag : ∃ sources cursor, t.drag = .connection sources cursor
  aimed : Aimed t
  darkened : t.scene.darkened = s.scene.darkened
  cableArena : t.scene.cableArena = s.scene.cableArena
  queue : t.queue = s.queue

theorem Draws.dragConnection (draws : Draws s t) (numbered : s.scene.Numbered) (d : δ)
    (position : Point) :
    Draws s (t.dragConnection position).1 where
  drag := by
    obtain ⟨sources, cursor, drag⟩ := draws.drag
    simp only [Canvas.dragConnection, drag]
    split
    · exact ⟨_, _, rfl⟩
    · exact ⟨_, _, drag_aim ..⟩
  aimed := draws.aimed.run (Scene.numbered_of_darkened draws.darkened numbered)
    (.dragConnection position) d
  darkened := by
    obtain ⟨sources, cursor, drag⟩ := draws.drag
    simp only [Canvas.dragConnection, drag]
    split
    · exact draws.darkened
    · exact (darkened_aim ..).trans draws.darkened
  cableArena := (cableArena_dragConnection t position).trans draws.cableArena
  queue := (queue_dragConnection t position).trans draws.queue

theorem givenUp_connection {sources : List JackRef} {cursor : Point}
    (drag : s.drag = .connection sources cursor) (aimed : Aimed s) (numbered : s.scene.Numbered)
    (d : δ) (goesOn : ∀ call ∈ calls, call.continues? = some .connection) :
    GivenUp s (scenes (s, d) calls) (drive (s, d) calls).1.cancelDrag ∧ (drive (s, d) calls).2 = d := by
  obtain ⟨draws, document⟩ := drive_induction (P := fun t _ => Draws s t) d []
    (by
      rintro t stops (_ | _) goesOn draws
      case dragConnection position => exact draws.dragConnection numbered d position
      all_goals exact absurd goesOn (by simp [Call.continues?]))
    goesOn ⟨⟨sources, cursor, drag⟩, aimed, rfl, rfl, rfl⟩
  refine ⟨?_, document⟩
  generalize (drive (s, d) calls).1 = t at draws
  obtain ⟨⟨sources', cursor', held⟩, aimed', darkened, cableArena, queue⟩ := draws
  have given : t.cancelDrag = { t with drag := .none }.clearTarget := by
    unfold Canvas.cancelDrag
    simp only [held]
  have darkened' : t.cancelDrag.scene.darkened = s.scene.darkened :=
    given ▸ (darkened_clearTarget _).trans darkened
  have cables : t.cancelDrag.scene.cables = s.scene.cables :=
    Scene.cables_congr (given ▸ (cableArena_clearTarget _).trans cableArena)
  have target : t.cancelDrag.target = none := given ▸ target_clearTarget _
  have unlit : ∀ ref, ¬t.cancelDrag.scene.Lit ref :=
    given ▸ Aimed.not_lit_clearTarget (c := { t with drag := .none }) aimed'
  refine ⟨(queue_cancelDrag t).trans queue, Scene.places_of_darkened darkened', ?_, ?_⟩
  · rw [Scene.unrouted, cables, Scene.unrouted]
  · rw [Regains, drag]
    constructor
    · rintro ⟨-, -, same⟩
      exact same.symm.trans target
    · intro none
      have dark : ∀ ref, ¬s.scene.Lit ref := fun ref lit =>
        absurd (none.symm.trans (aimed ref lit)) (by simp)
      refine ⟨?_, cables, target.trans none.symm⟩
      rw [← Scene.darkened_of_unlit (Scene.numbered_of_darkened darkened' numbered) unlit, darkened',
        Scene.darkened_of_unlit numbered dark]

structure Bends (s : Canvas) (key : Nat) (before : Route) (t : Canvas) : Prop where
  drag : ∃ e, t.drag = .segment e ∧ e.cable = key ∧ e.before = before
  scene : t.scene.updateCable key (fun x => { x with route := before }) = s.scene
  queue : t.queue = s.queue
  target : t.target = s.target

theorem updateRoute_updateRoute (s : Scene) (key : Nat) (r q : Route) :
    (s.updateCable key fun x => { x with route := r }).updateCable key
      (fun x => { x with route := q }) = s.updateCable key fun x => { x with route := q } := by
  simp only [Scene.updateCable, Arena.update_update, Function.comp_def]

theorem Bends.dragSegment {before : Route} (bends : Bends s key before t)
    (anchored : (s.scene.anchors? key).isSome = true) (position : Point) :
    Bends s key before (t.dragSegment position).1 := by
  obtain ⟨⟨e, drag, cable, held⟩, scene, queue, target⟩ := bends
  rw [← scene, Scene.anchors?_updateRoute, ← cable] at anchored
  obtain ⟨⟨a, b⟩, anchors⟩ := Option.isSome_iff_exists.1 anchored
  simp only [Canvas.dragSegment, drag, anchors]
  split
  · exact ⟨⟨e, drag, cable, held⟩, scene, queue, target⟩
  · refine ⟨⟨_, rfl, cable, held⟩, ?_, queue, target⟩
    rw [← scene, cable]
    exact updateRoute_updateRoute ..

theorem givenUp_segment {e : SegmentDrag} {x : Cable} (drag : s.drag = .segment e)
    (found : s.scene.cable? e.cable = some x) (before : e.before = x.route)
    (anchored : (s.scene.anchors? e.cable).isSome = true) (d : δ)
    (goesOn : ∀ call ∈ calls, call.continues? = some .segment) :
    GivenUp s (scenes (s, d) calls) (drive (s, d) calls).1.cancelDrag ∧ (drive (s, d) calls).2 = d := by
  have same : s.scene.updateCable e.cable (fun x => { x with route := e.before }) = s.scene := by
    rw [Scene.updateCable, Arena.update_of_get? found]
    rw [before]
  obtain ⟨bends, document⟩ := drive_induction (P := fun t _ => Bends s e.cable e.before t) d []
    (by
      rintro t stops (_ | _) goesOn bends
      case dragSegment position => exact bends.dragSegment anchored position
      all_goals exact absurd goesOn (by simp [Call.continues?]))
    goesOn ⟨⟨e, drag, rfl, rfl⟩, same, rfl, rfl⟩
  refine ⟨?_, document⟩
  generalize (drive (s, d) calls).1 = t at bends
  obtain ⟨⟨f, held, cable, before'⟩, scene, queue, target⟩ := bends
  have given : t.cancelDrag
      = { t with drag := .none, scene := s.scene } := by
    unfold Canvas.cancelDrag cancelSegment
    simp only [held, cable, before', scene]
  rw [given]
  exact ⟨queue, rfl, rfl, by simp [Regains, drag, target]⟩

theorem givenUp_lasso (drag : s.drag = .lasso) (d : δ)
    (goesOn : ∀ call ∈ calls, call.continues? = some .lasso) :
    GivenUp s (scenes (s, d) calls) (drive (s, d) calls).1.cancelDrag ∧ (drive (s, d) calls).2 = d := by
  obtain ⟨⟨selection, same⟩, document⟩ := drive_induction
    (P := fun t _ => ∃ selection, t = { s with selection := selection }) d []
    (by
      rintro t stops (_ | _) goesOn ⟨selection, rfl⟩
      case updateLasso position => exact ⟨_, if_pos drag⟩
      all_goals exact absurd goesOn (by simp [Call.continues?]))
    goesOn ⟨s.selection, rfl⟩
  refine ⟨?_, document⟩
  have given : (drive (s, d) calls).1.cancelDrag
      = { s with drag := .none, selection := { selection with lasso := none } } := by
    unfold Canvas.cancelDrag
    simp only [same, drag]
  rw [given]
  exact ⟨rfl, rfl, rfl, by simp [Regains, drag]⟩

/-! ## Every drag -/

theorem Call.of_continues? {call : Call} (goesOn : call.continues? = some kind) :
    call.kind? = some kind ∧ call.takes = false := by
  cases call <;> first
    | exact ⟨goesOn, rfl⟩
    | exact absurd goesOn (by simp [continues?])

theorem givenUp_none (none : s.drag = .none) (d : δ)
    (goesOn : ∀ call ∈ calls, call.continues? = some kind) :
    GivenUp s (scenes (s, d) calls) (drive (s, d) calls).1.cancelDrag ∧ (drive (s, d) calls).2 = d := by
  have astray : ∀ call ∈ calls, call.Astray s := fun call there =>
    ⟨kind, (Call.of_continues? (goesOn call there)).1, by simp [none, Drag.kind?]⟩
  have takes : calls.any Call.takes = false :=
    List.any_eq_false.2 fun call there => by simp [(Call.of_continues? (goesOn call there)).2]
  have idle : drive (s, d) calls = (s, d) := by
    rw [drive, foldl_run_astray astray, takes, lose_false]
  have given : s.cancelDrag = s := by
    unfold Canvas.cancelDrag
    simp only [none]
  rw [idle, given]
  exact ⟨⟨rfl, rfl, rfl, by simp [Regains, none]⟩, rfl⟩

theorem isSome_box?_updateBoxes (s : Scene) (ks : List Nat) (f : Box → Box) (k : Nat) :
    ((s.updateBoxes ks f).box? k).isSome = (s.box? k).isSome := by
  rw [Scene.updateBoxes, Scene.box?_mapBoxes, Option.isSome_map]

theorem home_updateBoxes (s : Scene) (ks : List Nat) :
    ∀ e ∈ (s.updateBoxes ks fun b => { b with home := b.bounds }).boxes, ks.contains e.1 = true →
      e.2.home = e.2.bounds := by
  intro e he held
  rw [Scene.updateBoxes, Scene.boxes_mapBoxes] at he
  obtain ⟨b, -, same⟩ := Keyed.mem_mapValues.1 he
  rw [same, if_pos held]

theorem givenUp_beginMove (free : c.drag = .none) {position : Point}
    (exact : (c.beginMove grabbed position).1.scene.boxArena.Exact) (d : δ)
    (goesOn : ∀ call ∈ calls, call.continues? = some .boxes) :
    let s := (c.beginMove grabbed position).1
    GivenUp s (scenes (s, d) calls) (drive (s, d) calls).1.cancelDrag ∧ (drive (s, d) calls).2 = d := by
  revert exact
  unfold beginMove
  split <;> intro exact
  · exact givenUp_none free d goesOn
  · next taken =>
    have there : (c.scene.box? grabbed).isSome = true := by
      simp only [Bool.or_eq_true, not_or, Option.isNone_iff_eq_none] at taken
      exact Option.isSome_iff_ne_none.2 taken.2
    refine givenUp_boxes rfl exact ?_ (home_updateBoxes _ _) d goesOn
    dsimp only
    rw [isSome_box?_updateBoxes]
    split
    · exact there
    · rw [markSelection, (Scene.marked_mark _ _).recast.isSome_box?]
      exact there

theorem givenUp_beginResize (free : c.drag = .none) {position : Point}
    (exact : (c.beginResize key edges position).1.scene.boxArena.Exact) (d : δ)
    (goesOn : ∀ call ∈ calls, call.continues? = some .resize) :
    let s := (c.beginResize key edges position).1
    GivenUp s (scenes (s, d) calls) (drive (s, d) calls).1.cancelDrag ∧ (drive (s, d) calls).2 = d := by
  revert exact
  unfold beginResize
  split <;> intro exact
  · exact givenUp_none free d goesOn
  · next taken =>
    have there : (c.scene.box? key).isSome = true := by
      cases found : c.scene.box? key with
      | none => simp [found] at taken
      | some b => rfl
    simp only [updateBox_eq] at exact ⊢
    refine givenUp_resize rfl exact ?_ (home_updateBoxes _ _) d goesOn
    dsimp only
    rw [isSome_box?_updateBoxes]
    exact there

theorem givenUp_beginConnection (free : c.drag = .none) (aimed : Aimed c)
    (numbered : c.scene.Numbered) (jack : JackRef) (multi : Bool) (d : δ)
    (goesOn : ∀ call ∈ calls, call.continues? = some .connection) :
    let s := (c.beginConnection jack multi).1
    GivenUp s (scenes (s, d) calls) (drive (s, d) calls).1.cancelDrag ∧ (drive (s, d) calls).2 = d := by
  unfold beginConnection
  split
  · exact givenUp_none free d goesOn
  · split
    · exact givenUp_none free d goesOn
    · next cursor _ =>
      exact givenUp_connection (s := { c with
        drag := .connection (c.connectionSources jack multi) cursor }) rfl aimed numbered d goesOn

theorem givenUp_beginSegment (free : c.drag = .none) (position : Point) (d : δ)
    (goesOn : ∀ call ∈ calls, call.continues? = some .segment) :
    let s := (c.beginSegment key position).1
    GivenUp s (scenes (s, d) calls) (drive (s, d) calls).1.cancelDrag ∧ (drive (s, d) calls).2 = d := by
  unfold beginSegment
  split
  · exact givenUp_none free d goesOn
  · split
    · next x a b found anchors =>
      have anchored : (c.scene.anchors? key).isSome = true := by rw [anchors]; rfl
      split
      · exact givenUp_none free d goesOn
      · next plan i _ =>
        split
        · exact givenUp_segment
            (s := { c with drag := .segment ⟨key, i, position, x.route, plan, false⟩ }) rfl found
            rfl anchored d goesOn
        · exact givenUp_none free d goesOn
    · exact givenUp_none free d goesOn

theorem givenUp_beginLasso (free : c.drag = .none) (position : Point) (d : δ)
    (goesOn : ∀ call ∈ calls, call.continues? = some .lasso) :
    let s := (c.beginLasso position).1
    GivenUp s (scenes (s, d) calls) (drive (s, d) calls).1.cancelDrag ∧ (drive (s, d) calls).2 = d := by
  unfold beginLasso
  split
  · exact givenUp_none free d goesOn
  · exact givenUp_lasso rfl d goesOn

/-! ## The drags of a canvas -/

/-- However a drag is begun and goes on, once it is given up the boxes are at their places and the
cables have their tokens, nothing is queued, and the document is as it was. The jacks, the routes and
the target are as they were, too, exactly if the drag could be taken back whole. -/
theorem cancelDrag_restores_iff (reached : Reached c) (free : c.drag = .none) (d : δ) {begin : Call}
    (begins : begin.begins? = some kind) (goesOn : ∀ call ∈ calls, call.continues? = some kind) :
    let s := begin.run c d
    let t := drive s calls
    let u := Call.cancelDrag.run t.1 t.2
    u.2 = d ∧ u.1.drag = .none ∧ u.1.queue = s.1.queue ∧ u.1.scene.places = s.1.scene.places ∧
      u.1.scene.unrouted = s.1.scene.unrouted ∧
      (u.1.scene.boxes = s.1.scene.boxes ∧ u.1.scene.cables = s.1.scene.cables ∧
        u.1.target = s.1.target ↔ s.1.Regains (scenes s calls)) := by
  intro s t u
  suffices given : GivenUp s.1 (scenes s calls) u.1 ∧ t.2 = d from
    ⟨given.2, drag_cancelDrag t.1, given.1.queue, given.1.places, given.1.unrouted, given.1.whole⟩
  cases begin <;> first | (cases Option.some.inj begins) | exact absurd begins (by simp [Call.begins?])
  case beginMove grabbed position =>
    exact givenUp_beginMove free (reached.call d (.beginMove grabbed position)).regular.boxOrder d goesOn
  case beginResize key edges position =>
    exact givenUp_beginResize free (reached.call d (.beginResize key edges position)).regular.boxOrder
      d goesOn
  case beginConnection jack multi =>
    exact givenUp_beginConnection free reached.aimed reached.numbered jack multi d goesOn
  case beginSegment key position => exact givenUp_beginSegment free position d goesOn
  case beginLasso position => exact givenUp_beginLasso free position d goesOn

def planned : List Event :=
  [.mutate (.insertNode ⟨"osc~", ⟨0, 0, 40, 20⟩, [], [true]⟩),
    .mutate (.insertNode ⟨"dac~", ⟨0, 100, 40, 20⟩, [true], []⟩),
    .mutate (.insertWire ⟨1, 0, 2, 0⟩), .mutate (.edit (.setToken 3 "BB4oHlAeeB7K")), .call .sync]

/-- A cable is drawn to a jack, and the drag is lost without putting it out. -/
def forsaken : List Event :=
  [.mutate (.insertNode ⟨"osc~", ⟨0, 0, 40, 20⟩, [], [true]⟩),
    .mutate (.insertNode ⟨"dac~", ⟨0, 100, 40, 20⟩, [true], []⟩), .call .sync,
    .call (.beginConnection ⟨1, .outlet, 0⟩ false), .call (.dragConnection ⟨15, 101⟩),
    .call (.endMove 0), .call .sync]

/-- Moved up and down, a box whose cable goes straight down to it is taken back whole. -/
theorem cancelDrag_restores_iff_upright :
    let c := (play {} {} planned).1
    let p := (play {} {} planned).2
    let calls := [Call.dragMove ⟨10, -20⟩ true 0, .dragMove ⟨10, 40⟩ true 0]
    let s := (Call.beginMove 1 ⟨10, 10⟩).run c p
    let u := Call.cancelDrag.run (drive s calls).1 (drive s calls).2
    c.drag = .none ∧ u.1.scene.boxes = s.1.scene.boxes ∧ u.1.scene.cables = s.1.scene.cables ∧
      u.1.target = s.1.target := by
  intro c p calls s u
  have free : c.drag = .none := by decide +kernel
  have begins : (Call.beginMove 1 ⟨10, 10⟩).begins? = some .boxes := rfl
  have goesOn : ∀ call ∈ calls, call.continues? = some .boxes := by simp [calls, Call.continues?]
  obtain ⟨-, -, -, -, -, whole⟩ :=
    cancelDrag_restores_iff (reached_play {} {} planned) free p begins goesOn
  exact ⟨free, whole.2 (by decide +kernel)⟩

/-- A route is lost once a box is moved so far aside that its plan does not reach, and so is a target
that was there when a cable is begun. -/
theorem cancelDrag_loses :
    (¬ ∀ c, Reached c → ∀ p : Patch, (c.sync p).1.drag = .none → ∀ key position calls,
      (∀ call ∈ calls, call.continues? = some .boxes) →
        let s := (Call.beginMove key position).run (c.sync p).1 (c.sync p).2.1
        (drive s calls).1.cancelDrag.scene.cables = s.1.scene.cables) ∧
    ¬ ∀ c, Reached c → ∀ p : Patch, (c.sync p).1.drag = .none → ∀ jack multi calls,
      (∀ call ∈ calls, call.continues? = some .connection) →
        let s := (Call.beginConnection jack multi).run (c.sync p).1 (c.sync p).2.1
        (drive s calls).1.cancelDrag.target = s.1.target := by
  constructor
  · intro always
    have kept := always _ (reached_play {} {} planned) (play {} {} planned).2 (by decide +kernel) 1
      ⟨10, 10⟩ [.dragMove ⟨70, 10⟩ true 0] (by simp [Call.continues?])
    revert kept
    decide +kernel
  · intro always
    have kept := always _ (reached_play {} {} forsaken) (play {} {} forsaken).2 (by decide +kernel)
      ⟨1, .outlet, 0⟩ false [] (by simp)
    revert kept
    decide +kernel

end Canvas

end Patchbay
