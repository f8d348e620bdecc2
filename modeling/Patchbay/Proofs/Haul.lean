import Patchbay.Proofs.Carry
import Patchbay.Proofs.Marks

/-!
# A drag of boxes, from the grab to the release

Whatever way the mouse takes, in the end the boxes are off by the offset that the release answers
with. In the patch nodes have been moved, and nothing else has changed.
-/

namespace Patchbay

open Keyed (keys mapValues)

/-- A patch with the same wires and with nodes that are at most elsewhere. -/
structure Patch.Rearranged (p q : Patch) : Prop where
  nodes : ∃ f, q.nodes = mapValues p.nodes f ∧
    ∀ h n side, (f h n).info.signals side = n.info.signals side
  wires : q.wires = p.wires

namespace Patch

variable {p q r : Patch} {h : Nat} {hs : List Nat} {d : Point}

theorem Rearranged.refl (p : Patch) : p.Rearranged p :=
  ⟨⟨fun _ n => n, (Keyed.mapValues_eq_self fun _ _ => rfl).symm, fun _ _ _ => rfl⟩, rfl⟩

theorem Rearranged.trans (first : p.Rearranged q) (second : q.Rearranged r) : p.Rearranged r := by
  obtain ⟨⟨f, nodes, signals⟩, wires⟩ := first
  obtain ⟨⟨g, nodes', signals'⟩, wires'⟩ := second
  refine ⟨⟨fun h n => g h (f h n), ?_, fun h n side => ?_⟩, wires'.trans wires⟩
  · rw [nodes', nodes, mapValues, mapValues, List.map_map]
    rfl
  · rw [signals', signals]

theorem rearranged_setBounds {bounds : Rect} (made : p.setBounds h bounds = .ok q) :
    p.Rearranged q := by
  unfold setBounds at made
  split at made
  · exact absurd made (by simp)
  · split at made
    · obtain rfl := Except.ok.inj made
      exact .refl p
    · obtain rfl := Except.ok.inj made
      have nodes := Keyed.update_eq_mapValues p.nodes h fun m => { m with bounds := bounds }
      refine ⟨⟨_, nodes, fun g m side => ?_⟩, rfl⟩
      split <;> cases side <;> rfl

theorem rearranged_moveNode (made : p.moveNode h d = .ok q) : p.Rearranged q := by
  unfold moveNode at made
  split at made
  · exact absurd made (by simp)
  · exact rearranged_setBounds made

theorem rearranged_moveNodeTo {position : Point} (made : p.moveNodeTo h position = .ok q) :
    p.Rearranged q := by
  unfold moveNodeTo at made
  split at made
  · exact absurd made (by simp)
  · exact rearranged_setBounds made

theorem rearranged_editAll
    (made : Document.editAll (fun p h => Document.moveNode p h d) p hs = (q, .ok ())) :
    p.Rearranged q := by
  induction hs generalizing p with
  | nil =>
    obtain rfl := (Prod.mk.inj made).1
    exact .refl p
  | cons h hs ih =>
    simp only [Document.editAll] at made
    split at made
    · next p₁ first => exact (rearranged_moveNode first).trans (ih made)
    · exact absurd made (by simp)

theorem rearranged_inSequence {label : String} (made : (Document.inSequence p label fun p =>
    Document.editAll (fun p h => Document.moveNode p h d) p hs) = (q, .ok ())) :
    p.Rearranged q := by
  obtain ⟨rfl, ok⟩ := Prod.mk.inj made
  let edited := Document.editAll (fun p h => Document.moveNode p h d) (p.openSequence label) hs
  obtain ⟨nodes, wires⟩ := rearranged_editAll (p := p.openSequence label) (q := edited.1)
    (Prod.ext rfl ok)
  exact ⟨nodes, wires⟩

theorem Rearranged.keys (rearranged : p.Rearranged q) : keys q.nodes = keys p.nodes := by
  obtain ⟨f, nodes, -⟩ := rearranged.nodes
  rw [nodes, Keyed.keys_mapValues]

theorem Rearranged.signals (rearranged : p.Rearranged q) (h : Nat) (side : Side) :
    (q.node? h).map (·.info.signals side) = (p.node? h).map (·.info.signals side) := by
  obtain ⟨f, nodes, signals⟩ := rearranged.nodes
  rw [Contents.node?, nodes, Keyed.get?_mapValues, Option.map_map, Contents.node?]
  refine Option.map_congr fun n _ => ?_
  exact signals h n side

end Patch

namespace Scene

variable {s t : Scene} {moved : List Nat} {f : Nat → Box → Box} {g : Nat → Cable → Cable}

theorem Marked.carried {g : Nat → Bool} (marked : Marked s t f g) (moved : List Nat) :
    Carried s t moved .origin f fun k x => { x with selected := g k } where
  recast := marked.recast
  alike k b := by
    rw [Box.shifted_origin, ite_self]
    exact marked.alike k b

theorem Carried.grip (carried : Carried s t moved .origin f g) :
    ∃ f', Carried s (t.updateBoxes moved fun b => { b with home := b.bounds }) moved .origin f' g ∧
      ∀ k b, moved.contains k = true → (f' k b).home = b.bounds := by
  have bounds (k : Nat) (b : Box) (hk : moved.contains k = true) :
      (f k b).bounds = b.bounds.shifted .origin := by
    have alike := carried.alike k b
    rw [if_pos hk] at alike
    exact alike.bounds
  have noted := Recast.updateBoxes t moved (fun b => { b with home := b.bounds }) fun _ => rfl
  refine ⟨_, ⟨carried.recast.trans noted, ?_⟩, ?_⟩
  · refine carried.alike_put (fun b => { b with home := b.bounds }) fun k b hk =>
      ⟨(f k b).bounds, ?_⟩
    rw [← bounds k b hk]
  · intro k b hk
    simp only [hk, if_true]
    rw [bounds k b hk, Rect.shifted_origin]

end Scene

namespace Canvas

open Scene (Carried Trailed)

structure Stop where
  position : Point
  bypass : Bool
  now : Nat
  deriving DecidableEq, Repr

structure Haul where
  grabbed : Nat
  start : Point
  stops : List Stop
  /-- When the boxes are let go. -/
  now : Nat
  deriving DecidableEq, Repr

def stages {α : Type} (step : Canvas → α → Canvas) (c : Canvas) : List α → List Scene
  | [] => []
  | x :: xs => (step c x).scene :: stages step (step c x) xs

theorem stages_induction {α : Type} (step : Canvas → α → Canvas) {P : Canvas → List Scene → Prop}
    (next : ∀ c stops x, P c stops → P (step c x) (stops ++ [(step c x).scene])) (c : Canvas)
    (stops : List Scene) (base : P c stops) (xs : List α) :
    P (xs.foldl step c) (stops ++ stages step c xs) := by
  induction xs generalizing c stops with
  | nil => rwa [stages, List.append_nil]
  | cons x xs ih =>
    have rest := ih _ _ (next c stops x base)
    rwa [List.append_assoc] at rest

theorem stages_idle {α : Type} {step : Canvas → α → Canvas} {c : Canvas} (idle : ∀ x, step c x = c)
    (xs : List α) : xs.foldl step c = c ∧ ∀ u ∈ stages step c xs, u = c.scene := by
  induction xs with
  | nil => exact ⟨rfl, fun _ hu => absurd hu List.not_mem_nil⟩
  | cons x xs ih =>
    simp only [List.foldl_cons, stages, idle, List.forall_mem_cons]
    exact ⟨ih.1, trivial, ih.2⟩

def pull (c : Canvas) (s : Stop) : Canvas := (c.dragMove s.position s.bypass s.now).1

/-- A canvas on which boxes were dragged and are still held. -/
def haul (c : Canvas) (m : Haul) : Canvas := m.stops.foldl pull (c.beginMove m.grabbed m.start).1

/-- The boxes that are dragged, if any are taken up. -/
def moved (c : Canvas) (m : Haul) : List Nat :=
  let (c, taken) := c.beginMove m.grabbed m.start
  if taken then c.selection.boxes else []

def move (c : Canvas) (p : Patch) (m : Haul) : Canvas × Patch × Except EditError Point :=
  (c.haul m).endMove p m.now

def onTheWay (c : Canvas) (m : Haul) : List Scene :=
  stages pull (c.beginMove m.grabbed m.start).1 m.stops

/-- The scenes where the boxes are on the way, and where they are let go. -/
def stops (c : Canvas) (p : Patch) (m : Haul) : List Scene :=
  onTheWay c m ++ [(c.move p m).1.scene]

structure Aloft (c : Canvas) (m : Haul) (t : Canvas) (stops : List Scene) : Prop where
  drag : ∃ start offset, t.drag = .boxes m.grabbed start offset
  there : (t.scene.box? m.grabbed).isSome = true
  holds : ∃ d f g, Holds t c.scene (c.moved m) d f g
  trailed : Trailed c.scene t.scene (c.moved m) stops
  queue : t.queue = c.queue
  settings : t.settings = c.settings

variable {c t : Canvas} {m : Haul} {p q : Patch} {d : Point} {stops : List Scene}

theorem aloft_beginMove (taken : (c.beginMove m.grabbed m.start).2 = true) :
    Aloft c m (c.beginMove m.grabbed m.start).1 [] := by
  have held : c.moved m = (c.beginMove m.grabbed m.start).1.selection.boxes := if_pos taken
  unfold beginMove at taken
  split at taken
  · exact absurd taken (by simp)
  · next free =>
    have start : c.beginMove m.grabbed m.start = _ := if_neg free
    have there : (c.scene.box? m.grabbed).isSome = true := by
      rw [Bool.not_eq_true, Bool.or_eq_false_iff] at free
      simpa using free.2
    rw [start] at held ⊢
    by_cases inside : c.selection.boxes.contains m.grabbed = true
    · simp only [inside, if_true] at held ⊢
      obtain ⟨f, carried, home⟩ := (Carried.refl c.scene c.selection.boxes).grip
      exact ⟨⟨_, _, rfl⟩, (carried.recast.isSome_box? m.grabbed).trans there,
        ⟨_, f, _, by rw [held]; exact ⟨rfl, carried, home⟩⟩, (Trailed.refl _ _).of_cables rfl, rfl, rfl⟩
    · simp only [inside, Bool.false_eq_true, if_false] at held ⊢
      have marked := Scene.marked_mark (c.selection.onlyBox m.grabbed) c.scene
      obtain ⟨f, carried, home⟩ := (marked.carried [m.grabbed]).grip
      exact ⟨⟨_, _, rfl⟩, (carried.recast.isSome_box? m.grabbed).trans there,
        ⟨_, f, _, by rw [held]; exact ⟨rfl, carried, home⟩⟩,
        Scene.trailed_of_marks _ marked.cableArena, rfl, rfl⟩

theorem beginMove_refused {grabbed : Nat} {start : Point}
    (refused : ¬(c.beginMove grabbed start).2 = true) : (c.beginMove grabbed start).1 = c := by
  unfold beginMove at refused ⊢
  split at refused
  · next busy => rw [if_pos busy]
  · exact absurd rfl refused

theorem Aloft.showOffset (aloft : Aloft c m t stops) (e : Point) :
    (∃ f g, Holds (t.showOffset e) c.scene (c.moved m) e f g) ∧
      Trailed c.scene (t.showOffset e).scene (c.moved m) (stops ++ [(t.showOffset e).scene]) := by
  obtain ⟨d, f, g, holds⟩ := aloft.holds
  obtain ⟨f', g', shown⟩ := holds.showOffset e
  refine ⟨⟨f', g', shown⟩, ?_⟩
  have outline := shown.carried.recast.outline
  have trailed := aloft.trailed
  rw [← holds.chosen] at trailed ⊢
  exact trailed.next rfl outline

theorem Aloft.pull (aloft : Aloft c m t stops) (s : Stop) :
    Aloft c m (t.pull s) (stops ++ [(t.pull s).scene]) := by
  obtain ⟨start, offset, drag⟩ := aloft.drag
  obtain ⟨b, found⟩ := Option.isSome_iff_exists.1 aloft.there
  unfold Canvas.pull dragMove
  simp only [drag, found]
  generalize t.snapper.move _ _ = answer
  obtain ⟨snapper, e⟩ := answer
  obtain ⟨d, f, g, holds⟩ := aloft.holds
  have same : Aloft c m { t with snapper := snapper } stops :=
    ⟨aloft.drag, aloft.there, ⟨d, f, g, holds.chosen, holds.carried, holds.home⟩, aloft.trailed,
      aloft.queue, aloft.settings⟩
  obtain ⟨⟨f', g', chosen, carried, home⟩, trailed⟩ := same.showOffset e
  have there := (carried.recast.isSome_box? m.grabbed).trans
    ((holds.carried.recast.isSome_box? m.grabbed).symm.trans aloft.there)
  exact ⟨⟨start, e, rfl⟩, there, ⟨e, f', g', chosen, carried, home⟩, trailed, aloft.queue,
    aloft.settings⟩

theorem haul_cases (free : c.drag = .none) :
    (c.haul m = c ∧ c.moved m = [] ∧ ∀ u ∈ onTheWay c m, u = c.scene) ∨
      Aloft c m (c.haul m) (onTheWay c m) := by
  unfold haul onTheWay
  by_cases taken : (c.beginMove m.grabbed m.start).2 = true
  · exact Or.inr (stages_induction Canvas.pull (P := Aloft c m) (fun t stops s aloft => aloft.pull s) _ []
      (aloft_beginMove taken) m.stops)
  · rw [beginMove_refused taken]
    obtain ⟨same, all⟩ := stages_idle
      (fun s : Stop => show c.pull s = c by rw [Canvas.pull, dragMove, free]) m.stops
    exact Or.inl ⟨same, if_neg taken, all⟩

/-- What a drag that has ended has done, however it ended. -/
structure Landed (c : Canvas) (p : Patch) (m : Haul) (t : Canvas) (q : Patch)
    (result : Except EditError Point) (stops : List Scene) : Prop where
  outline : t.scene.outline = c.scene.outline
  trailed : Trailed c.scene t.scene (c.moved m) stops
  queue : t.queue = c.queue
  rearranged : ∀ d, result = .ok d → p.Rearranged q

theorem Aloft.landed (aloft : Aloft c m t stops)
    (off : c.settings.routing.autoRouteOnOverlap = false) (p : Patch) (now : Nat) :
    Landed c p m (t.endMove p now).1 (t.endMove p now).2.1 (t.endMove p now).2.2
      (stops ++ [(t.endMove p now).1.scene]) := by
  obtain ⟨start, offset, drag⟩ := aloft.drag
  obtain ⟨d, f, g, holds⟩ := aloft.holds
  have released : Aloft c m { t with drag := .boxes m.grabbed start offset
                                     snapper := t.snapper.clear } stops :=
    ⟨⟨_, _, rfl⟩, aloft.there, ⟨d, f, g, holds.chosen, holds.carried, holds.home⟩, aloft.trailed,
      aloft.queue, aloft.settings⟩
  obtain ⟨⟨f', g', -, carried, -⟩, trailed⟩ := released.showOffset (t.snapper.settle offset)
  have outline := carried.recast.outline
  unfold Canvas.endMove
  simp only [drag]
  have there : ({ t with drag := .none, snapper := t.snapper.clear }.showOffset
      (t.snapper.settle offset)).scene = ({ t with drag := .boxes m.grabbed start offset
                                                   snapper := t.snapper.clear }.showOffset
      (t.snapper.settle offset)).scene := rfl
  have settings : ({ t with drag := .none, snapper := t.snapper.clear }.showOffset
      (t.snapper.settle offset)).settings = c.settings := aloft.settings
  have queue : ({ t with drag := .none, snapper := t.snapper.clear }.showOffset
      (t.snapper.settle offset)).queue = c.queue := aloft.queue
  rw [← there] at trailed outline
  generalize ({ t with drag := .none, snapper := t.snapper.clear }.showOffset
    (t.snapper.settle offset)) = u at *
  by_cases still : t.snapper.settle offset = .origin
  · simp only [still, if_true]
    exact ⟨outline, trailed, queue, fun _ _ => .refl p⟩
  · simp only [still, if_false]
    generalize hmade : Document.inSequence p moveLabel _ = made
    obtain ⟨q, result⟩ := made
    cases result with
    | error fault => exact ⟨outline, trailed, queue, fun e ok => absurd ok (by simp)⟩
    | ok _ =>
      have off' : u.requestSync.settings.routing.autoRouteOnOverlap = false := settings ▸ off
      simp only [off', Bool.false_eq_true, if_false]
      exact ⟨outline, trailed, queue, fun _ _ => Patch.rearranged_inSequence hmade⟩

/-- After a drag on a canvas that was not dragged, the cables have followed the boxes. -/
theorem landed_move (free : c.drag = .none)
    (off : c.settings.routing.autoRouteOnOverlap = false) (p : Patch) (m : Haul) :
    Landed c p m (c.move p m).1 (c.move p m).2.1 (c.move p m).2.2 (c.stops p m) := by
  rcases haul_cases (m := m) free with ⟨idle, none, all⟩ | aloft
  · have ended : c.move p m = ({ c with drag := .none }, p, .ok .origin) := by
      rw [move, idle, Canvas.endMove, free]
    rw [Canvas.stops, ended]
    refine ⟨rfl, none ▸ Scene.trailed_idle fun u hu => ?_, rfl, fun _ _ => .refl p⟩
    rcases List.mem_append.1 hu with old | new
    · exact all u old
    · rw [List.mem_singleton.1 new]
  · exact aloft.landed off p m.now

end Canvas

end Patchbay
