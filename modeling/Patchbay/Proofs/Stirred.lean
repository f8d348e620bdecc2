import Patchbay.Canvas.Segment
import Patchbay.Proofs.Loyalty
import Patchbay.Proofs.Retouch

/-!
# What a gesture leaves on the canvas

A gesture takes hold of something, moves it about and lets go. Whichever it is, at most blank boxes go;
cables keep their ends, and follow the boxes that are put elsewhere.
-/

namespace Patchbay

open Keyed (keys)

namespace Scene

/-- A scene that has lost at most boxes without a handle. -/
def Sheds (s t : Scene) : Prop :=
  ∃ ks : List Nat, (∀ k ∈ ks, ∀ b, s.box? k = some b → b.handle = none) ∧
    t.outline = (ks.foldl Scene.removeBox s).outline

variable {s t : Scene}

theorem sheds_of_outline (same : t.outline = s.outline) : s.Sheds t :=
  ⟨[], fun _ hk => absurd hk List.not_mem_nil, same⟩

theorem Sheds.wellFormed (sheds : s.Sheds t) (wf : s.WellFormed) : t.WellFormed := by
  obtain ⟨ks, -, outline⟩ := sheds
  obtain ⟨regular, distinct⟩ := wellFormed_iff.1 wf
  refine wellFormed_iff.2 ⟨(regular.foldl_removeBox ks).of_outline outline, ?_⟩
  rw [handles_of_outline outline]
  exact distinct.sublist (Canvas.handles_removeBox s ks)

theorem Sheds.numbered (sheds : s.Sheds t) (numbered : s.Numbered) : t.Numbered := by
  obtain ⟨ks, -, outline⟩ := sheds
  refine (numbered.subset ?_).of_outline outline
  rw [boxes_foldl_removeBox]
  exact List.filter_subset_self _

theorem Terminal.shed {h i : Nat} {side : Side} {ref : JackRef}
    (terminal : Terminal s.boxes h side i ref) (sheds : s.Sheds t) : Terminal t.boxes h side i ref := by
  obtain ⟨ks, blank, outline⟩ := sheds
  exact (terminal.retained (retains_foldl_removeBox blank)).retained (retains_of_outline outline)

end Scene

namespace Canvas

open Scene (Sheds Trailed trail)

structure Stretch where
  key : Nat
  edges : Edges
  start : Point
  stops : List Stop
  deriving DecidableEq, Repr

structure Draw where
  jack : JackRef
  multi : Bool
  stops : List Point
  deriving DecidableEq, Repr

structure Bend where
  key : Nat
  start : Point
  stops : List Point
  now : Nat
  deriving DecidableEq, Repr

/-- The gestures that a canvas takes to its document. -/
inductive Act where
  | move (m : Haul)
  | resize (m : Stretch)
  | align (alignment : Alignment)
  | delete
  | connect (m : Draw)
  | bend (m : Bend)
  deriving DecidableEq, Repr

def pullEdges (c : Canvas) (s : Stop) : Canvas := (c.dragResize s.position s.bypass s.now).1

def stretch (c : Canvas) (m : Stretch) : Canvas :=
  m.stops.foldl pullEdges (c.beginResize m.key m.edges m.start).1

def draw (c : Canvas) (m : Draw) : Canvas :=
  m.stops.foldl (fun c s => (c.dragConnection s).1) (c.beginConnection m.jack m.multi).1

def bend (c : Canvas) (m : Bend) : Canvas :=
  m.stops.foldl (fun c s => (c.dragSegment s).1) (c.beginSegment m.key m.start).1

/-- A gesture from its start to its end. What a bend queues is written at once. -/
def Act.run (c : Canvas) (p : Patch) : Act → Canvas × Patch
  | move m => ((c.move p m).1, (c.move p m).2.1)
  | resize m => (((c.stretch m).endResize p).1, ((c.stretch m).endResize p).2.1)
  | align a => ((c.alignSelection p a).1, (c.alignSelection p a).2.1)
  | delete => ((c.deleteSelection p).1, (c.deleteSelection p).2.1)
  | connect m => (((c.draw m).endConnection p).1, ((c.draw m).endConnection p).2.1)
  | bend m =>
    let (c, p, _) := (c.bend m).endSegment p m.now
    let (c, p, _) := c.flushTokens p
    (c, p)

/-- The boxes that a gesture takes hold of to put them elsewhere. -/
def Act.moved (c : Canvas) : Act → List Nat
  | move m => c.moved m
  | resize m => if (c.beginResize m.key m.edges m.start).2 then [m.key] else []
  | align a => keys (c.alignMoves a)
  | _ => []

/-- The scenes in which they have just been put elsewhere. -/
def Act.stops (c : Canvas) (p : Patch) : Act → List Scene
  | move m => c.stops p m
  | resize m => stages pullEdges (c.beginResize m.key m.edges m.start).1 m.stops
  | align a =>
    match c.alignSelection p a with
    | (t, _, .ok (_ + 1)) => [t.scene]
    | _ => []
  | _ => []

/-- A canvas and a patch after a gesture, as far as its undoing is concerned. -/
structure Stirred (c : Canvas) (p : Patch) (t : Canvas) (q : Patch) (moved : List Nat)
    (stops : List Scene) : Prop where
  sheds : c.scene.Sheds t.scene
  former : ∀ y ∈ t.scene.cables, ∃ x ∈ c.scene.cables, x.2.handle = y.2.handle ∧
    (y.2.unsaved = true → x.2.unsaved = true)
  anchored : ∀ u ∈ stops, ∀ x, (u.ends? x).isSome = (c.scene.ends? x).isSome
  kept : ∀ x ∈ c.scene.cables, q.wire? x.2.handle = p.wire? x.2.handle →
    ∃ y ∈ t.scene.cables, (y.2.handle = x.2.handle ∧ y.2.outlet = x.2.outlet ∧
      y.2.inlet = x.2.inlet) ∧ (y.2.token = x.2.token ∧ y.2.unsaved = x.2.unsaved) ∧
        y.2.route = (trail moved stops x.2).route

variable {c t : Canvas} {p q : Patch} {moved : List Nat} {stops : List Scene}

theorem stirred_of_trailed (sheds : c.scene.Sheds t.scene)
    (trailed : Trailed c.scene t.scene moved stops) : Stirred c p t q moved stops where
  sheds := sheds
  former y hy := by
    obtain ⟨x, on, hx, same⟩ := trailed.of_mem hy
    rw [same, Scene.trail_eq]
    exact ⟨_, hx, rfl, id⟩
  anchored := trailed.anchored
  kept x hx _ := by
    obtain ⟨on, hy⟩ := trailed.exists_mem hx
    refine ⟨_, hy, ?_, ?_, rfl⟩
    · rw [Scene.trail_eq]
      exact ⟨rfl, rfl, rfl⟩
    · rw [Scene.trail_eq]
      exact ⟨rfl, rfl⟩

/-! ## Boxes that are put elsewhere -/

theorem stirred_move (free : c.drag = .none) (off : c.settings.routing.autoRouteOnOverlap = false)
    (m : Haul) : Stirred c p (c.move p m).1 q ((Act.move m).moved c) ((Act.move m).stops c p) :=
  have landed := landed_move free off p m
  stirred_of_trailed (Scene.sheds_of_outline landed.outline) landed.trailed

structure Stretched (c : Canvas) (key : Nat) (t : Canvas) (stops : List Scene) : Prop where
  drag : ∃ edges start offset, t.drag = .resize key edges start offset
  there : (t.scene.box? key).isSome = true
  outline : t.scene.outline = c.scene.outline
  trailed : Trailed c.scene t.scene [key] stops

theorem stretched_beginResize {m : Stretch}
    (taken : (c.beginResize m.key m.edges m.start).2 = true) :
    Stretched c m.key (c.beginResize m.key m.edges m.start).1 [] := by
  have outline := outline_beginResize c m.key m.edges m.start
  unfold beginResize at taken outline ⊢
  split at taken
  · exact absurd taken Bool.false_ne_true
  · next free =>
    rw [if_neg free] at outline ⊢
    have there : (c.scene.box? m.key).isSome = true := by
      rw [Bool.not_eq_true, Bool.or_eq_false_iff, Bool.not_eq_false'] at free
      obtain ⟨b, found, -⟩ := (Option.any_eq_true _ _).1 free.2
      exact Option.isSome_of_eq_some found
    refine ⟨⟨_, _, _, rfl⟩, ?_, outline, (Trailed.refl c.scene _).of_cables rfl⟩
    exact (Scene.isSome_box?_of_outline outline m.key).trans there

theorem Stretched.pullEdges {key : Nat} (stretched : Stretched c key t stops) (s : Stop) :
    Stretched c key (t.pullEdges s) (stops ++ [(t.pullEdges s).scene]) := by
  obtain ⟨⟨edges, start, offset, drag⟩, there, outline, trailed⟩ := stretched
  have outline' := (outline_dragResize t s.position s.bypass s.now).trans outline
  obtain ⟨b, found⟩ := Option.isSome_iff_exists.1 there
  unfold Canvas.pullEdges
  unfold dragResize at outline' ⊢
  simp only [drag, found] at outline' ⊢
  refine ⟨⟨_, _, _, rfl⟩, ?_, outline', trailed.next rfl outline'⟩
  exact (Scene.isSome_box?_of_outline (outline'.trans outline.symm) key).trans there

theorem trailed_stretch (free : c.drag = .none) (m : Stretch) :
    Trailed c.scene (c.stretch m).scene ((Act.resize m).moved c) ((Act.resize m).stops c p) := by
  unfold stretch Act.moved Act.stops
  dsimp only
  split
  · next taken =>
    exact (stages_induction Canvas.pullEdges (P := Stretched c m.key)
      (fun t stops s held => held.pullEdges s) _ [] (stretched_beginResize taken) m.stops).trailed
  · next refused =>
    have idle : (c.beginResize m.key m.edges m.start).1 = c := by
      unfold beginResize at refused ⊢
      split at refused
      · next busy => rw [if_pos busy]
      · exact absurd rfl refused
    obtain ⟨same, all⟩ := stages_idle
      (fun s : Stop => show c.pullEdges s = c by rw [Canvas.pullEdges, dragResize, free]) m.stops
    rw [idle, same]
    exact Scene.trailed_idle all

theorem outline_stretch (c : Canvas) (m : Stretch) : (c.stretch m).scene.outline = c.scene.outline :=
  List.foldlRecOn (motive := fun t : Canvas => t.scene.outline = c.scene.outline) _ _
    (outline_beginResize ..) fun _ same _ _ => (outline_dragResize ..).trans same

theorem scene_endResize (c : Canvas) (p : Patch) : (c.endResize p).1.scene = c.scene := by
  unfold endResize
  split
  · dsimp only
    split
    · rfl
    · split
      · rfl
      · split <;> rfl
  · rfl

theorem stirred_resize (free : c.drag = .none) (m : Stretch) :
    Stirred c p ((c.stretch m).endResize p).1 q ((Act.resize m).moved c)
      ((Act.resize m).stops c p) := by
  have trailed := trailed_stretch (p := p) free m
  have outline := outline_stretch c m
  rw [← scene_endResize (c.stretch m) p] at trailed outline
  exact stirred_of_trailed (Scene.sheds_of_outline outline) trailed

theorem stirred_align (a : Alignment) : Stirred c p (c.alignSelection p a).1 q
    ((Act.align a).moved c) ((Act.align a).stops c p) := by
  have outline := outline_alignSelection c p a
  refine stirred_of_trailed (Scene.sheds_of_outline outline) ?_
  unfold Act.moved Act.stops
  dsimp only
  unfold alignSelection at outline ⊢
  by_cases locked : c.locked = true
  · simp only [locked, if_true]
    exact .refl _ _
  · by_cases none : (c.alignMoves a).isEmpty = true
    · simp only [locked, none, if_true]
      exact .refl _ _
    · simp only [locked, none, Bool.false_eq_true, if_false] at outline ⊢
      generalize Document.inSequence p alignLabel _ = made at outline ⊢
      obtain ⟨q, result⟩ := made
      cases result with
      | error fault => exact .refl _ _
      | ok _ =>
        obtain ⟨n, some⟩ : ∃ n, (c.alignMoves a).length = n + 1 := by
          refine Nat.exists_eq_succ_of_ne_zero fun zero => none ?_
          rw [List.isEmpty_iff, ← List.length_eq_zero_iff, zero]
        simp only [some] at outline ⊢
        exact (Trailed.refl c.scene _).next (placed_foldl c.scene (c.alignMoves a)).2.1 outline

/-! ## Cables that come and go -/

theorem stirred_delete : Stirred c p (c.deleteSelection p).1 q [] [] := by
  have blank := blank_uncommitted c
  have idle {t : Canvas} (same : t.scene = c.scene) : Stirred c p t q [] [] :=
    stirred_of_trailed (same ▸ Scene.sheds_of_outline rfl) (same ▸ .refl c.scene [])
  have marked (sel : Selection) (ks : List Nat)
      (blank : ∀ k ∈ ks, ∀ b, c.scene.box? k = some b → b.handle = none) :
      c.scene.Sheds (sel.mark (ks.foldl Scene.removeBox c.scene)) ∧
        Trailed c.scene (sel.mark (ks.foldl Scene.removeBox c.scene)) [] [] := by
    have marks := (Scene.marked_mark sel (ks.foldl Scene.removeBox c.scene)).cableArena
    rw [Scene.cableArena_foldl_removeBox] at marks
    exact ⟨⟨ks, blank, Scene.outline_mark _ _⟩, Scene.trailed_of_marks [] marks⟩
  unfold deleteSelection
  split
  · exact idle rfl
  · dsimp only
    split
    · split <;> exact idle rfl
    · obtain ⟨sheds, trailed⟩ := marked _ _ blank
      split <;> exact stirred_of_trailed sheds trailed

theorem cableArena_clearTarget (c : Canvas) :
    c.clearTarget.scene.cableArena = c.scene.cableArena := by
  unfold clearTarget
  split <;> rfl

theorem cableArena_aim (c : Canvas) (target : Option JackRef) :
    (c.aim target).scene.cableArena = c.scene.cableArena := by
  unfold aim
  split
  · rfl
  · split
    · exact cableArena_clearTarget c
    · dsimp only
      split <;> exact cableArena_clearTarget c

theorem cableArena_dragConnection (c : Canvas) (position : Point) :
    (c.dragConnection position).1.scene.cableArena = c.scene.cableArena := by
  unfold dragConnection
  split
  · dsimp only
    split
    · rfl
    · exact cableArena_aim _ _
  · rfl

theorem cableArena_endConnection (c : Canvas) (p : Patch) :
    (c.endConnection p).1.scene.cableArena = c.scene.cableArena := by
  unfold endConnection
  split
  · dsimp only
    split
    · exact cableArena_clearTarget _
    · split <;> exact cableArena_clearTarget _
  · rfl

theorem stirred_connect (m : Draw) : Stirred c p ((c.draw m).endConnection p).1 q [] [] := by
  obtain ⟨outline, cables⟩ : (c.draw m).scene.outline = c.scene.outline ∧
      (c.draw m).scene.cableArena = c.scene.cableArena := by
    refine List.foldlRecOn (motive := fun t : Canvas => t.scene.outline = c.scene.outline ∧
      t.scene.cableArena = c.scene.cableArena) _ _ ⟨outline_beginConnection .., ?_⟩ ?_
    · unfold beginConnection
      split
      · rfl
      · split <;> rfl
    · rintro t ⟨outline, cables⟩ s -
      exact ⟨(outline_dragConnection t s).trans outline, (cableArena_dragConnection t s).trans cables⟩
  have sheds := Scene.sheds_of_outline ((outline_endConnection (c.draw m) p).trans outline)
  exact stirred_of_trailed sheds ((Trailed.refl c.scene []).of_cables
    ((cableArena_endConnection (c.draw m) p).trans cables))

/-! ## Pieces of cables -/

structure Bent (c : Canvas) (key : Nat) (t : Canvas) : Prop where
  held : ∀ d, t.drag = .segment d → d.cable = key
  cables : ∃ r : Cable → Route, t.scene.cableArena
    = c.scene.cableArena.mapValues fun k x => if k = key then { x with route := r x } else x
  outline : t.scene.outline = c.scene.outline
  queue : t.queue = c.queue

theorem bent_bend (free : c.drag = .none) (m : Bend) : Bent c m.key (c.bend m) := by
  have idle : c.scene.cableArena = c.scene.cableArena.mapValues fun k x =>
      if k = m.key then { x with route := x.route } else x :=
    (Arena.mapValues_eq_self fun _ _ _ => ite_self _).symm
  refine List.foldlRecOn (motive := Bent c m.key) _ _ ?_ ?_
  · have outline := outline_beginSegment c m.key m.start
    generalize ht : (c.beginSegment m.key m.start).1 = t at outline ⊢
    have refused {t : Canvas} (same : c = t) : Bent c m.key t := by
      subst same
      exact ⟨fun d drag => absurd (free.symm.trans drag) (by simp), ⟨_, idle⟩, rfl, rfl⟩
    unfold beginSegment at ht
    split at ht
    · exact refused ht
    · split at ht
      · split at ht
        · exact refused ht
        · split at ht
          · subst ht
            refine ⟨fun d drag => ?_, ⟨_, idle⟩, rfl, rfl⟩
            exact (congrArg SegmentDrag.cable (Drag.segment.inj drag)).symm
          · exact refused ht
      · exact refused ht
  · rintro t ⟨held, ⟨r, cables⟩, outline, queue⟩ s -
    have outline' := (outline_dragSegment t s).trans outline
    generalize hu : (t.dragSegment s).1 = u at outline' ⊢
    have stays (u : Canvas) (same : t = u) : Bent c m.key u := by
      subst same
      exact ⟨held, ⟨r, cables⟩, outline, queue⟩
    unfold dragSegment at hu
    split at hu
    · next d drag =>
      have key := held d drag
      split at hu
      · -- Its ends are gone, and the drag is given up.
        subst hu
        exact ⟨fun _ drag => absurd drag (by simp), ⟨r, cables⟩, outline, queue⟩
      · next a b _ =>
        split at hu
        · exact stays u hu
        · next plan _ =>
          subst hu
          refine ⟨fun e drag => ?_, ⟨fun _ => (Route.segmented plan).reanchor a b, ?_⟩, outline',
            queue⟩
          · exact (congrArg SegmentDrag.cable (Drag.segment.inj drag)).symm.trans key
          · dsimp only [Scene.updateCable]
            rw [key, Arena.update_eq_mapValues, cables, Arena.mapValues_mapValues]
            refine congrArg c.scene.cableArena.mapValues (funext fun k => funext fun x => ?_)
            split <;> rfl
    · exact stays u hu

theorem push_of_isEmpty {queue : WriteQueue} (quiet : queue.isEmpty = true) (h : Nat)
    (token : String) (now : Nat) : ∃ made : WriteQueue, made.pending = [(h, token)] ∧
      ∀ p : Patch, queue.push p h token now = (made, p) := by
  have none : queue.pending = [] := by simpa [WriteQueue.isEmpty] using quiet
  by_cases full : queue.capacity ≤ 0
  · refine ⟨{ queue with pending := [(h, token)], deadline := some (now + queue.delay) }, rfl,
      fun p => ?_⟩
    simp only [WriteQueue.push, none, Keyed.has, Keyed.get?, Option.isSome_none, Bool.not_false,
      WriteQueue.size, List.length_nil, full, decide_true, Bool.and_self, if_true,
      WriteQueue.flush, quiet]
    rfl
  · refine ⟨{ queue with
        pending := [(h, token)]
        deadline := some (queue.deadline.getD (now + queue.delay)) }, rfl, fun p => ?_⟩
    simp only [WriteQueue.push, none, Keyed.has, Keyed.get?, Option.isSome_none, Bool.not_false,
      WriteQueue.size, List.length_nil, full, decide_false, Bool.and_false, Bool.false_eq_true,
      if_false]
    rfl

theorem endSegment_cases (quiet : t.queue.isEmpty = true) (now : Nat) :
    (∀ p : Patch, (t.endSegment p now).1.queue = t.queue ∧ (t.endSegment p now).2.1 = p) ∨
    ∃ (d : SegmentDrag) (x : Cable) (token : String) (made : WriteQueue),
      t.drag = .segment d ∧ t.scene.cable? d.cable = some x ∧
      made.pending = [(x.handle, token)] ∧ ∀ p : Patch, t.endSegment p now
        = ({ t with
              drag := .none
              scene := t.scene.updateCable d.cable fun y =>
                { y with token := token, unsaved := true }
              queue := made }, p, true) := by
  cases drag : t.drag with
  | segment d =>
    by_cases moved : d.moved = true
    · cases found : t.scene.cable? d.cable with
      | none =>
        left
        intro p
        simp only [endSegment, drag, moved, if_true, found, and_self]
      | some x =>
        obtain ⟨made, single, pushed⟩ := push_of_isEmpty quiet x.handle x.route.token now
        refine Or.inr ⟨d, x, _, made, rfl, found, single, fun p => ?_⟩
        simp only [endSegment, drag, moved, if_true, found, pushToken, pushed]
    · left
      intro p
      simp only [endSegment, drag, moved, Bool.false_eq_true, if_false, and_self]
  | _ =>
    left
    intro p
    simp only [endSegment, drag, and_self]

theorem stirred_bend (free : c.drag = .none) (quiet : c.queue.isEmpty = true)
    (saved : ∀ x ∈ c.scene.cables, x.2.unsaved = false) (m : Bend)
    (records : ((Act.bend m).run c (p.withHistory {})).2.history.done ≠ []) :
    Stirred c p ((Act.bend m).run c p).1 ((Act.bend m).run c p).2 [] [] := by
  obtain ⟨held, ⟨r, cables⟩, outline, queue⟩ := bent_bend free m
  have outline' : ((Act.bend m).run c p).1.scene.outline = c.scene.outline :=
    (outline_markSaved _).trans ((outline_endSegment _ _ _).trans outline)
  rw [← queue] at quiet
  rcases endSegment_cases quiet m.now with idle | ⟨d, x, token, made, drag, found, single, pushed⟩
  · -- Without a token there is nothing to record.
    obtain ⟨same, doc⟩ := idle (p.withHistory {})
    have unwritten : ((Act.bend m).run c (p.withHistory {})).2 = p.withHistory {} := by
      simp only [Act.run, flushTokens, WriteQueue.flush, same, quiet, if_true, doc]
    rw [unwritten] at records
    exact absurd rfl records
  · have run (q : Patch) : (Act.bend m).run c q = (markSaved { c.bend m with
        drag := .none
        scene := (c.bend m).scene.updateCable d.cable fun y =>
          { y with token := token, unsaved := true }
        queue := (made.flush q).1 }, (made.flush q).2.1) := by
      simp only [Act.run, pushed, flushTokens]
    have key := held d drag
    have other : ((Act.bend m).run c p).2.wire? x.handle ≠ p.wire? x.handle := by
      rw [run] at records ⊢
      exact Patch.wire?_flush single records
    let last (k : Nat) (x : Cable) : Cable :=
      if k = m.key then { x with route := r x, token := token, unsaved := false }
      else { x with unsaved := false }
    have all : ((Act.bend m).run c p).1.scene.cables = Keyed.mapValues c.scene.cables last := by
      have saved (u : Canvas) : u.markSaved.scene.cableArena
          = u.scene.cableArena.mapValues fun _ x => { x with unsaved := false } := rfl
      have arena : ((Act.bend m).run c p).1.scene.cableArena
          = c.scene.cableArena.mapValues last := by
        rw [run]
        dsimp only
        rw [saved]
        dsimp only [Scene.updateCable]
        rw [key, Arena.update_eq_mapValues, cables, Arena.mapValues_mapValues,
          Arena.mapValues_mapValues]
        refine congrArg c.scene.cableArena.mapValues (funext fun k => funext fun x => ?_)
        dsimp only [last]
        split <;> rfl
      rw [Scene.cables, arena]
      exact c.scene.cableArena.entries_mapValues last
    refine ⟨Scene.sheds_of_outline outline', fun y hy => ?_,
      fun _ hu => absurd hu List.not_mem_nil, fun y hy same => ?_⟩
    · rw [all] at hy
      obtain ⟨z, hz, same⟩ := Keyed.mem_mapValues.1 hy
      rw [same]
      dsimp only [last]
      split <;> exact ⟨_, hz, rfl, fun unsaved => absurd unsaved Bool.false_ne_true⟩
    · -- The wire of the bent cable has another token now, so this is another cable.
      have apart : y.1 ≠ m.key := by
        rintro here
        have named : x.handle = y.2.handle := by
          rw [Scene.cable?, key, cables, Arena.get?_mapValues,
            Arena.get?_of_mem (here ▸ hy : (m.key, y.2) ∈ c.scene.cables)] at found
          simp only [Option.map_some, if_true, Option.some.injEq] at found
          rw [← found]
        exact other (named ▸ same)
      refine ⟨(y.1, { y.2 with unsaved := false }), ?_, ⟨rfl, rfl, rfl⟩, ⟨rfl, (saved y hy).symm⟩,
        rfl⟩
      rw [all]
      exact Keyed.mem_mapValues.2 ⟨y.2, hy, (if_neg apart).symm⟩

end Canvas

end Patchbay
