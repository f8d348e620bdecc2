import Patchbay.Proofs.Chosen
import Patchbay.Proofs.Haul
import Patchbay.Proofs.Relaid
import Patchbay.Proofs.Waiting

/-!
# Boxes that are let go

While boxes are dragged only the canvas shows it, and their nodes are moved at the end. Whatever snaps
on the way, the boxes are let go where they were last shown, and their nodes are moved just as far.
-/

namespace Patchbay

open Keyed (keys mapValues change)

namespace Snapper

theorem settle_moveAxis (settings : SnapSettings) (axis : Axis) (r : MoveRequest) (now : Nat)
    (a : SnapAxis) : ((moveAxis settings axis r now a).1.held.map HeldSnap.offset).getD
      (moveAxis settings axis r now a).2 = (moveAxis settings axis r now a).2 := by
  have fresh (a : SnapAxis) : ((freshAxis settings axis r now a).1.held.map HeldSnap.offset).getD
      (freshAxis settings axis r now a).2 = (freshAxis settings axis r now a).2 := by
    unfold freshAxis
    split <;> rfl
  unfold moveAxis
  split
  · next held =>
    split
    · simp only [held, Option.map_some, Option.getD_some]
    · exact fresh _
  · exact fresh a

theorem settle_clear (s : Snapper) (offset : Point) : s.clear.settle offset = offset := rfl

/-- What a move answers with is what is committed when the mouse goes up. -/
theorem settle_move (s : Snapper) (r : MoveRequest) (now : Nat) :
    (s.move r now).1.settle (s.move r now).2 = (s.move r now).2 := by
  unfold move
  split
  · exact settle_clear s _
  · exact Point.ext_iff.2 ⟨settle_moveAxis .., settle_moveAxis ..⟩

end Snapper

namespace Scene

variable {s t : Scene} {ks : List Nat} {h : Nat} {e : Nat × Box} {f : Nat → Box → Box}
  {g : Nat → Cable → Cable}

def handlesAt (s : Scene) (ks : List Nat) : List Nat :=
  ks.filterMap fun k => (s.box? k).bind Box.handle

theorem of_mem_handlesAt (exact : s.boxArena.Exact) (mem : h ∈ s.handlesAt ks) :
    ∃ e ∈ s.boxes, e.1 ∈ ks ∧ e.2.handle = some h := by
  obtain ⟨k, chosen, named⟩ := List.mem_filterMap.1 mem
  obtain ⟨b, there, named⟩ := Option.bind_eq_some_iff.1 named
  exact ⟨(k, b), mem_boxes exact there, chosen, named⟩

theorem WellFormed.mem_handlesAt (wf : s.WellFormed) (mem : e ∈ s.boxes)
    (named : e.2.handle = some h) : h ∈ s.handlesAt ks ↔ e.1 ∈ ks := by
  constructor
  · intro there
    obtain ⟨e', mem', chosen, named'⟩ := of_mem_handlesAt wf.boxOrder there
    exact eq_of_handle wf.handles mem mem' named named' ▸ chosen
  · intro chosen
    have there : s.box? e.1 = some e.2 := box?_of_mem mem
    exact List.mem_filterMap.2 ⟨e.1, chosen, by rw [there, Option.bind_some, named]⟩

theorem WellFormed.nodup_handlesAt (wf : s.WellFormed) (nodup : ks.Nodup) :
    (s.handlesAt ks).Nodup := by
  refine nodup.filterMap fun k k' h named named' => ?_
  obtain ⟨b, there, named⟩ := Option.bind_eq_some_iff.1 named
  obtain ⟨b', there', named'⟩ := Option.bind_eq_some_iff.1 named'
  exact congrArg Prod.fst (eq_of_handle wf.handles (mem_boxes wf.boxOrder there)
    (mem_boxes wf.boxOrder there') named named')

theorem Recast.handlesAt (recast : Recast s t f g) (ks : List Nat) :
    t.handlesAt ks = s.handlesAt ks := by
  refine List.filterMap_congr fun k _ => ?_
  rw [recast.box?]
  cases s.box? k with
  | none => rfl
  | some b => simp only [Option.map_some, Option.bind_some, recast.handle]

theorem Abreast.carry {c d : Contents} {moved : List Nat} {offset : Point} (abreast : Abreast c s)
    (carried : Carried s t moved offset f g) (distinct : moved.Nodup)
    (nodes : d.nodes = mapValues c.nodes
      (change ((s.handlesAt moved).map fun h => (h, Node.relaid fun r => r.shifted offset)))) :
    Abreast d t := by
  have handles : ((s.handlesAt moved).map id).Nodup := by
    rw [List.map_id]
    exact abreast.wf.nodup_handlesAt distinct
  refine abreast.relay (s.handlesAt moved) id (fun _ r => r.shifted offset) carried.recast.outline
    carried.recast.boxes nodes handles carried.recast.handle ?_ ?_
  · intro e mem h there info j named steady
    have alike := carried.alike e.1 e.2
    have chosen := (abreast.wf.mem_handlesAt mem named).1 there
    rw [if_pos (List.contains_iff_mem.2 chosen)] at alike
    exact (steady.shifted offset).of_alike alike
  · intro e mem h info j named apart steady
    have alike := carried.alike e.1 e.2
    rw [List.map_id, abreast.wf.mem_handlesAt mem named] at apart
    rw [if_neg (mt List.contains_iff_mem.1 apart)] at alike
    exact steady.of_alike alike

end Scene

namespace Canvas

open Scene (Abreast Carried)

/-- What can be changed while something is dragged, other than by the mouse. -/
inductive Tuning where
  | settings (settings : CanvasSettings)
  | viewport (viewport : Viewport)
  | gridOrigin (origin : Point)

def tune (c : Canvas) : Tuning → Canvas
  | .settings settings => c.setSettings settings
  | .viewport viewport => { c with viewport := viewport }
  | .gridOrigin origin => { c with gridOrigin := origin }

/-- A stop of the mouse on its way, or a change of what it snaps to. -/
inductive Tug where
  | stop (s : Stop)
  | tune (t : Tuning)

/-- The canvas and the offset that the last stop of a move was answered with. -/
def tow : Canvas × Point → Tug → Canvas × Point
  | (c, _), .stop s => c.dragMove s.position s.bypass s.now
  | (c, last), .tune t => (c.tune t, last)

variable {c t : Canvas} {p q : Patch} {moved : List Nat} {key now : Nat} {last : Point}

theorem tune_rest (c : Canvas) (t : Tuning) : (c.tune t).scene = c.scene ∧
    (c.tune t).drag = c.drag ∧ (c.tune t).selection = c.selection ∧
    ((c.tune t).snapper = c.snapper ∨ ∀ offset, (c.tune t).snapper.settle offset = offset) := by
  cases t with
  | settings settings => exact ⟨rfl, rfl, rfl, Or.inr fun _ => rfl⟩
  | viewport | gridOrigin => exact ⟨rfl, rfl, rfl, Or.inl rfl⟩

/-! ## Moves -/

/-- Boxes are held where the last stop was answered to put them. -/
structure Lifted (c : Canvas) (moved : List Nat) (t : Canvas) (last : Point) : Prop where
  drag : ∃ grabbed start, t.drag = .boxes grabbed start last ∧
    (t.scene.box? grabbed).isSome = true
  holds : ∃ d f g, Holds t c.scene moved d f g
  settled : t.snapper.settle last = last

theorem lifted_beginMove {grabbed : Nat} {start : Point} (chosen : c.selection.boxes.Nodup)
    (taken : (c.beginMove grabbed start).2 = true) :
    ∃ moved, moved.Nodup ∧ Lifted c moved (c.beginMove grabbed start).1 .origin := by
  obtain ⟨d, f, g, holds⟩ := (aloft_beginMove (m := ⟨grabbed, start, [], 0⟩) taken).holds
  unfold beginMove at taken
  split at taken
  · exact absurd taken Bool.false_ne_true
  · next free =>
    have begun : c.beginMove grabbed start = _ := if_neg free
    have there : (c.scene.box? grabbed).isSome = true := by
      rw [Bool.not_eq_true, Bool.or_eq_false_iff] at free
      simpa using free.2
    refine ⟨_, ?_, ⟨grabbed, start, ?_, (holds.carried.recast.isSome_box? grabbed).trans there⟩,
      ⟨d, f, g, holds⟩, ?_⟩
    · rw [moved, begun]
      simp only [if_true]
      split
      · exact chosen
      · exact List.nodup_singleton grabbed
    · rw [begun]
    · rw [begun]
      exact Snapper.settle_clear _ _

theorem Lifted.tow (lifted : Lifted c moved t last) (tug : Tug) :
    Lifted c moved (tow (t, last) tug).1 (tow (t, last) tug).2 := by
  obtain ⟨⟨grabbed, start, drag, there⟩, ⟨d, f, g, holds⟩, settled⟩ := lifted
  cases tug with
  | stop s =>
    obtain ⟨b, found⟩ := Option.isSome_iff_exists.1 there
    simp only [Canvas.tow, dragMove, drag, found]
    generalize hmoved : t.snapper.move _ _ = answer
    have settles : answer.1.settle answer.2 = answer.2 := by
      rw [← hmoved]
      exact Snapper.settle_move ..
    obtain ⟨snapper, e⟩ := answer
    have same : Holds { t with snapper := snapper } c.scene moved d f g :=
      ⟨holds.chosen, holds.carried, holds.home⟩
    obtain ⟨f', g', shown⟩ := same.showOffset e
    have there' := (shown.carried.recast.isSome_box? grabbed).trans
      ((holds.carried.recast.isSome_box? grabbed).symm.trans there)
    exact ⟨⟨grabbed, start, rfl, there'⟩,
      ⟨e, f', g', shown.chosen, shown.carried, shown.home⟩, settles⟩
  | tune u =>
    obtain ⟨scene, drag', selection, snapper⟩ := tune_rest t u
    refine ⟨⟨grabbed, start, drag'.trans drag, scene ▸ there⟩,
      ⟨d, f, g, selection ▸ holds.chosen, scene ▸ holds.carried, holds.home⟩, ?_⟩
    -- Settings that are changed let go of a snap, and then an offset is committed as it is.
    rcases snapper with same | free
    · exact (congrArg (·.settle last) same).trans settled
    · exact free last

theorem tow_cases (free : c.drag = .none) (chosen : c.selection.boxes.Nodup) (grabbed : Nat)
    (start : Point) (tugs : List Tug) :
    let (t, last) := tugs.foldl tow ((c.beginMove grabbed start).1, .origin);
    (t.scene = c.scene ∧ t.drag = .none ∧ last = .origin) ∨
      ∃ moved, moved.Nodup ∧ Lifted c moved t last := by
  by_cases taken : (c.beginMove grabbed start).2 = true
  · obtain ⟨moved, distinct, lifted⟩ := lifted_beginMove chosen taken
    refine Or.inr ⟨moved, distinct, ?_⟩
    exact List.foldlRecOn (motive := fun state : Canvas × Point => Lifted c moved state.1 state.2)
      _ _ lifted fun state lifted tug _ => lifted.tow tug
  · rw [beginMove_refused taken]
    refine Or.inl (List.foldlRecOn (motive := fun state : Canvas × Point =>
      state.1.scene = c.scene ∧ state.1.drag = .none ∧ state.2 = .origin) _ _ ⟨rfl, free, rfl⟩ ?_)
    rintro ⟨t, last⟩ ⟨scene, drag, here⟩ tug -
    dsimp only at scene drag here
    cases tug with
    | stop s =>
      simp only [tow, dragMove, drag]
      exact ⟨scene, trivial, trivial⟩
    | tune u =>
      obtain ⟨scene', drag', -⟩ := tune_rest t u
      exact ⟨scene'.trans scene, drag'.trans drag, here⟩

theorem nodes_push (queue : WriteQueue) (p : Patch) (h : Nat) (token : String) (now : Nat) :
    (queue.push p h token now).2.nodes = p.nodes := by
  unfold WriteQueue.push
  dsimp only
  split
  · rw [WriteQueue.toContents_flush]
    exact (Contents.alike_setTokens _ _).1
  · rfl

theorem nodes_pushToken (c : Canvas) (p : Patch) (key : Nat) (token : String) (now : Nat) :
    (c.pushToken p key token now).2.nodes = p.nodes := by
  unfold pushToken
  split
  · rfl
  · exact nodes_push c.queue p _ token now

theorem nodes_routeCable (c : Canvas) (p : Patch) (key now : Nat) :
    (c.routeCable p key now).2.1.nodes = p.nodes := by
  unfold routeCable
  split
  · exact nodes_pushToken ..
  · rfl

theorem abreast_routeBlocked (abreast : Abreast p.toContents c.scene) (moved : List Nat) (now : Nat) :
    Abreast (c.routeBlocked p moved now).2.toContents (c.routeBlocked p moved now).1.scene := by
  refine routeBlocked_induction (P := fun state : Canvas × Patch =>
    Abreast state.2.toContents state.1.scene) moved now (fun b q key abreast => ?_) abreast
  have boxes := Scene.boxes_congr (apart_routeCable b q key now).1
  exact abreast.keep (f := fun _ b => b) (outline_routeCable b q key now)
    (boxes.trans (Keyed.mapValues_eq_self fun _ _ => rfl).symm) (nodes_routeCable b q key now)
    (fun _ _ => rfl) fun _ _ _ _ _ _ steady => steady

theorem landed_moveNodes {f : Nat → Box → Box} {g : Nat → Cable → Cable}
    (abreast : Abreast p.toContents c.scene) (carried : Carried c.scene t.scene moved last f g)
    (chosen : t.selection.boxes = moved) (distinct : moved.Nodup) :
    ∃ q, t.moveNodes p last = (q, .ok ()) ∧ Abreast q.toContents t.scene := by
  have handles : ((c.scene.handlesAt moved).map id).Nodup := by
    rw [List.map_id]
    exact abreast.wf.nodup_handlesAt distinct
  have known : ∀ h ∈ c.scene.handlesAt moved, id h ∈ keys p.nodes := by
    intro h there
    obtain ⟨e, mem, -, named⟩ := Scene.of_mem_handlesAt abreast.wf.boxOrder there
    exact abreast.listed e mem h named
  obtain ⟨q, made, nodes⟩ := (Patch.lays_moveNode id fun _ => last).inSequence
    (c.scene.handlesAt moved) abreast.nodup known handles moveLabel
  refine ⟨q, ?_, abreast.carry carried distinct nodes⟩
  rw [← made, ← carried.recast.handlesAt, ← chosen]
  rfl

/-- Boxes that are let go stay where they were shown last, and their nodes come after them. -/
theorem Lifted.endMove (lifted : Lifted c moved t last) (distinct : moved.Nodup)
    (abreast : Abreast p.toContents c.scene) (now : Nat) : (t.endMove p now).2.2 = .ok last ∧
      Abreast (t.endMove p now).2.1.toContents (t.endMove p now).1.scene := by
  obtain ⟨⟨grabbed, start, drag, -⟩, ⟨d, f, g, holds⟩, settled⟩ := lifted
  have released := released_endMove drag p now
  rw [settled] at released
  have held : Holds { t with drag := .none, snapper := t.snapper.clear } c.scene moved d f g :=
    ⟨holds.chosen, holds.carried, holds.home⟩
  obtain ⟨f', g', chosen, carried, -⟩ := held.showOffset last
  obtain ⟨q, made, landed⟩ := landed_moveNodes (t := t.letGo last) abreast carried chosen distinct
  generalize t.endMove p now = result at released
  cases released with
  | still home =>
    refine ⟨rfl, abreast.keep carried.recast.outline carried.recast.boxes rfl
      carried.recast.handle fun e _ _ _ _ _ steady => steady.of_alike ?_⟩
    have alike := carried.alike e.1 e.2
    rwa [home, Box.shifted_origin, ite_self] at alike
  | refused away refused =>
    -- The nodes of boxes that are in step are all there.
    rw [made] at refused
    exact absurd refused (by simp)
  | moved away ok off => exact ⟨rfl, made ▸ landed⟩
  | @routed away ok on b p' routed =>
    have led := abreast_routeBlocked (c := (t.letGo last).requestSync) landed t.selection.boxes now
    rw [made] at routed
    rw [routed] at led
    exact ⟨rfl, led⟩

end Canvas

end Patchbay
