import Patchbay.Proofs.Joined
import Patchbay.Proofs.Marks

/-!
# Bringing a canvas in line twice

A canvas that has just been brought in line with a patch is at rest: doing it once more leaves the
canvas as it is. That takes a scene in which no two boxes have the same handle. A canvas that stays
with one patch always has such a scene. A canvas that goes from one document to another need not:
a node of the second can get the handle that a box has from the first.
-/

namespace Patchbay

open Keyed (keys)

theorem Drag.isLost_congr {s t : Scene} (boxes : ∀ k, (t.box? k).isSome = (s.box? k).isSome)
    (cables : ∀ k, (t.cable? k).isSome = (s.cable? k).isSome) (d : Drag) :
    d.isLost t = d.isLost s := by
  cases d <;> simp only [isLost, ← Option.not_isSome, boxes, cables]

theorem Selection.retain_congr {s t : Scene} (boxes : ∀ k, (t.box? k).isSome = (s.box? k).isSome)
    (cables : ∀ k, (t.cable? k).isSome = (s.cable? k).isSome) (sel : Selection) :
    sel.retain t = sel.retain s := by
  simp only [retain, boxes, cables]

theorem Selection.retain_retain (sel : Selection) (s : Scene) :
    (sel.retain s).retain s = sel.retain s := by
  simp [retain, List.filter_filter]

namespace Canvas

variable {c : Canvas} {p : Patch}

/-- In line with a patch, and with itself: what is selected is there and marked, no synchronising
waits, and nothing is dragged that is gone. -/
structure AtRest (c : Canvas) (p : Patch) : Prop where
  settled : ∃ shown blanks, Scene.Settled p.toContents shown blanks c.scene
  marked : c.scene.Bears c.selection
  kept : c.selection.retain c.scene = c.selection
  quiet : c.syncPending = false
  held : c.drag.isLost c.scene = false

def unresolved (s : Scene) (p : Patch) : Nat :=
  s.unresolved s.ownerOf? (Listing.firstWires [] p.toContents.listing.wires)

theorem AtRest.sync_eq (rest : AtRest c p) (nodup : (keys p.nodes).Nodup) :
    c.sync p = (c, { p with deliveries := p.deliveries + 2 }, { skipped := unresolved c.scene p }) := by
  obtain ⟨shown, blanks, settled⟩ := rest.settled
  have again := settled.reconcile_eq nodup
  have same : { c with syncPending := false } = c := by rw [← rest.quiet]
  have drop : c.dropLostDrag = c := by
    rw [dropLostDrag, rest.held]
    rfl
  have listed : Document.listing (Document.deliver (Document.deliver p)) = p.toContents.listing := rfl
  simp only [sync, listed, again, rest.kept, markSelection, rest.marked.mark_eq]
  rw [same, drop]
  rfl

theorem marked_dropLostDrag (bears : c.scene.Bears c.selection) :
    (∃ f g, c.scene.Marked c.dropLostDrag.scene f g) ∧
      c.dropLostDrag.scene.Bears c.dropLostDrag.selection := by
  have unmarked : c.scene.Marked c.scene (fun _ b => b) fun k => c.selection.cables.contains k :=
    ⟨(Arena.mapValues_eq_self fun _ _ _ => rfl).symm, fun _ b => b.alike_rfl,
      (Arena.mapValues_eq_self fun k x found => by rw [← bears.cables k x found]).symm, rfl⟩
  unfold dropLostDrag
  split
  · dsimp only [clearTarget]
    split
    · exact ⟨⟨_, _, unmarked⟩, bears⟩
    · next ref _ => exact ⟨⟨_, _, Scene.marked_updateJack bears ref false⟩, bears.updateJack ref _⟩
  · exact ⟨⟨_, _, unmarked⟩, bears⟩

theorem marked_pass {δ : Type} [Document δ] (c : Canvas) (d : δ) : ∃ f g,
    (c.scene.reconcile (Document.listing (Document.deliver (Document.deliver d)))).1.Marked
      (c.sync d).1.scene f g := by
  simp only [sync]
  generalize c.scene.reconcile _ = result
  obtain ⟨s, report⟩ := result
  obtain ⟨⟨f, g, dropped⟩, -⟩ := marked_dropLostDrag
    (c := { c with scene := s, syncPending := false, selection := c.selection.retain s }.markSelection)
    (Scene.bears_mark _ s)
  exact ⟨_, _, (Scene.marked_mark (c.selection.retain s) s).trans dropped⟩

theorem marked_sync (c : Canvas) (p : Patch) : ∃ f g,
    (c.scene.reconcile p.toContents.listing).1.Marked (c.sync p).1.scene f g :=
  marked_pass c p

theorem rest_dropLostDrag (c : Canvas) : c.dropLostDrag.selection = c.selection ∧
    c.dropLostDrag.syncPending = c.syncPending ∧
    (c.dropLostDrag.drag = .none ∨ c.dropLostDrag.drag = c.drag ∧ c.drag.isLost c.scene = false) := by
  unfold dropLostDrag
  split
  · dsimp only [clearTarget]
    split <;> exact ⟨rfl, rfl, Or.inl rfl⟩
  · next held => exact ⟨rfl, rfl, Or.inr ⟨rfl, by simpa using held⟩⟩

theorem atRest_dropLostDrag {shown blanks : Keyed Box}
    (settled : Scene.Settled p.toContents shown blanks c.scene) (bears : c.scene.Bears c.selection)
    (kept : c.selection.retain c.scene = c.selection) (quiet : c.syncPending = false) :
    AtRest c.dropLostDrag p ∧ unresolved c.dropLostDrag.scene p = unresolved c.scene p := by
  obtain ⟨⟨f, g, marked⟩, bears'⟩ := marked_dropLostDrag bears
  obtain ⟨hsel, hpending, hdrag⟩ := rest_dropLostDrag c
  have boxes := marked.recast.isSome_box?
  have cables := marked.recast.isSome_cable?
  refine ⟨⟨⟨_, _, marked.settled settled⟩, bears', ?_, hpending.trans quiet, ?_⟩,
    marked.recast.unresolved _⟩
  · rw [hsel, Selection.retain_congr boxes cables, kept]
  · rcases hdrag with hdrag | ⟨hdrag, held⟩
    · rw [hdrag]
      rfl
    · rw [hdrag, Drag.isLost_congr boxes cables, held]

/-- Whatever it was, a canvas is at rest once it is brought in line. -/
theorem atRest_sync (wf : c.scene.WellFormed) (nodup : (keys p.nodes).Nodup) :
    AtRest (c.sync p).1 (c.sync p).2.1 ∧
      (c.sync p).2.2.skipped = unresolved (c.sync p).1.scene (c.sync p).2.1 := by
  obtain ⟨shown, settled, skipped⟩ := wf.settled (c := p.toContents) nodup
  have listed : Document.listing (Document.deliver (Document.deliver p)) = p.toContents.listing := rfl
  simp only [sync, listed]
  generalize c.scene.reconcile p.toContents.listing = result at settled skipped
  obtain ⟨s, report⟩ := result
  have marked := Scene.marked_mark (c.selection.retain s) s
  have kept : (c.selection.retain s).retain ((c.selection.retain s).mark s)
      = c.selection.retain s := by
    rw [Selection.retain_congr marked.recast.isSome_box? marked.recast.isSome_cable?,
      Selection.retain_retain]
  obtain ⟨rest, same⟩ := atRest_dropLostDrag (p := p)
    (c := { c with scene := s, syncPending := false, selection := c.selection.retain s }.markSelection)
    (marked.settled settled) (Scene.bears_mark _ s) kept rfl
  refine ⟨⟨rest.settled, rest.marked, rest.kept, rest.quiet, rest.held⟩, ?_⟩
  exact skipped.trans ((marked.recast.unresolved _).symm.trans same.symm)

/-- Doing the same once more changes nothing but how often the patch was asked to deliver. -/
def SettlesAtOnce (c : Canvas) (p : Patch) : Prop :=
  let (c₁, p₁, report) := c.sync p
  c₁.sync p₁ = (c₁, { p₁ with deliveries := p₁.deliveries + 2 }, { skipped := report.skipped })

theorem settlesAtOnce (wf : c.scene.WellFormed) (nodup : (keys p.nodes).Nodup) :
    SettlesAtOnce c p := by
  obtain ⟨rest, skipped⟩ := atRest_sync wf nodup
  have again := rest.sync_eq nodup
  rw [← skipped] at again
  exact again

/-- Any canvas comes to rest at once with any patch, if no two of its boxes have the same handle; and
no two have as long as the canvas stays with one patch. -/
theorem sync_sync :
    (∀ c, Reached c → c.scene.handles.Nodup → ∀ p : Patch, (keys p.nodes).Nodup →
      SettlesAtOnce c p) ∧
    ∀ (settings : CanvasSettings) (p : Patch), p.Loaded → ∀ events : List Event,
      Reached (play settings p events).1 ∧ (play settings p events).1.scene.handles.Nodup ∧
        (keys (play settings p events).2.nodes).Nodup := by
  constructor
  · intro c reached distinct p nodup
    exact settlesAtOnce (Scene.wellFormed_iff.2 ⟨reached.regular, distinct⟩) nodup
  · intro settings p loaded events
    have joined := joined_play settings loaded events
    exact ⟨reached_play settings p events, joined.wf.handles, joined.bounded.nodup⟩

end Canvas

def Patch.pair : Patch where
  nodes := [(1, ⟨"osc~", ⟨0, 0, 40, 20⟩, [], []⟩), (2, ⟨"dac~", ⟨0, 50, 40, 20⟩, [], []⟩)]
  next := 3

/-- A patch that has given out a handle and is empty again. -/
def Patch.emptied : Patch :=
  Mutation.undo.run ((Mutation.edit (.createNode "a" ⟨0, 0⟩)).run {})

namespace Canvas

open Patch (pair emptied)

/-- The canvas of a patch that held two nodes, gone on to an empty one, with a new box. -/
def strayed : Canvas := ((((ofSettings {}).sync pair).1).placeBlank ⟨5, 50⟩).1

theorem reached_strayed : Reached strayed :=
  ((Reached.ofSettings {}).call pair .sync).call emptied (.placeBlank ⟨5, 50⟩)

theorem sync_sync_strayed :
    (Reached strayed ∧ strayed.scene.handles.Nodup ∧ (keys pair.nodes).Nodup ∧
      SettlesAtOnce strayed pair) ∧
    (Patch.Loaded {} ∧ Reached (play {} {} [.call (.placeBlank ⟨5, 5⟩), .call (.commitBlank 1 "a")]).1 ∧
      (play {} {} [.call (.placeBlank ⟨5, 5⟩), .call (.commitBlank 1 "a")]).1.scene.handles.Nodup ∧
        (keys (play {} {} [.call (.placeBlank ⟨5, 5⟩),
          .call (.commitBlank 1 "a")]).2.nodes).Nodup) := by
  have distinct : strayed.scene.handles.Nodup := by decide +kernel
  have nodup : (keys pair.nodes).Nodup := by decide
  exact ⟨⟨reached_strayed, distinct, nodup, sync_sync.1 strayed reached_strayed distinct pair nodup⟩,
    .empty, sync_sync.2 {} {} .empty _⟩

/-- The new box gets the handle that an old one has. From then on the two take turns: each pass
refreshes the one that the pass before has put first. -/
theorem sync_strayed_twice : ¬ ∀ c, Reached c → ∀ p : Patch, (keys p.nodes).Nodup → SettlesAtOnce c p := by
  intro always
  have reached := reached_strayed.call emptied (.commitBlank 3 "b")
  have nodup : (keys ((Call.commitBlank 3 "b").run strayed emptied).2.nodes).Nodup := by decide +kernel
  have again := congrArg (fun r => r.2.2.boxesUpdated) (always _ reached _ nodup)
  revert again
  decide +kernel

end Canvas

end Patchbay
