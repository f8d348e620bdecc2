import Patchbay.Proofs.Marks
import Patchbay.Proofs.Rewired

/-!
# Scenes abreast of a document

A pass reports boxes as added, updated or removed when they differ from the nodes. A scene is abreast
of a document when none does. Every pass leaves it so, and so does whatever changes boxes and nodes in
step with each other.
-/

namespace Patchbay

open Keyed (keys mapValues)

def SyncReport.boxes (r : SyncReport) : Nat × Nat × Nat :=
  (r.boxesAdded, r.boxesUpdated, r.boxesRemoved)

namespace Scene

variable {c d : Contents} {s t : Scene} {f : Nat → Box → Box} {put : Nat → Node → Node}
  {h j : Nat} {n : Node} {e : Nat × Box}

/-- The boxes show the nodes as they are, and nothing else that has a handle. -/
structure Abreast (c : Contents) (s : Scene) : Prop where
  wf : s.WellFormed
  nodup : (keys c.nodes).Nodup
  listed : ∀ e ∈ s.boxes, ∀ h, e.2.handle = some h → h ∈ keys c.nodes
  shown : ∀ j h n, c.nodes[j]? = some (h, n) →
    ∃ e ∈ s.boxes, e.2.handle = some h ∧ e.2.Steady n.info j

theorem mem_firstNodes_listing (nodup : (keys c.nodes).Nodup) {x : NodeEntry}
    (mem : x ∈ Listing.firstNodes [] c.listing.nodes) :
    ∃ n, c.nodes[x.index]? = some (x.handle, n) := by
  rw [firstNodes_listing nodup] at mem
  obtain ⟨⟨h, j⟩, there, rfl⟩ := List.mem_map.1 mem
  have there : (keys c.nodes)[j]? = some h := by simpa using List.mem_zipIdx_iff_getElem?.1 there
  obtain ⟨⟨g, n⟩, node, rfl⟩ := Option.map_eq_some_iff.1 (List.getElem?_map .. ▸ there)
  exact ⟨n, node⟩

theorem Abreast.isLive (abreast : Abreast c s) (mem : e ∈ s.boxes) :
    Scene.isLive c.listing e.2 = true := by
  cases named : e.2.handle with
  | none => simp [Scene.isLive, (abreast.wf.editing e mem).2 named]
  | some h =>
    have known : c.listing.hasNode h = true := hasNode_listing.2 (abreast.listed e mem h named)
    simp [Scene.isLive, named, known]

theorem Abreast.purge (abreast : Abreast c s) :
    (Scene.purge c.listing (s, {})).1.boxArena = s.boxArena ∧
      (Scene.purge c.listing (s, {})).2.boxes = (0, 0, 0) := by
  have kept (t : Scene) (keep : Cable → Bool) : (t.retainCables keep).1.boxArena = t.boxArena :=
    boxArena_keepCables t keep
  have live : ((s.retainCables fun d => c.listing.hasWire d.handle).1.boxes.filter fun e =>
      !Scene.isLive c.listing e.2) = [] := by
    rw [boxes_congr (kept s _)]
    exact List.filter_eq_nil_iff.2 fun e mem => by simp [abreast.isLive mem]
  simp only [Scene.purge, purgeCables, purgeBoxes, live, keys, List.map_nil, List.foldl_nil]
  exact ⟨(kept _ _).trans (kept s _), rfl⟩

theorem Abreast.showNode (abreast : Abreast c s) (boxes : t.boxArena = s.boxArena)
    (node : c.nodes[j]? = some (h, n)) (report : SyncReport) :
    (Scene.showNode c.listing (t, report) ⟨h, j⟩).1.boxArena = s.boxArena ∧
      (Scene.showNode c.listing (t, report) ⟨h, j⟩).2 = report := by
  obtain ⟨⟨k, b⟩, mem, named, steady⟩ := abreast.shown j h n node
  have owner : t.ownerOf? h = some k :=
    (ownerOf?_congr (boxes_congr boxes)).symm ▸ (abreast.wf.owns h k).2 ⟨b, mem, named⟩
  have found : t.box? k = some b := (box?_congr boxes k).trans (box?_of_mem mem)
  have info : c.listing.info h = some n.info := by
    have there : c.node? h = some n :=
      Keyed.get?_of_mem abreast.nodup (List.mem_of_getElem? node)
    simp only [Contents.listing, there, Option.map_some]
  have kept : t.boxArena.update k (fun b => b.renew n.info j) = s.boxArena :=
    (Arena.update_of_get? found steady.renew_eq).trans boxes
  simp only [Scene.showNode, info, owner, found, Option.any_some, steady.isStale_eq_false,
    Bool.false_eq_true, if_false]
  exact ⟨(boxArena_raise _ _).trans kept, trivial⟩

theorem Abreast.showNodes (abreast : Abreast c s) (boxes : t.boxArena = s.boxArena)
    (report : SyncReport) : (Scene.showNodes c.listing (t, report)).2 = report := by
  suffices kept : (Scene.showNodes c.listing (t, report)).1.boxArena = s.boxArena ∧
      (Scene.showNodes c.listing (t, report)).2 = report from kept.2
  rw [Scene.showNodes]
  refine List.foldlRecOn (motive := fun state : Scene × SyncReport =>
    state.1.boxArena = s.boxArena ∧ state.2 = report) _ _ ⟨boxes, rfl⟩ ?_
  rintro ⟨u, report'⟩ ⟨boxes, rfl⟩ ⟨h, j⟩ mem
  obtain ⟨n, node⟩ := mem_firstNodes_listing abreast.nodup mem
  exact abreast.showNode boxes node report'

theorem boxes_showWire_report (l : Listing) (owner : Nat → Option Nat) (s : Scene)
    (report : SyncReport) (e : WireEntry) :
    (showWire l owner (s, report) e).2.boxes = report.boxes := by
  simp only [showWire]
  split
  · rfl
  · split
    · rfl
    · split
      · rfl
      · split
        · rfl
        · split
          · rfl
          · dsimp only
            split <;> rfl

theorem Abreast.report (abreast : Abreast c s) :
    (s.reconcile c.listing).2.boxes = (0, 0, 0) := by
  obtain ⟨boxes, none⟩ := abreast.purge
  have quiet := abreast.showNodes boxes (Scene.purge c.listing (s, {})).2
  rw [reconcile]
  generalize Scene.purge c.listing (s, {}) = purged at none quiet
  generalize Scene.showNodes c.listing (purged.1, purged.2) = shown at quiet
  obtain ⟨t, report⟩ := shown
  obtain rfl : report = purged.2 := quiet
  exact List.foldlRecOn (motive := fun state : Scene × SyncReport => state.2.boxes = (0, 0, 0))
    _ _ none fun state none e _ => (boxes_showWire_report _ _ state.1 state.2 e).trans none

/-- After a pass a scene is abreast, if no two of its boxes have the same handle. -/
theorem Regular.abreast (regular : s.Regular) (nodup : (keys c.nodes).Nodup)
    (distinct : (s.reconcile c.listing).1.handles.Nodup) :
    Abreast c (s.reconcile c.listing).1 := by
  have wf := wellFormed_iff.2 ⟨regular.reconcile c.listing, distinct⟩
  have owned := (regular.owned c).showNodes nodup {}
  have boxes := boxes_congr (boxArena_reconcile s c.listing)
  generalize (Scene.showNodes c.listing (s.prune c.listing, {})).1 = t at owned boxes
  refine ⟨wf, nodup, fun e mem h named => ?_, fun j h n node => ?_⟩
  · exact owned.listed e (mem_sortBoxes.1 (boxes ▸ mem)) h named
  · obtain ⟨k, b, owner, mem, steady⟩ := owned.shown j (List.getElem?_eq_some_iff.1 node).1 h n node
    obtain ⟨b', mem', named⟩ := mem_of_ownerOf? owner
    obtain rfl := Keyed.eq_of_mem owned.boxOrder.nodup_keys mem mem'
    exact ⟨(k, b), boxes ▸ mem_sortBoxes.2 mem, named, steady⟩

theorem Abreast.map (abreast : Abreast c s) (outline : t.outline = s.outline)
    (boxes : t.boxes = mapValues s.boxes f) (nodes : d.nodes = mapValues c.nodes put)
    (handle : ∀ k b, (f k b).handle = b.handle)
    (steady : ∀ e ∈ s.boxes, ∀ h n j, e.2.handle = some h → e.2.Steady n.info j →
      (f e.1 e.2).Steady (put h n).info j) : Abreast d t where
  wf := abreast.wf.of_outline outline
  nodup := by
    rw [nodes, Keyed.keys_mapValues]
    exact abreast.nodup
  listed e mem h named := by
    obtain ⟨b, mem, same⟩ := Keyed.mem_mapValues.1 (boxes ▸ mem)
    rw [same, handle] at named
    rw [nodes, Keyed.keys_mapValues]
    exact abreast.listed _ mem h named
  shown j h n node := by
    rw [nodes, mapValues, List.getElem?_map] at node
    obtain ⟨⟨g, m⟩, former, same⟩ := Option.map_eq_some_iff.1 node
    obtain ⟨rfl, rfl⟩ := Prod.mk.inj same
    obtain ⟨e, mem, named, fits⟩ := abreast.shown j g m former
    refine ⟨(e.1, f e.1 e.2), ?_, (handle e.1 e.2).trans named, steady e mem g m j named fits⟩
    rw [boxes]
    exact Keyed.mem_mapValues.2 ⟨e.2, mem, rfl⟩

theorem Abreast.keep (abreast : Abreast c s) (outline : t.outline = s.outline)
    (boxes : t.boxes = mapValues s.boxes f) (nodes : d.nodes = c.nodes)
    (handle : ∀ k b, (f k b).handle = b.handle)
    (steady : ∀ e ∈ s.boxes, ∀ h info j, e.2.handle = some h → e.2.Steady info j →
      (f e.1 e.2).Steady info j) : Abreast d t := by
  have same : d.nodes = mapValues c.nodes fun _ n => n :=
    nodes.trans (Keyed.mapValues_eq_self fun _ _ => rfl).symm
  exact abreast.map outline boxes same handle
    fun e mem h n j named fits => steady e mem h n.info j named fits

theorem Marked.abreast {g : Nat → Bool} (marked : Marked s t f g) (abreast : Abreast c s) :
    Abreast c t :=
  abreast.keep marked.recast.outline marked.recast.boxes rfl (fun k b => (marked.alike k b).handle)
    fun e _ _ _ _ _ steady => steady.of_alike (marked.alike e.1 e.2)

end Scene

end Patchbay
