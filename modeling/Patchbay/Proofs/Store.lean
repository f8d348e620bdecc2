import Patchbay.Proofs.Arena
import Patchbay.Proofs.Jacks
import Patchbay.Scene.Reconcile

/-!
# What a scene holds

The boxes and cables of a scene, by their keys and in their order, after each operation on the scene.
-/

namespace Patchbay.Scene

open Keyed (keys)

variable {s t : Scene} {h j k : Nat} {b : Box} {c x : Cable} {l : Listing} {ks : List Nat}

theorem box?_of_mem (mem : (k, b) ∈ s.boxes) : s.box? k = some b := Arena.get?_of_mem mem

theorem cable?_of_mem (mem : (k, c) ∈ s.cables) : s.cable? k = some c := Arena.get?_of_mem mem

theorem mem_boxes (exact : s.boxArena.Exact) (found : s.box? k = some b) : (k, b) ∈ s.boxes :=
  exact.mem found

theorem mem_cables (exact : s.cableArena.Exact) (found : s.cable? k = some c) : (k, c) ∈ s.cables :=
  exact.mem found

theorem isSome_box? (mem : k ∈ keys s.boxes) : (s.box? k).isSome = true := by
  obtain ⟨e, there, rfl⟩ := List.mem_map.1 mem
  exact Option.isSome_of_eq_some (box?_of_mem there)

theorem lt_nextBox (mem : k ∈ keys s.boxes) : k < s.nextBox := Arena.lt_next_of_mem_keys mem

theorem box?_congr (boxes : t.boxArena = s.boxArena) (k : Nat) : t.box? k = s.box? k := by
  rw [box?, boxes, box?]

theorem boxes_congr (boxes : t.boxArena = s.boxArena) : t.boxes = s.boxes := by
  rw [Scene.boxes, boxes, Scene.boxes]

theorem cables_congr (cables : t.cableArena = s.cableArena) : t.cables = s.cables := by
  rw [Scene.cables, cables, Scene.cables]

theorem boxes_updateBox (s : Scene) (k : Nat) (f : Box → Box) :
    (s.updateBox k f).boxes = Keyed.update s.boxes k f :=
  s.boxArena.entries_update k f

theorem cables_updateCable (s : Scene) (k : Nat) (f : Cable → Cable) :
    (s.updateCable k f).cables = Keyed.update s.cables k f :=
  s.cableArena.entries_update k f

theorem boxes_mapBoxes (s : Scene) (f : Nat → Box → Box) :
    (s.mapBoxes f).boxes = Keyed.mapValues s.boxes f :=
  s.boxArena.entries_mapValues f

theorem cables_mapCables (s : Scene) (f : Nat → Cable → Cable) :
    (s.mapCables f).cables = Keyed.mapValues s.cables f :=
  s.cableArena.entries_mapValues f

theorem box?_mapBoxes (s : Scene) (f : Nat → Box → Box) (k : Nat) :
    (s.mapBoxes f).box? k = (s.box? k).map (f k) :=
  s.boxArena.get?_mapValues f k

theorem cable?_mapCables (s : Scene) (f : Nat → Cable → Cable) (k : Nat) :
    (s.mapCables f).cable? k = (s.cable? k).map (f k) :=
  s.cableArena.get?_mapValues f k

theorem box?_updateBox_self (s : Scene) (k : Nat) (f : Box → Box) :
    (s.updateBox k f).box? k = (s.box? k).map f :=
  Arena.get?_update_self

theorem box?_updateBox_ne (ne : j ≠ k) (f : Box → Box) : (s.updateBox k f).box? j = s.box? j :=
  Arena.get?_update_ne ne

theorem keys_updateBox (s : Scene) (k : Nat) (f : Box → Box) :
    keys (s.updateBox k f).boxes = keys s.boxes := by
  rw [boxes_updateBox, Keyed.keys_update]

theorem boxArena_raise (s : Scene) (k : Nat) : (s.raise k).boxArena = s.boxArena := by
  unfold raise
  split <;> rfl

theorem cableArena_raise (s : Scene) (k : Nat) : (s.raise k).cableArena = s.cableArena := by
  unfold raise
  split <;> rfl

theorem boxes_raise (s : Scene) (k : Nat) : (s.raise k).boxes = s.boxes :=
  boxes_congr (boxArena_raise s k)

theorem nextBox_raise (s : Scene) (k : Nat) : (s.raise k).nextBox = s.nextBox :=
  congrArg Arena.next (boxArena_raise s k)

theorem box?_addBox (s : Scene) (b : Box) (k : Nat) :
    (s.addBox b).2.box? k = if k = s.nextBox then some b else s.box? k :=
  s.boxArena.get?_insert b k

theorem boxes_addBox (exact : s.boxArena.Exact) (b : Box) :
    (s.addBox b).2.boxes = s.boxes ++ [(s.nextBox, b)] :=
  exact.entries_insert b

theorem nextBox_addBox (s : Scene) (b : Box) : (s.addBox b).2.nextBox = s.nextBox + 1 :=
  s.boxArena.next_insert b

theorem cables_addCable (exact : s.cableArena.Exact) (c : Cable) :
    (s.addCable c).cables = s.cables ++ [(s.nextCable, c)] :=
  exact.entries_insert c

theorem of_mem_addCable {e : Nat × Cable} (mem : e ∈ (s.addCable c).cables) :
    e ∈ s.cables ∨ e = (s.nextCable, c) :=
  Arena.of_mem_entries_insert mem

theorem of_mem_replaceCable {e : Nat × Cable} (mem : e ∈ (s.replaceCable k c).cables) :
    e ∈ s.cables ∨ e = (s.nextCable, c) :=
  Arena.of_mem_entries_replace mem

theorem nextCable_addCable (s : Scene) (c : Cable) : (s.addCable c).nextCable = s.nextCable + 1 :=
  s.cableArena.next_insert c

theorem cables_replaceCable (exact : s.cableArena.Exact) (found : s.cable? k = some x) (c : Cable) :
    (s.replaceCable k c).cables = Keyed.replace s.cables k s.nextCable c :=
  exact.entries_replace found c

theorem nextCable_replaceCable (s : Scene) (k : Nat) (c : Cable) :
    (s.replaceCable k c).nextCable = s.nextCable + 1 :=
  s.cableArena.next_replace k c

theorem boxArena_removeBox (s : Scene) (k : Nat) :
    (s.removeBox k).boxArena = s.boxArena.remove k := by
  cases found : s.boxArena.get? k with
  | none => simp only [removeBox, Arena.remove, box?, found]
  | some b => simp only [removeBox, Arena.remove, box?, found]

theorem cableArena_removeBox (s : Scene) (k : Nat) : (s.removeBox k).cableArena = s.cableArena := by
  rw [removeBox]
  split <;> rfl

theorem boxes_removeBox (s : Scene) (k : Nat) :
    (s.removeBox k).boxes = Keyed.remove s.boxes k := by
  rw [Scene.boxes, boxArena_removeBox]
  exact s.boxArena.entries_remove k

theorem boxArena_foldl_removeBox (ks : List Nat) (s : Scene) :
    (ks.foldl removeBox s).boxArena = ks.foldl Arena.remove s.boxArena := by
  induction ks generalizing s with
  | nil => rfl
  | cons k ks ih => rw [List.foldl_cons, ih, boxArena_removeBox, List.foldl_cons]

theorem boxes_foldl_removeBox (ks : List Nat) (s : Scene) :
    (ks.foldl removeBox s).boxes = s.boxes.filter fun e => !ks.contains e.1 := by
  rw [Scene.boxes, boxArena_foldl_removeBox, Arena.entries_foldl_remove]
  rfl

theorem nextBox_foldl_removeBox (ks : List Nat) (s : Scene) :
    (ks.foldl removeBox s).nextBox = s.nextBox := by
  induction ks generalizing s with
  | nil => rfl
  | cons k ks ih =>
    rw [List.foldl_cons, ih, nextBox, boxArena_removeBox, Arena.next_remove]
    rfl

theorem cableArena_foldl_removeBox (ks : List Nat) (s : Scene) :
    (ks.foldl removeBox s).cableArena = s.cableArena := by
  induction ks generalizing s with
  | nil => rfl
  | cons k ks ih => rw [List.foldl_cons, ih, cableArena_removeBox]

def keepCables (s : Scene) (keep : Cable → Bool) : Scene := (s.retainCables keep).1

def dropOrphans (s : Scene) : Scene := s.keepCables s.isWired

theorem keepCables_eq (s : Scene) (keep : Cable → Bool) : s.keepCables keep = { s with
    cableArena := (keys (s.cables.filter fun e => !keep e.2)).foldl Arena.remove s.cableArena } := by
  have fold (ks : List Nat) (s : Scene) :
      ks.foldl removeCable s = { s with cableArena := ks.foldl Arena.remove s.cableArena } := by
    induction ks generalizing s with
    | nil => rfl
    | cons k ks ih => rw [List.foldl_cons, ih, List.foldl_cons]; rfl
  exact fold _ s

/-- An entry is among those that fail a test just when its value fails it, for a key has one value. -/
theorem contains_doomed {α : Type} {a : Arena α} {p : α → Bool} {e : Nat × α} (mem : e ∈ a.entries) :
    (keys (a.entries.filter fun e => !p e.2)).contains e.1 = !p e.2 := by
  rw [Bool.eq_iff_iff, List.contains_iff_mem, keys, List.mem_map]
  constructor
  · rintro ⟨f, there, same⟩
    obtain ⟨listed, fails⟩ := List.mem_filter.1 there
    have value : f.2 = e.2 := Option.some.inj <|
      (Arena.get?_of_mem (same ▸ listed : (e.1, f.2) ∈ a.entries)).symm.trans (Arena.get?_of_mem mem)
    exact value ▸ fails
  · exact fun fails => ⟨e, List.mem_filter.2 ⟨mem, fails⟩, rfl⟩

theorem entries_foldl_doomed {α : Type} (a : Arena α) (p : α → Bool) :
    ((keys (a.entries.filter fun e => !p e.2)).foldl Arena.remove a).entries
      = a.entries.filter fun e => p e.2 := by
  rw [Arena.entries_foldl_remove]
  refine List.filter_congr fun e mem => ?_
  rw [contains_doomed mem, Bool.not_not]

theorem cables_keepCables (s : Scene) (keep : Cable → Bool) :
    (s.keepCables keep).cables = s.cables.filter fun e => keep e.2 := by
  rw [keepCables_eq]
  exact entries_foldl_doomed s.cableArena keep

theorem length_keepCables (s : Scene) (keep : Cable → Bool) :
    (s.keepCables keep).cables.length + (s.retainCables keep).2 = s.cables.length := by
  rw [cables_keepCables, retainCables, keys, List.length_map]
  exact (List.length_eq_length_filter_add _).symm

theorem boxArena_keepCables (s : Scene) (keep : Cable → Bool) :
    (s.keepCables keep).boxArena = s.boxArena := by
  rw [keepCables_eq]

theorem layers_keepCables (s : Scene) (keep : Cable → Bool) :
    (s.keepCables keep).layers = s.layers := by
  rw [keepCables_eq]

theorem nextCable_keepCables (s : Scene) (keep : Cable → Bool) :
    (s.keepCables keep).nextCable = s.nextCable := by
  have fold (ks : List Nat) (a : Arena Cable) : (ks.foldl Arena.remove a).next = a.next := by
    induction ks generalizing a with
    | nil => rfl
    | cons k ks ih => rw [List.foldl_cons, ih, Arena.next_remove]
  rw [keepCables_eq]
  exact fold _ _

theorem exact_keepCables (exact : s.cableArena.Exact) (keep : Cable → Bool) :
    (s.keepCables keep).cableArena.Exact := by
  rw [keepCables_eq]
  exact exact.foldl_remove _

def dropStaleBoxes (l : Listing) (s : Scene) : Scene :=
  (keys (s.boxes.filter fun e => !isLive l e.2)).foldl removeBox s

def prune (l : Listing) (s : Scene) : Scene :=
  ((s.keepCables fun c => l.hasWire c.handle).dropStaleBoxes l).dropOrphans

theorem purgeBoxes_fst (l : Listing) (state : Scene × SyncReport) :
    (purgeBoxes l state).1 = state.1.dropStaleBoxes l := by
  have fold (ks : List Nat) (state : Scene × SyncReport) :
      (ks.foldl purgeBox state).1 = ks.foldl removeBox state.1 := by
    induction ks generalizing state with
    | nil => rfl
    | cons k ks ih => rw [List.foldl_cons, ih, List.foldl_cons]; rfl
  exact fold _ state

theorem purge_fst (l : Listing) (state : Scene × SyncReport) :
    (purge l state).1 = state.1.prune l := by
  have boxes := purgeBoxes_fst l (purgeCables (fun _ c => l.hasWire c.handle) state)
  change (purgeBoxes l _).1.dropOrphans = _
  rw [boxes]
  rfl

theorem boxes_dropStaleBoxes (l : Listing) (s : Scene) :
    (s.dropStaleBoxes l).boxes = s.boxes.filter fun e => isLive l e.2 := by
  rw [dropStaleBoxes, Scene.boxes, boxArena_foldl_removeBox]
  exact entries_foldl_doomed s.boxArena (isLive l)

theorem boxArena_prune (l : Listing) (s : Scene) : (s.prune l).boxArena
    = (keys (s.boxes.filter fun e => !isLive l e.2)).foldl Arena.remove s.boxArena := by
  rw [prune, dropOrphans, boxArena_keepCables, dropStaleBoxes, boxArena_foldl_removeBox]
  rw [boxArena_keepCables, boxes_congr (boxArena_keepCables s _)]

theorem boxes_prune (l : Listing) (s : Scene) :
    (s.prune l).boxes = s.boxes.filter fun e => isLive l e.2 := by
  rw [Scene.boxes, boxArena_prune]
  exact entries_foldl_doomed s.boxArena (isLive l)

theorem nextBox_prune (l : Listing) (s : Scene) : (s.prune l).nextBox = s.nextBox := by
  have removed := nextBox_foldl_removeBox (keys (s.boxes.filter fun e => !isLive l e.2)) s
  rw [nextBox, boxArena_foldl_removeBox] at removed
  rw [nextBox, boxArena_prune, removed]

end Patchbay.Scene
