import Patchbay.Proofs.Settled

/-!
# Scenes that no gesture has touched

On such a scene every box is what its node makes of it, whether the box was made for the node as it
is or refreshed many times on the way. The boxes stand in the order of the nodes, and nothing else
is on the stack.
-/

namespace Patchbay

open Keyed (keys)

namespace Jack

variable {side : Side} {ps qs : List Jack}

def unplaced (p : Jack) : Jack := { p with bounds := .empty }

theorem place_congr (same : ps.map unplaced = qs.map unplaced) (l : Layout) (shown : Bool) :
    place l shown ps = place l shown qs := by
  have through (rs : List Jack) : place l shown rs = place l shown (rs.map unplaced) := by
    simp only [place, List.map_map]
    rfl
  rw [through ps, same, ← through qs]

theorem map_unplaced_fit (numbered : ps.map label = labels side ps.length)
    (idle : ∀ p ∈ ps, p.targeted = false) (fs : List Bool) :
    (fit side ps fs).map unplaced = (fit side [] fs).map unplaced := by
  refine List.ext_getElem? fun i => ?_
  rw [List.getElem?_map, List.getElem?_map, getElem?_fit, getElem?_fit]
  cases fs[i]? with
  | none => rfl
  | some f =>
    cases there : ps[i]? with
    | none => rfl
    | some p =>
      have within := (List.getElem?_eq_some_iff.1 there).1
      have spot := congrArg (·[i]?) numbered
      simp only [List.getElem?_map, there, labels, List.getElem?_range within, Option.map_some,
        Option.some.injEq, label, Prod.mk.injEq] at spot
      simp [refit, unplaced, spot, idle p (List.mem_of_getElem? there)]

end Jack

namespace Box

variable {b : Box} {info info' : NodeInfo} {h j j' : Nat}

/-- A box as a node makes it, under some handle and place. -/
def Pristine (b : Box) : Prop := ∃ h info j, b = ofInfo h info j

theorem idle_ofInfo (h : Nat) (info : NodeInfo) (j : Nat) :
    ∀ p ∈ (ofInfo h info j).jackList, p.targeted = false := by
  have new (side : Side) (fs : List Bool) : ∀ p ∈ Jack.fit side [] fs, p.targeted = false := by
    intro p mem
    obtain ⟨i, there⟩ := List.mem_iff_getElem?.1 mem
    rw [Jack.getElem?_fit] at there
    obtain ⟨f, -, rfl⟩ := Option.map_eq_some_iff.1 there
    rfl
  intro p mem
  obtain ⟨q, there, rfl⟩ := List.mem_map.1 mem
  rcases List.mem_append.1 there with inlet | outlet
  · exact new .inlet info.inlets q inlet
  · exact new .outlet info.outlets q outlet

/-- Refreshing leaves no trace of what the node was before. -/
theorem renew_ofInfo (h : Nat) (info info' : NodeInfo) (j j' : Nat) :
    (ofInfo h info j).renew info' j' = ofInfo h info' j' := by
  have idle := idle_ofInfo h info j
  have numbered := numbered_ofInfo h info j
  generalize old : ofInfo h info j = b at idle numbered
  have side (side : Side) (fs : List Bool) (sub : ∀ p ∈ b.group side, p ∈ b.jackList) :
      (Jack.fit side (b.group side) fs).map Jack.unplaced
        = (Jack.fit side [] fs).map Jack.unplaced := by
    refine Jack.map_unplaced_fit ?_ (fun p mem => idle p (sub p mem)) fs
    rw [numbered.map_label, numbered.length_group]
  have lists (l : Jack.Layout) (shown : Bool) :
      Jack.place l shown (Jack.fit .inlet b.inlets info'.inlets ++ Jack.fit .outlet b.outlets
          info'.outlets)
        = Jack.place l shown (Jack.fit .inlet [] info'.inlets ++ Jack.fit .outlet []
          info'.outlets) := by
    refine Jack.place_congr ?_ l shown
    rw [List.map_append, List.map_append]
    exact congrArg₂ _ (side .inlet info'.inlets fun _ => List.mem_of_mem_take)
      (side .outlet info'.outlets fun _ => List.mem_of_mem_drop)
  have rest : b.handle = some h ∧ b.selected = false ∧ b.home = .empty ∧ b.editing = false := by
    subst old
    exact ⟨rfl, rfl, rfl, rfl⟩
  obtain ⟨handle, selected, home, editing⟩ := rest
  simp only [renew, refresh, dress, ofInfo, fitJacks, resizeGroups, layoutJacks, layout, Box.inlets,
    Box.outlets, Jack.length_fit, handle, selected, home, editing, List.take_nil, List.drop_nil]
      at lists ⊢
  rw [lists]

theorem Pristine.renew (pristine : b.Pristine) (named : b.handle = some h) :
    b.renew info j = ofInfo h info j := by
  obtain ⟨g, old, i, rfl⟩ := pristine
  obtain rfl : g = h := Option.some.inj named
  exact renew_ofInfo g old info i j

def floors (b : Box) : List (Bool × Option Nat) :=
  if b.widget.hasLabel then [(false, b.handle), (true, b.handle)] else [(false, b.handle)]

end Box

def Layer.isLabel : Layer → Bool
  | box _ => false
  | label _ => true

namespace Scene

/-- The stack of boxes and labels, lowest first, by the handles of the boxes. -/
def stack (s : Scene) : List (Bool × Option Nat) :=
  s.layers.map fun y => (y.isLabel, (s.box? y.key).bind Box.handle)

/-- Boxes are as their nodes make them, and nothing but boxes is on the stack. -/
structure Pristine (s : Scene) : Prop where
  boxes : ∀ e ∈ s.boxes, e.2.Pristine
  stacked : ∀ y ∈ s.layers, y.key ∈ keys s.boxes

variable {c : Contents} {s t : Scene} {shown : Keyed Box} {report : SyncReport} {e : Nat × Box}
  {h j : Nat} {n : Node}

theorem stacked_removeBox (stacked : ∀ y ∈ s.layers, y.key ∈ keys s.boxes) (k : Nat) :
    ∀ y ∈ (s.removeBox k).layers, y.key ∈ keys (s.removeBox k).boxes := by
  cases found : s.box? k with
  | none =>
    have same : s.removeBox k = s := by simp only [removeBox, found]
    rw [same]
    exact stacked
  | some b =>
    have layers : (s.removeBox k).layers = s.layers.filter fun y => y.key != k := by
      simp only [removeBox, found]
    intro y hy
    rw [layers] at hy
    obtain ⟨there, ne⟩ := List.mem_filter.1 hy
    rw [boxes_removeBox]
    exact Keyed.mem_keys_remove.2 ⟨stacked y there, by simpa using ne⟩

theorem Pristine.keepCables (pristine : s.Pristine) (keep : Cable → Bool) :
    (s.keepCables keep).Pristine := by
  have boxes := boxes_congr (boxArena_keepCables s keep)
  refine ⟨boxes ▸ pristine.boxes, ?_⟩
  rw [layers_keepCables, boxes]
  exact pristine.stacked

theorem Pristine.prune (pristine : s.Pristine) (l : Listing) : (s.prune l).Pristine := by
  refine Pristine.keepCables ?_ _
  refine List.foldlRecOn (motive := Pristine) _ _ (pristine.keepCables _) ?_
  intro t ht k _
  refine ⟨fun e he => ht.boxes e ?_, stacked_removeBox ht.stacked k⟩
  rw [boxes_removeBox] at he
  exact (List.mem_filter.1 he).1

theorem Pristine.blanks (pristine : s.Pristine) : s.blanks = [] := by
  refine List.filter_eq_nil_iff.2 fun e he => ?_
  obtain ⟨h, info, j, same⟩ := pristine.boxes e he
  simp [same, Box.ofInfo, Box.fitJacks, Box.layoutJacks, Box.resizeGroups]

theorem Renews.eq_ofInfo (renews : Renews s e h n j) (pristine : s.Pristine) :
    e.2 = Box.ofInfo h n.info j := by
  rcases renews with ⟨new, -⟩ | ⟨b, mem, named, refreshed⟩
  · exact new
  · rw [refreshed]
    exact (pristine.boxes _ mem).renew named

theorem layersOf_floors (mem : e ∈ s.boxes) :
    (layersOf e.1 e.2).map (fun y => (y.isLabel, (s.box? y.key).bind Box.handle)) = e.2.floors := by
  have found : s.box? e.1 = some e.2 := box?_of_mem mem
  unfold layersOf Box.floors
  split <;> simp [Layer.isLabel, Layer.key, found]

def boxesOf (nodes : Keyed Node) : List Box := nodes.mapIdx fun j x => Box.ofInfo x.1 x.2.info j

/-- What the boxes and the stack of such a scene come to, whatever it was before. -/
structure Clear (nodes : Keyed Node) (s : Scene) : Prop where
  boxes : s.boxes.map (·.2) = boxesOf nodes
  stack : s.stack = (s.boxes.map (·.2)).flatMap Box.floors

theorem Course.clear (course : Course c s shown t report) (pristine : s.Pristine) :
    (s.reconcile c.listing).1.Pristine ∧ Clear c.nodes (s.reconcile c.listing).1 := by
  obtain ⟨redrawn, wiring⟩ := course.redrawn
  have pruned := pristine.prune c.listing
  have sorted : t.sortBoxes.boxes = shown := by
    rw [course.renewed.boxes_sortBoxes course.staged course.all, pristine.blanks, List.append_nil]
  generalize (s.reconcile c.listing).1 = u at *
  have hboxes : u.boxes = shown := (boxes_congr (s := t.sortBoxes) wiring.boxes).trans sorted
  have hlayers : u.layers = shown.flatMap fun e => layersOf e.1 e.2 := by
    rw [redrawn.same.2, dropOrphans, layers_keepCables]
    have buried : (s.prune c.listing).layers.filter (fun y => !(keys shown).contains y.key) = [] := by
      refine List.filter_eq_nil_iff.2 fun y hy => ?_
      obtain ⟨e, he, hkey⟩ := List.mem_map.1 (course.renewed.stays _ (pruned.stacked y hy))
      have inShown : e ∈ shown := sorted ▸ mem_sortBoxes.2 he
      have key : y.key ∈ keys shown := hkey ▸ List.mem_map_of_mem inShown
      simp [key]
    refine course.renewed.layers.trans ?_
    rw [buried, List.nil_append]
  have row : ∀ j e, shown[j]? = some e → ∃ x, c.nodes[j]? = some x ∧
      e.2 = Box.ofInfo x.1 x.2.info j := by
    intro j e he
    obtain ⟨h, n, hn, renews⟩ := course.renewed.rows j e he
    exact ⟨(h, n), hn, renews.eq_ofInfo pruned⟩
  refine ⟨⟨?_, ?_⟩, ?_, ?_⟩
  · intro e he
    obtain ⟨j, hj⟩ := List.mem_iff_getElem?.1 (hboxes ▸ he)
    obtain ⟨x, -, same⟩ := row j e hj
    exact ⟨x.1, x.2.info, j, same⟩
  · intro y hy
    obtain ⟨e, he, hye⟩ := List.mem_flatMap.1 (hlayers ▸ hy)
    rw [hboxes, mem_layersOf hye]
    exact List.mem_map_of_mem he
  · rw [hboxes]
    refine List.ext_getElem (by simp [boxesOf, course.all]) fun j hj hj' => ?_
    have hlt : j < shown.length := by simpa using hj
    obtain ⟨x, hx, same⟩ := row j _ (List.getElem?_eq_getElem hlt)
    obtain ⟨_, rfl⟩ := List.getElem?_eq_some_iff.1 hx
    simpa [boxesOf] using same
  · rw [stack, hlayers, ← hboxes, List.map_flatMap, List.flatMap_map]
    exact List.flatMap_congr fun e he => layersOf_floors he

end Scene

end Patchbay
