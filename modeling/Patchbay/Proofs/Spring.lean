import Patchbay.Proofs.Attached

/-!
# Boxes that are put back

While boxes are held, a cable between them travels along, and one with a single end on them is
anchored anew at each stop. Anchoring forgets where a route was before, so once the boxes are back at
their places a cable is where it was, too. A route is lost for good where its plan does not reach.
-/

namespace Patchbay

open Keyed (mapValues)

theorem Keyed.mapValues_eq_self_iff {α : Type} {xs : Keyed α} {f : Nat → α → α} :
    mapValues xs f = xs ↔ ∀ x ∈ xs, f x.1 x.2 = x.2 := by
  refine ⟨fun same x hx => ?_, mapValues_eq_self⟩
  have each := List.map_inj_left.1 (same.trans (List.map_id xs).symm) x hx
  exact congrArg Prod.snd each

namespace Scene

open Canvas (followMoved)

variable {s t u : Scene} {moved : List Nat} {stops : List Scene} {x : Cable} {a b a' b' : Point}

/-- Taken to each of some stops, a cable keeps its plan if it has one, and here it is at its anchors. -/
def Springs (s : Scene) (stops : List Scene) (moved : List Nat) (x : Cable) : Prop :=
  followMoved s moved x = x ∧
    ∀ u ∈ stops, (followMoved u moved x).route.isSegmented = x.route.isSegmented

instance (s : Scene) (stops : List Scene) (moved : List Nat) (x : Cable) :
    Decidable (s.Springs stops moved x) := inferInstanceAs (Decidable (_ ∧ _))

theorem followMoved_trail_eq_self_iff
    (anchored : ∀ u ∈ stops, (u.ends? x).isSome = (s.ends? x).isSome) :
    followMoved s moved (trail moved stops x) = x ↔ s.Springs stops moved x := by
  rw [followMoved_trail anchored, Springs]
  cases route : x.route with
  | straight =>
    have bare : { x with route := .straight } = x := by rw [← route]
    have still (v : Scene) : followMoved v moved x = x := followMoved_of_straight route v moved
    simp [still, bare, route]
  | segmented ps =>
    have lost : ¬{ x with route := .straight } = x := fun same => by
      rw [← same] at route
      exact absurd route (by simp)
    have planned : (Route.segmented ps).isSegmented = true := rfl
    simp only [planned, Route.isSegmented_iff]
    split
    · next each => exact (and_iff_left each).symm
    · next gone => exact iff_of_false lost fun springs => gone springs.2

/-- A way to put boxes, which forgets how they were put before. -/
structure Puts (put : Rect → Box → Box) : Prop where
  again : ∀ q r b, put q (put r b) = put q b
  home : ∀ r b, (put r b).home = b.home
  bounds : ∀ r b, (put r b).bounds = r
  tag : ∀ r b, (put r b).tag = b.tag

theorem puts_bounds : Puts fun r b => { b with bounds := r } where
  again _ _ _ := rfl
  home _ _ := rfl
  bounds _ _ := rfl
  tag _ _ := rfl

theorem puts_fitted : Puts fun r b => { b with bounds := r }.layoutJacks where
  again q r b := by
    simp only [Box.layoutJacks, Box.layout, Jack.place_place]
  home _ _ := rfl
  bounds _ _ := rfl
  tag r b := Box.tag_layoutJacks { b with bounds := r }

def putBoxes (s : Scene) (put : Rect → Box → Box) (moved : List Nat) (r : Rect → Rect) : Scene :=
  s.updateBoxes moved fun b => put (r b.home) b

variable {put : Rect → Box → Box} {r q : Rect → Rect}

theorem boxArena_putBoxes_putBoxes (puts : Puts put) (s : Scene) (moved : List Nat)
    (q r : Rect → Rect) : ((s.putBoxes put moved r).putBoxes put moved q).boxArena
      = (s.putBoxes put moved q).boxArena := by
  simp only [putBoxes, updateBoxes, mapBoxes, Arena.mapValues_mapValues]
  refine congrArg s.boxArena.mapValues (funext fun k => funext fun b => ?_)
  split
  · rw [puts.home, puts.again]
  · rfl

theorem putBoxes_congr (boxes : t.boxArena = u.boxArena) (put : Rect → Box → Box)
    (moved : List Nat) (r : Rect → Rect) :
    (t.putBoxes put moved r).boxArena = (u.putBoxes put moved r).boxArena := by
  simp only [putBoxes, updateBoxes, mapBoxes, boxes]

theorem isSome_ends?_putBoxes (puts : Puts put) (s : Scene) (moved : List Nat) (r : Rect → Rect)
    (boxes : t.boxArena = (s.putBoxes put moved r).boxArena) (x : Cable) :
    (t.ends? x).isSome = (s.ends? x).isSome := by
  have recast := Recast.updateBoxes s moved (fun b => put (r b.home) b) fun b => puts.tag _ b
  have jack (ref : JackRef) : (t.jack? ref).isSome = (s.jack? ref).isSome := by
    rw [← recast.isSome_jack? ref, jack?, box?, boxes]
    rfl
  rw [isSome_ends?, isSome_ends?, isWired, jack, jack, isWired]

structure Held (put : Rect → Box → Box) (s t : Scene) (moved : List Nat) (stops : List Scene) :
    Prop where
  boxArena : ∀ r, (t.putBoxes put moved r).boxArena = (s.putBoxes put moved r).boxArena
  cableArena : t.cableArena = s.cableArena.mapValues fun _ => trail moved stops
  anchored : ∀ u ∈ stops, ∀ x, (u.ends? x).isSome = (s.ends? x).isSome

theorem Held.refl (put : Rect → Box → Box) (s : Scene) (moved : List Nat) :
    Held put s s moved [] where
  boxArena _ := rfl
  cableArena := (Arena.mapValues_eq_self fun _ _ _ => rfl).symm
  anchored _ hu := absurd hu List.not_mem_nil

theorem Held.next (puts : Puts put) (held : Held put s t moved stops)
    (boxes : u.boxArena = (t.putBoxes put moved r).boxArena)
    (cables : u.cableArena = t.cableArena.mapValues fun _ => followMoved u moved) :
    Held put s u moved (stops ++ [u]) where
  boxArena q := by
    rw [putBoxes_congr boxes, boxArena_putBoxes_putBoxes puts, held.boxArena]
  cableArena := by
    rw [cables, held.cableArena, Arena.mapValues_mapValues]
    refine congrArg s.cableArena.mapValues (funext fun k => funext fun x => ?_)
    simp [trail]
  anchored v hv x := by
    rcases List.mem_append.1 hv with old | new
    · exact held.anchored v old x
    · obtain rfl := List.mem_singleton.1 new
      exact isSome_ends?_putBoxes puts s moved r (boxes.trans (held.boxArena r)) x

theorem Held.isSome_box? (held : Held put s t moved stops) (k : Nat) :
    (t.box? k).isSome = (s.box? k).isSome := by
  have found (u : Scene) : (u.box? k).isSome = ((u.putBoxes put moved id).box? k).isSome := by
    rw [putBoxes, updateBoxes, box?_mapBoxes, Option.isSome_map]
  rw [found t, box?, held.boxArena, ← box?, ← found s]

/-- Back at home the boxes are as if they had only been put there, and if so they are where they were,
so are those cables that spring back. -/
theorem Held.back (held : Held put s t moved stops) (exact : s.boxArena.Exact)
    (boxes : u.boxArena = (t.putBoxes put moved id).boxArena)
    (cables : u.cableArena = t.cableArena.mapValues fun _ => followMoved u moved) :
    u.boxArena = (s.putBoxes put moved id).boxArena ∧ (u.boxes = s.boxes →
      (u.cables = s.cables ↔ ∀ e ∈ s.cables, s.Springs stops moved e.2)) := by
  have put := boxes.trans (held.boxArena id)
  refine ⟨put, fun home => ?_⟩
  have exact' : u.boxArena.Exact := put ▸ exact.mapValues _
  have same (k : Nat) : u.box? k = s.box? k := by
    rw [box?, exact'.get?_eq, ← Scene.boxes, home, Scene.boxes, ← exact.get?_eq, box?]
  have whole : u.cableArena
      = s.cableArena.mapValues fun _ x => followMoved s moved (trail moved stops x) := by
    rw [cables, held.cableArena, Arena.mapValues_mapValues]
    refine congrArg s.cableArena.mapValues (funext fun k => funext fun x => ?_)
    exact followMoved_congr same moved _
  have entries : u.cables
      = mapValues s.cables fun _ x => followMoved s moved (trail moved stops x) := by
    rw [Scene.cables, whole]
    exact s.cableArena.entries_mapValues _
  rw [entries, Keyed.mapValues_eq_self_iff]
  exact forall₂_congr fun e _ => followMoved_trail_eq_self_iff fun u hu => held.anchored u hu e.2

end Scene

end Patchbay
