import Patchbay.Proofs.Outline
import Patchbay.Proofs.Settled

/-!
# Scenes with the same boxes and cables

Gestures mark boxes and cables, move them and lead them elsewhere. They leave the keys, the handles
and the jacks, so whatever a document asks of a scene by name has the same answer before and after.
-/

namespace Patchbay

namespace Keyed

variable {α : Type} {xs : Keyed α} {f : Nat → α → α} {k : Nat}

theorem get?_mapValues (xs : Keyed α) (f : Nat → α → α) (k : Nat) :
    get? (mapValues xs f) k = (get? xs k).map (f k) := by
  induction xs with
  | nil => rfl
  | cons x rest ih =>
    obtain ⟨j, a⟩ := x
    simp only [mapValues, List.map_cons] at ih ⊢
    by_cases h : j = k
    · simp [get?, h]
    · simp [get?, h, ih]

theorem mem_mapValues {x : Nat × α} : x ∈ mapValues xs f ↔ ∃ a, (x.1, a) ∈ xs ∧ x.2 = f x.1 a := by
  constructor
  · intro hx
    obtain ⟨⟨j, a⟩, ha, rfl⟩ := List.mem_map.1 hx
    exact ⟨a, ha, rfl⟩
  · rintro ⟨a, ha, hx⟩
    exact List.mem_map.2 ⟨(x.1, a), ha, Prod.ext rfl hx.symm⟩

theorem update_eq_mapValues (xs : Keyed α) (k : Nat) (f : α → α) :
    update xs k f = mapValues xs fun j a => if j = k then f a else a := by
  refine List.map_congr_left fun x _ => ?_
  dsimp only
  split <;> rfl

theorem mapValues_eq_self (same : ∀ x ∈ xs, f x.1 x.2 = x.2) : mapValues xs f = xs := by
  refine (List.map_congr_left fun x hx => ?_).trans (List.map_id xs)
  exact Prod.ext rfl (same x hx)

theorem mapValues_update {f : α → α} {g : Nat → α → α}
    (same : ∀ a, (k, a) ∈ xs → g k (f a) = g k a) : mapValues (update xs k f) g = mapValues xs g := by
  rw [mapValues, mapValues, update, List.map_map]
  refine List.map_congr_left fun x hx => ?_
  by_cases here : x.1 = k
  · subst here
    simp [same x.2 hx]
  · simp [here]

end Keyed

namespace Scene

open Keyed (keys mapValues)

/-- What stands under each key is changed, but for its handle, its place and its jacks. -/
structure Recast (s t : Scene) (f : Nat → Box → Box) (g : Nat → Cable → Cable) : Prop where
  boxArena : t.boxArena = s.boxArena.mapValues f
  tag : ∀ k b, (f k b).tag = b.tag
  cableArena : t.cableArena = s.cableArena.mapValues g
  ends : ∀ k x, (g k x).handle = x.handle ∧ (g k x).outlet = x.outlet ∧ (g k x).inlet = x.inlet
  layers : t.layers = s.layers

variable {s t u : Scene} {f f' : Nat → Box → Box} {g g' : Nat → Cable → Cable} {c : Contents}
  {shown blanks : Keyed Box} {k : Nat}

theorem anchor?_mapBoxes (boxes : t.boxArena = s.boxArena.mapValues f)
    (spots : ∀ k b side i, ((f k b).jack? side i).map (f k b).jackBounds
      = (b.jack? side i).map b.jackBounds) (ref : JackRef) : t.anchor? ref = s.anchor? ref := by
  have bounds : t.jackBounds? ref = s.jackBounds? ref := by
    rw [jackBounds?, jackBounds?, Scene.box?, boxes, Arena.get?_mapValues, Scene.box?]
    cases s.boxArena.get? ref.box with
    | none => rfl
    | some b => exact spots ref.box b ref.side ref.index
  rw [anchor?, anchor?, bounds]

namespace Recast

theorem refl (s : Scene) : Recast s s (fun _ b => b) fun _ x => x where
  boxArena := (Arena.mapValues_eq_self fun _ _ _ => rfl).symm
  tag _ _ := rfl
  cableArena := (Arena.mapValues_eq_self fun _ _ _ => rfl).symm
  ends _ _ := ⟨rfl, rfl, rfl⟩
  layers := rfl

theorem trans (first : Recast s t f g) (second : Recast t u f' g') :
    Recast s u (fun k b => f' k (f k b)) fun k x => g' k (g k x) where
  boxArena := by
    rw [second.boxArena, first.boxArena, Arena.mapValues_mapValues]
  tag k b := (second.tag k _).trans (first.tag k b)
  cableArena := by
    rw [second.cableArena, first.cableArena, Arena.mapValues_mapValues]
  ends k x := by
    obtain ⟨handle, outlet, inlet⟩ := second.ends k (g k x)
    obtain ⟨handle', outlet', inlet'⟩ := first.ends k x
    exact ⟨handle.trans handle', outlet.trans outlet', inlet.trans inlet'⟩
  layers := second.layers.trans first.layers

theorem updateBoxes (s : Scene) (ks : List Nat) (put : Box → Box) (tag : ∀ b, (put b).tag = b.tag) :
    Recast s (s.updateBoxes ks put) (fun k b => if ks.contains k then put b else b) fun _ x => x where
  boxArena := rfl
  tag k b := by
    split
    · exact tag b
    · rfl
  cableArena := (refl s).cableArena
  ends _ _ := ⟨rfl, rfl, rfl⟩
  layers := rfl

theorem boxes (recast : Recast s t f g) : t.boxes = mapValues s.boxes f := by
  rw [Scene.boxes, recast.boxArena]
  exact s.boxArena.entries_mapValues f

theorem cables (recast : Recast s t f g) : t.cables = mapValues s.cables g := by
  rw [Scene.cables, recast.cableArena]
  exact s.cableArena.entries_mapValues g

theorem handle (recast : Recast s t f g) (k : Nat) (b : Box) : (f k b).handle = b.handle :=
  congrArg Box.Tag.handle (recast.tag k b)

theorem widget (recast : Recast s t f g) (k : Nat) (b : Box) : (f k b).widget = b.widget :=
  congrArg Box.Tag.widget (recast.tag k b)

theorem length (recast : Recast s t f g) (k : Nat) (b : Box) (side : Side) :
    ((f k b).jacks side).length = (b.jacks side).length := by
  rw [← Box.jacks_tag, recast.tag, Box.jacks_tag]

theorem outline (recast : Recast s t f g) : t.outline = s.outline := by
  have cables := Arena.map_mapValues joint (fun k x => joint_eq_iff.2 (recast.ends k x)) s.cableArena
  rw [Scene.outline, recast.boxArena, recast.cableArena, recast.layers,
    Arena.map_mapValues Box.tag recast.tag, cables, Scene.outline]

theorem box? (recast : Recast s t f g) (k : Nat) : t.box? k = (s.box? k).map (f k) := by
  rw [Scene.box?, recast.boxArena, Arena.get?_mapValues, Scene.box?]

theorem cable? (recast : Recast s t f g) (k : Nat) : t.cable? k = (s.cable? k).map (g k) := by
  rw [Scene.cable?, recast.cableArena, Arena.get?_mapValues, Scene.cable?]

theorem isSome_box? (recast : Recast s t f g) (k : Nat) :
    (t.box? k).isSome = (s.box? k).isSome := by
  rw [recast.box?, Option.isSome_map]

theorem isSome_cable? (recast : Recast s t f g) (k : Nat) :
    (t.cable? k).isSome = (s.cable? k).isSome := by
  rw [recast.cable?, Option.isSome_map]

theorem ownerOf? (recast : Recast s t f g) : t.ownerOf? = s.ownerOf? := by
  funext h
  have named : (fun e : Nat × Box => (f e.1 e.2).handle == some h)
      = fun e => e.2.handle == some h := by
    funext e
    rw [recast.handle]
  simp only [Scene.ownerOf?, recast.boxes, mapValues, ← List.map_reverse, List.find?_map,
    Function.comp_def, Option.map_map, named]

theorem isSome_jack? (recast : Recast s t f g) (ref : JackRef) :
    (t.jack? ref).isSome = (s.jack? ref).isSome := by
  rw [jack?, jack?, recast.box?]
  cases s.box? ref.box with
  | none => rfl
  | some b =>
    rw [Option.map_some, Option.bind_some, Option.bind_some, Bool.eq_iff_iff,
      Box.isSome_jack?_iff, Box.isSome_jack?_iff, recast.length]

theorem resolveEnds? (recast : Recast s t f g) (owner : Nat → Option Nat) (ends : Ends) :
    t.resolveEnds? owner ends = s.resolveEnds? owner ends := by
  have one (h : Nat) (side : Side) (i : Nat) :
      t.resolve? owner h side i = s.resolve? owner h side i := by
    rw [resolve?, resolve?]
    cases owner h with
    | none => rfl
    | some k =>
      simp only [Option.bind_eq_bind, Option.bind_some, recast.box?]
      cases s.box? k with
      | none => rfl
      | some b =>
        have same : ((f k b).jack? side i).isSome = (b.jack? side i).isSome := by
          rw [Bool.eq_iff_iff, Box.isSome_jack?_iff, Box.isSome_jack?_iff, recast.length]
        simp only [Option.map_some, Option.bind_some, same]
  simp only [Scene.resolveEnds?, one]

theorem isWired (recast : Recast s t f g) (k : Nat) (x : Cable) :
    t.isWired (g k x) = s.isWired x := by
  rw [Scene.isWired, Scene.isWired, recast.isSome_jack?, recast.isSome_jack?, (recast.ends k x).2.1,
    (recast.ends k x).2.2]

theorem flatMap_layersOf (recast : Recast s t f g) (bs : Keyed Box) :
    (mapValues bs f).flatMap (fun e => layersOf e.1 e.2) = bs.flatMap fun e => layersOf e.1 e.2 := by
  rw [mapValues, List.flatMap_map]
  refine List.flatMap_congr fun e _ => ?_
  simp only [layersOf, recast.widget]

theorem unresolved (recast : Recast s t f g) (es : List WireEntry) :
    t.unresolved t.ownerOf? es = s.unresolved s.ownerOf? es := by
  simp only [Scene.unresolved, recast.resolveEnds?, recast.ownerOf?]

/-- A settled scene stays settled, as long as boxes and cables that were up to date still are. -/
theorem settled (recast : Recast s t f g) (settled : Settled c shown blanks s)
    (rows : Rows c.nodes (mapValues shown f))
    (fresh : ∀ x ∈ s.cables, ∀ token a b, s.ends? x.2 = some (a, b) →
      refreshCable x.2 token a b = x.2 → ∃ a' b', t.ends? (g x.1 x.2) = some (a', b') ∧
        refreshCable (g x.1 x.2) token a' b' = g x.1 x.2) :
    Settled c (mapValues shown f) (mapValues blanks f) t where
  wf := settled.wf.of_outline recast.outline
  boxes := by
    rw [recast.boxes, settled.boxes, mapValues, List.map_append]
    rfl
  rows := rows
  blanks e he := by
    obtain ⟨b, hb, same⟩ := Keyed.mem_mapValues.1 he
    rw [same, recast.handle]
    exact settled.blanks _ hb
  layers := by
    rw [recast.layers, recast.flatMap_layersOf, Keyed.keys_mapValues]
    exact settled.layers
  cables x hx := by
    rw [recast.cables] at hx
    obtain ⟨y, hy, same⟩ := Keyed.mem_mapValues.1 hx
    rw [same, recast.isWired, (recast.ends x.1 y).1]
    exact settled.cables _ hy
  drawn e he outlet inlet ends := by
    rw [recast.ownerOf?, recast.resolveEnds?] at ends
    obtain ⟨⟨k, y⟩, hy, hhandle, houtlet, hinlet, a, b, anchors, same⟩ :=
      settled.drawn e he outlet inlet ends
    obtain ⟨shandle, soutlet, sinlet⟩ := recast.ends k y
    have there : (k, g k y) ∈ t.cables := by
      rw [recast.cables]
      exact Keyed.mem_mapValues.2 ⟨y, hy, rfl⟩
    obtain ⟨a', b', anchors', same'⟩ := fresh (k, y) hy _ a b anchors same
    exact ⟨_, there, shandle.trans hhandle, soutlet.trans houtlet, sinlet.trans hinlet, a', b',
      anchors', same'⟩

end Recast

end Scene

end Patchbay
