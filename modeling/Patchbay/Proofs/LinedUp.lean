import Patchbay.Proofs.GivenUp
import Patchbay.Proofs.InStep

/-!
# Objects that are lined up

An alignment picks one coordinate, finds where the selected objects are to have it, and moves those that
do not. Scene and patch are moved alike, nothing else about an object changes, and what is lined up stays
put when it is lined up again.
-/

namespace Patchbay

open Keyed (keys mapValues change)

namespace Alignment

variable {a : Alignment} {g : Int} {r : Rect} {rs : List Rect}

def feature : Alignment → Rect → Int
  | left => Rect.x
  | right => Rect.right
  | top => Rect.y
  | bottom => Rect.bottom
  | centreX => Rect.centreX
  | centreY => Rect.centreY

def across : Alignment → Rect → Int
  | left | right | centreX => Rect.y
  | top | bottom | centreY => Rect.x

/-- An edge goes to the outermost one and a centre to the average, cut toward zero. -/
def IsGoal (a : Alignment) (rs : List Rect) (g : Int) : Prop :=
  match a with
  | left | top => g ∈ rs.map a.feature ∧ ∀ z ∈ rs.map a.feature, g ≤ z
  | right | bottom => g ∈ rs.map a.feature ∧ ∀ z ∈ rs.map a.feature, z ≤ g
  | centreX | centreY => g = ((rs.map a.feature).foldr (· + ·) 0).tdiv rs.length

theorem isGoal_goal (nonempty : rs ≠ []) (a : Alignment) : a.IsGoal rs (a.goal rs) := by
  have least {f : Rect → Int} : (rs.map f).min?.getD 0 ∈ rs.map f ∧
      ∀ z ∈ rs.map f, (rs.map f).min?.getD 0 ≤ z := by
    obtain ⟨z, found⟩ := Option.isSome_iff_exists.1
      (List.isSome_min?_of_ne_nil (mt List.map_eq_nil_iff.1 nonempty) : (rs.map f).min?.isSome = true)
    rw [found]
    exact List.min?_eq_some_iff.1 found
  have greatest {f : Rect → Int} : (rs.map f).max?.getD 0 ∈ rs.map f ∧
      ∀ z ∈ rs.map f, z ≤ (rs.map f).max?.getD 0 := by
    obtain ⟨z, found⟩ := Option.isSome_iff_exists.1
      (List.isSome_max?_of_ne_nil (mt List.map_eq_nil_iff.1 nonempty) : (rs.map f).max?.isSome = true)
    rw [found]
    exact List.max?_eq_some_iff.1 found
  cases a with
  | left | top => exact least
  | right | bottom => exact greatest
  | centreX | centreY => simp only [IsGoal, goal, average, feature, List.length_map]

theorem IsGoal.eq_of_const {z : Int} (isGoal : a.IsGoal rs g) (nonempty : rs ≠ [])
    (same : ∀ r ∈ rs, a.feature r = z) : g = z := by
  have listed (w : Int) (mem : w ∈ rs.map a.feature) : w = z := by
    obtain ⟨r, there, rfl⟩ := List.mem_map.1 mem
    exact same r there
  cases a with
  | left | right | top | bottom => exact listed g isGoal.1
  | centreX | centreY =>
    have long : (rs.length : Int) ≠ 0 := by simpa using nonempty
    have sum : (List.replicate rs.length z).foldr (· + ·) 0 = rs.length * z := List.sum_replicate_int
    rw [IsGoal, List.eq_replicate_of_mem listed, List.length_map, sum] at isGoal
    rw [isGoal, Int.mul_tdiv_cancel_left z long]

/-- One coordinate is put to a value, and nothing else changes. -/
structure Lines (a : Alignment) (g : Int) (r s : Rect) : Prop where
  feature : a.feature s = g
  across : a.across s = a.across r
  width : s.width = r.width
  height : s.height = r.height

theorem lines_place (a : Alignment) (g : Int) (r : Rect) : a.Lines g r (r.withPosition (a.place g r)) := by
  constructor <;> cases a <;>
    simp [Alignment.feature, Alignment.across, place, Rect.withPosition, Rect.position, Point.withX,
      Point.withY, Rect.right, Rect.bottom, Rect.centreX, Rect.centreY]

theorem place_eq_iff : a.place g r = r.position ↔ a.feature r = g := by
  cases a <;>
    simp only [place, feature, Rect.position, Point.withX, Point.withY, Rect.right, Rect.bottom,
      Rect.centreX, Rect.centreY, Point.mk.injEq, and_true, true_and] <;> omega

end Alignment

/-! ## What is selected and what is moved -/

namespace Keyed

variable {α β : Type} [DecidableEq β] {xs : Keyed α} {changes : Keyed (α → α)}

theorem length_eq_countP (read : α → β) (nodup : (keys xs).Nodup) (distinct : (keys changes).Nodup)
    (alters : ∀ e ∈ changes, ∃ a, get? xs e.1 = some a ∧ read (e.2 a) ≠ read a) :
    changes.length = (keys xs).countP fun k =>
      (get? (mapValues xs (change changes)) k).map read != (get? xs k).map read := by
  have mem (k : Nat) : k ∈ keys changes ↔ k ∈ (keys xs).filter fun k =>
      (get? (mapValues xs (change changes)) k).map read != (get? xs k).map read := by
    rw [List.mem_filter, get?_mapValues]
    constructor
    · intro there
      obtain ⟨⟨k, f⟩, listed, rfl⟩ := List.mem_map.1 there
      obtain ⟨a, found, differs⟩ := alters (k, f) listed
      refine ⟨mem_keys_of_mem (mem_of_get? found), ?_⟩
      simpa [found, change_of_mem distinct listed] using differs
    · rintro ⟨-, differs⟩
      by_contra fresh
      simp [change_of_fresh fresh] at differs
  rw [List.countP_eq_length_filter, ← List.length_map]
  exact ((List.perm_ext_iff_of_nodup distinct (nodup.filter _)).2 mem).length_eq

end Keyed

namespace Scene

theorem Abreast.exists_node {c : Contents} {s : Scene} {e : Nat × Box} {h : Nat} (abreast : Abreast c s)
    (mem : e ∈ s.boxes) (named : e.2.handle = some h) :
    ∃ n j, c.node? h = some n ∧ e.2.Steady n.info j := by
  have known := abreast.listed e mem h named
  obtain ⟨n, there⟩ := Option.ne_none_iff_exists'.1 (mt Keyed.get?_eq_none_iff.1 (not_not.2 known))
  obtain ⟨j, listed⟩ := List.getElem?_of_mem (Keyed.mem_of_get? there)
  obtain ⟨e', mem', named', steady⟩ := abreast.shown j h n listed
  obtain rfl := eq_of_handle abreast.wf.handles mem mem' named named'
  exact ⟨n, j, there, steady⟩

end Scene

/-- No size is below zero. -/
def Patch.Sized (p : Patch) : Prop := ∀ e ∈ p.nodes, 0 ≤ e.2.bounds.width ∧ 0 ≤ e.2.bounds.height

instance (p : Patch) : Decidable p.Sized := inferInstanceAs (Decidable (∀ e ∈ p.nodes, _))

namespace Canvas

open Patch (pair emptied)
open Scene (Abreast)

variable {c v : Canvas} {p q : Patch} {a : Alignment} {key h : Nat} {r : Rect}

theorem mem_alignable : (key, h, r) ∈ c.alignable ↔ key ∈ c.selection.boxes ∧
    ∃ b, c.scene.box? key = some b ∧ b.handle = some h ∧ b.content = r := by
  simp only [alignable, List.mem_filterMap, Option.bind_eq_bind, Option.bind_eq_some_iff,
    Option.pure_def, Option.some.injEq, Prod.mk.injEq]
  constructor
  · rintro ⟨_, chosen, b, found, _, named, rfl, rfl, content⟩
    exact ⟨chosen, b, found, named, content⟩
  · rintro ⟨chosen, b, found, named, content⟩
    exact ⟨key, chosen, b, found, h, named, rfl, rfl, content⟩

def alignGoal (c : Canvas) (a : Alignment) : Int := a.goal (c.alignable.map fun item => item.2.2)

theorem mem_alignMoves (several : 2 ≤ c.alignable.length) {m : Nat × Nat × Point} :
    m ∈ c.alignMoves a ↔ ∃ r, (m.1, m.2.1, r) ∈ c.alignable ∧ a.feature r ≠ c.alignGoal a ∧
      a.place (c.alignGoal a) r = m.2.2 := by
  simp only [alignMoves, Nat.not_lt.2 several, if_false, List.mem_filterMap]
  constructor
  · rintro ⟨⟨key, h, r⟩, there, made⟩
    dsimp only at made
    split at made
    · exact absurd made (by simp)
    · next off =>
      obtain rfl := Option.some.inj made
      exact ⟨r, there, mt Alignment.place_eq_iff.2 off, rfl⟩
  · rintro ⟨r, there, off, place⟩
    refine ⟨_, there, (if_neg (mt Alignment.place_eq_iff.1 off)).trans ?_⟩
    exact congrArg (fun z => some (m.1, m.2.1, z)) place

theorem contents_ne_nil (several : 2 ≤ c.alignable.length) :
    (c.alignable.map fun item => item.2.2) ≠ [] := by
  rw [ne_eq, List.map_eq_nil_iff, ← List.length_eq_zero_iff]
  omega

theorem alignMoves_eq_nil {g : Int} (same : ∀ item ∈ c.alignable, a.feature item.2.2 = g) :
    c.alignMoves a = [] := by
  simp only [alignMoves]
  split
  · rfl
  · next several =>
    have nonempty := contents_ne_nil (Nat.not_lt.1 several)
    have goal := (Alignment.isGoal_goal nonempty a).eq_of_const nonempty (List.forall_mem_map.2 same)
    refine List.filterMap_eq_nil_iff.2 fun item mem => if_pos (Alignment.place_eq_iff.2 ?_)
    exact (same item mem).trans goal.symm

theorem shown_of_mem_alignable (abreast : Abreast p.toContents c.scene) (sized : p.Sized)
    (mem : (key, h, r) ∈ c.alignable) : ∃ b n, c.scene.box? key = some b ∧ b.handle = some h ∧
      b.bounds = r.expanded margin ∧ p.node? h = some n ∧ n.bounds = r ∧ 0 ≤ r.width ∧ 0 ≤ r.height := by
  obtain ⟨-, b, found, named, content⟩ := mem_alignable.1 mem
  obtain ⟨n, j, there, steady⟩ := abreast.exists_node (Scene.mem_boxes abreast.wf.boxOrder found) named
  obtain ⟨wide, tall⟩ := sized (h, n) (Keyed.mem_of_get? there)
  have bounds : b.bounds = n.bounds.expanded margin := steady.bounds
  obtain rfl : n.bounds = r := by
    rw [← content, Box.content, bounds, Rect.reduced_expanded wide tall]
  exact ⟨b, n, found, named, bounds, there, rfl, wide, tall⟩

theorem eq_of_mem_alignable (abreast : Abreast p.toContents c.scene) {item item' : Nat × Nat × Rect}
    (mem : item ∈ c.alignable) (mem' : item' ∈ c.alignable)
    (same : item.1 = item'.1 ∨ item.2.1 = item'.2.1) : item = item' := by
  obtain ⟨key, h, r⟩ := item
  obtain ⟨key', h', r'⟩ := item'
  obtain ⟨-, b, found, named, rfl⟩ := mem_alignable.1 mem
  obtain ⟨-, b', found', named', rfl⟩ := mem_alignable.1 mem'
  obtain rfl : key = key' := by
    rcases same with rfl | rfl
    · rfl
    · have one := Scene.eq_of_handle abreast.wf.handles
        (Scene.mem_boxes abreast.wf.boxOrder found) (Scene.mem_boxes abreast.wf.boxOrder found')
        named named'
      exact (Prod.mk.inj one).1
  obtain rfl := Option.some.inj (found.symm.trans found')
  obtain rfl := Option.some.inj (named.symm.trans named')
  rfl

def alignTo (c : Canvas) (a : Alignment) (r : Rect) : Rect := r.withPosition (a.place (c.alignGoal a) r)

theorem alignTo_of_feature (there : a.feature r = c.alignGoal a) : c.alignTo a r = r := by
  rw [alignTo, Alignment.place_eq_iff.2 there]
  rfl

theorem change_alignMoves {α : Type} (name : Nat × Nat → Nat) (put : Point → α → α)
    (several : 2 ≤ c.alignable.length)
    (distinct : ((c.alignMoves a).map fun m => name (m.1, m.2.1)).Nodup)
    (apart : ∀ item ∈ c.alignable, ∀ item' ∈ c.alignable,
      name (item.1, item.2.1) = name (item'.1, item'.2.1) → item = item')
    (mem : (key, h, r) ∈ c.alignable) :
    change ((c.alignMoves a).map fun m => (name (m.1, m.2.1), put m.2.2)) (name (key, h))
      = if a.feature r = c.alignGoal a then id else put (a.place (c.alignGoal a) r) := by
  have named : keys ((c.alignMoves a).map fun m => (name (m.1, m.2.1), put m.2.2))
      = (c.alignMoves a).map fun m => name (m.1, m.2.1) := by
    simp [keys, Function.comp_def]
  split
  · next there =>
    refine Keyed.change_of_fresh fun listed => ?_
    obtain ⟨m, moved, same⟩ := List.mem_map.1 (named ▸ listed)
    obtain ⟨r', mem', off, -⟩ := (mem_alignMoves several).1 moved
    have one := apart _ mem' _ mem same
    obtain ⟨-, rfl⟩ := Prod.mk.inj (Prod.mk.inj one).2
    exact off there
  · next off =>
    have moved : (key, h, a.place (c.alignGoal a) r) ∈ c.alignMoves a :=
      (mem_alignMoves several).2 ⟨r, mem, off, rfl⟩
    exact Keyed.change_of_mem (named ▸ distinct) (List.mem_map.2 ⟨_, moved, rfl⟩)

theorem change_putPlaces {b : Box} (abreast : Abreast p.toContents c.scene)
    (chosen : c.selection.boxes.Nodup) (several : 2 ≤ c.alignable.length)
    (mem : (key, h, r) ∈ c.alignable) (bounds : b.bounds = r.expanded margin) :
    change (putPlaces (c.alignMoves a)) key b
      = { b with bounds := (c.alignTo a r).expanded margin } := by
  refine (congrFun (change_alignMoves Prod.fst
    (fun place b => { b with bounds := b.bounds.withPosition (place - ⟨margin, margin⟩) }) several
    (nodup_alignMoves chosen a)
    (fun _ mem _ mem' same => eq_of_mem_alignable abreast mem mem' (.inl same)) mem) b).trans ?_
  split
  · next there =>
    rw [alignTo_of_feature there, ← bounds]
    rfl
  · dsimp only
    rw [bounds]
    rfl

theorem change_nodePlaces {n : Node} (abreast : Abreast p.toContents c.scene)
    (chosen : c.selection.boxes.Nodup) (several : 2 ≤ c.alignable.length)
    (mem : (key, h, r) ∈ c.alignable) (bounds : n.bounds = r) :
    change (nodePlaces (c.alignMoves a)) h n = { n with bounds := c.alignTo a r } := by
  refine (congrFun (change_alignMoves Prod.snd
    (fun place => Node.relaid fun r => r.withPosition place) several
    (distinct_alignMoves abreast chosen a)
    (fun _ mem _ mem' same => eq_of_mem_alignable abreast mem mem' (.inr same)) mem) n).trans ?_
  split
  · next there =>
    rw [alignTo_of_feature there, ← bounds]
    rfl
  · rw [← bounds]
    rfl

/-- An object whose content goes from one rectangle to another, in the scene and in the patch, and in
nothing else changes. -/
structure Puts (c v : Canvas) (p q : Patch) (key h : Nat) (r s : Rect) : Prop where
  box : ∃ b, c.scene.box? key = some b ∧ b.content = r ∧
    v.scene.box? key = some { b with bounds := s.expanded margin }
  shown : (v.scene.box? key).map Box.content = some s
  node : ∃ n, p.node? h = some n ∧ n.bounds = r ∧ q.node? h = some { n with bounds := s }

/-- What is selected is lined up: the canvas and the patch before and after, and the number that is
returned. -/
structure LinedUp (a : Alignment) (c v : Canvas) (p q : Patch) (n : Nat) : Prop where
  lines : ∃ g, a.IsGoal (c.alignable.map fun item => item.2.2) g ∧
    ∀ key h r, (key, h, r) ∈ c.alignable → ∃ s, a.Lines g r s ∧ Puts c v p q key h r s
  boxes : keys v.scene.boxes = keys c.scene.boxes
  box?_rest : ∀ key, (∀ item ∈ c.alignable, item.1 ≠ key) → v.scene.box? key = c.scene.box? key
  nodes : keys q.nodes = keys p.nodes
  node?_rest : ∀ h, (∀ item ∈ c.alignable, item.2.1 ≠ h) → q.node? h = p.node? h
  boxes_moved : n = (keys c.scene.boxes).countP fun key =>
    (v.scene.box? key).map (·.bounds.position) != (c.scene.box? key).map (·.bounds.position)
  nodes_moved : n = (keys p.nodes).countP fun h =>
    (q.node? h).map (·.bounds.position) != (p.node? h).map (·.bounds.position)
  again : v.alignSelection q a = (v, q, .ok 0)

namespace Aligned

variable (aligned : Aligned a c v p q)

include aligned

theorem box?_eq (exact : c.scene.boxArena.Exact) (key : Nat) : v.scene.box? key
    = (c.scene.box? key).map (change (putPlaces (c.alignMoves a)) key) := by
  have tags : v.scene.boxArena.map Box.tag = c.scene.boxArena.map Box.tag :=
    congrArg Scene.Outline.boxes aligned.outline
  have exact' : v.scene.boxArena.Exact := by
    rwa [← Arena.Exact.map_iff Box.tag, tags, Arena.Exact.map_iff]
  rw [Scene.box?, exact'.get?_eq, ← Scene.boxes, aligned.boxes, Keyed.get?_mapValues, Scene.boxes,
    ← exact.get?_eq, Scene.box?]

theorem node?_eq (h : Nat) :
    q.node? h = (p.node? h).map (change (nodePlaces (c.alignMoves a)) h) := by
  rw [Contents.node?, aligned.nodes, Keyed.get?_mapValues, Contents.node?]

theorem box?_rest (exact : c.scene.boxArena.Exact) (rest : ∀ item ∈ c.alignable, item.1 ≠ key) :
    v.scene.box? key = c.scene.box? key := by
  rw [aligned.box?_eq exact, Keyed.change_of_fresh, Option.map_id_apply]
  intro listed
  obtain ⟨m, moved, same⟩ := List.mem_map.1 (keys_putPlaces _ ▸ listed)
  obtain ⟨r, mem⟩ := alignable_of_mem moved
  exact rest _ mem same

theorem node?_rest (rest : ∀ item ∈ c.alignable, item.2.1 ≠ h) : q.node? h = p.node? h := by
  rw [aligned.node?_eq, Keyed.change_of_fresh, Option.map_id_apply]
  intro listed
  obtain ⟨m, moved, same⟩ := List.mem_map.1 (keys_nodePlaces _ ▸ listed)
  obtain ⟨r, mem⟩ := alignable_of_mem moved
  exact rest _ mem same

variable (abreast : Abreast p.toContents c.scene) (sized : p.Sized) (chosen : c.selection.boxes.Nodup)
  (several : 2 ≤ c.alignable.length)

include abreast sized chosen several

theorem puts (mem : (key, h, r) ∈ c.alignable) : Puts c v p q key h r (c.alignTo a r) := by
  obtain ⟨b, n, found, named, bounds, there, here, wide, tall⟩ :=
    shown_of_mem_alignable abreast sized mem
  have after : v.scene.box? key = some { b with bounds := (c.alignTo a r).expanded margin } := by
    rw [aligned.box?_eq abreast.wf.boxOrder, found, Option.map_some,
      change_putPlaces abreast chosen several mem bounds]
  have content : b.content = r := by rw [Box.content, bounds, Rect.reduced_expanded wide tall]
  refine ⟨⟨b, found, content, after⟩, ?_, n, there, here, ?_⟩
  · rw [after, Option.map_some, Box.content]
    exact congrArg some (Rect.reduced_expanded (r := c.alignTo a r) wide tall margin)
  · rw [aligned.node?_eq, there, Option.map_some, change_nodePlaces abreast chosen several mem here]

theorem boxes_moved : (c.alignMoves a).length = (keys c.scene.boxes).countP fun key =>
    (v.scene.box? key).map (·.bounds.position) != (c.scene.box? key).map (·.bounds.position) := by
  have distinct : (keys (putPlaces (c.alignMoves a))).Nodup :=
    keys_putPlaces _ ▸ nodup_alignMoves chosen a
  have counted := Keyed.length_eq_countP (fun b => b.bounds.position) abreast.wf.boxes distinct ?_
  · rw [putPlaces, List.length_map] at counted
    rw [counted]
    refine List.countP_congr fun key _ => ?_
    rw [aligned.box?_eq abreast.wf.boxOrder, Scene.box?, abreast.wf.boxOrder.get?_eq,
      Keyed.get?_mapValues]
    rfl
  · intro e listed
    obtain ⟨m, moved, rfl⟩ := List.mem_map.1 listed
    obtain ⟨r, mem, off, place⟩ := (mem_alignMoves several).1 moved
    obtain ⟨b, -, found, -, bounds, -⟩ := shown_of_mem_alignable abreast sized mem
    refine ⟨b, (abreast.wf.boxOrder.get?_eq m.1).symm.trans found,
      fun same => off (Alignment.place_eq_iff.1 (place.trans ?_))⟩
    rw [bounds] at same
    simp only [Rect.position, Rect.withPosition, Rect.expanded, Point.sub_x, Point.sub_y,
      Point.mk.injEq] at same
    exact Point.ext (by simp only [Rect.position]; omega) (by simp only [Rect.position]; omega)

theorem nodes_moved : (c.alignMoves a).length = (keys p.nodes).countP fun h =>
    (q.node? h).map (·.bounds.position) != (p.node? h).map (·.bounds.position) := by
  have distinct : (keys (nodePlaces (c.alignMoves a))).Nodup :=
    keys_nodePlaces _ ▸ distinct_alignMoves abreast chosen a
  have counted := Keyed.length_eq_countP (fun n => n.bounds.position) abreast.nodup distinct ?_
  · rw [← aligned.nodes, nodePlaces, List.length_map] at counted
    exact counted
  · intro e listed
    obtain ⟨m, moved, rfl⟩ := List.mem_map.1 listed
    obtain ⟨r, mem, off, place⟩ := (mem_alignMoves several).1 moved
    obtain ⟨-, n, -, -, -, there, rfl, -⟩ := shown_of_mem_alignable abreast sized mem
    exact ⟨n, there, fun same => off (Alignment.place_eq_iff.1 (place.trans same))⟩

theorem again (unlocked : c.locked = false) : v.alignSelection q a = (v, q, .ok 0) := by
  have still : v.alignMoves a = [] := by
    refine alignMoves_eq_nil (g := c.alignGoal a) ?_
    rintro ⟨key, h, s⟩ mem
    -- What is selected afterwards was selected before, and has been put where it belongs.
    obtain ⟨picked, b, found, named, rfl⟩ := mem_alignable.1 mem
    rw [aligned.box?_eq abreast.wf.boxOrder] at found
    obtain ⟨b', found', rfl⟩ := Option.map_eq_some_iff.1 found
    rw [handle_change_putPlaces] at named
    have listed : (key, h, b'.content) ∈ c.alignable :=
      mem_alignable.2 ⟨aligned.selection ▸ picked, b', found', named, rfl⟩
    have shown := (aligned.puts abreast sized chosen several listed).shown
    rw [aligned.box?_eq abreast.wf.boxOrder, found'] at shown
    exact (congrArg a.feature (Option.some.inj shown)).trans (a.lines_place _ _).feature
  simp only [alignSelection, aligned.locked, unlocked, still, List.isEmpty_nil, if_true,
    Bool.false_eq_true, if_false]

end Aligned

theorem linedUp_alignSelection (abreast : Abreast p.toContents c.scene) (sized : p.Sized)
    (chosen : c.selection.boxes.Nodup) (unlocked : c.locked = false) (several : 2 ≤ c.alignable.length)
    (a : Alignment) : ∃ v q n, c.alignSelection p a = (v, q, .ok n) ∧ LinedUp a c v p q n := by
  obtain ⟨v, q, made, aligned⟩ := exists_aligned abreast chosen unlocked a
  refine ⟨v, q, _, made, ?_⟩
  exact {
    lines := ⟨c.alignGoal a, a.isGoal_goal (contents_ne_nil several), fun key h r mem =>
      ⟨_, a.lines_place _ r, aligned.puts abreast sized chosen several mem⟩⟩
    boxes := by rw [aligned.boxes, Keyed.keys_mapValues]
    box?_rest := fun _ => aligned.box?_rest abreast.wf.boxOrder
    nodes := by rw [aligned.nodes, Keyed.keys_mapValues]
    node?_rest := fun _ => aligned.node?_rest
    boxes_moved := aligned.boxes_moved abreast sized chosen several
    nodes_moved := aligned.nodes_moved abreast sized chosen several
    again := aligned.again abreast sized chosen several unlocked }

/-! ## Whatever is selected -/

def Call.Picks : Call → Prop
  | selectBox _ _ | selectCable _ _ | deselectAll | beginLasso _ | updateLasso _ | endLasso => True
  | _ => False

theorem picks_run {call : Call} (picks : call.Picks) (abreast : Abreast p.toContents c.scene) :
    Abreast p.toContents (call.run c p).1.scene ∧ (call.run c p).2 = p := by
  have mark (sel : Selection) : Abreast p.toContents (sel.mark c.scene) :=
    (Scene.marked_mark sel c.scene).abreast abreast
  cases call with
  | selectBox key toggle =>
    simp only [Call.run, selectBox, and_true]
    split
    · exact abreast
    · exact mark _
  | selectCable key toggle =>
    simp only [Call.run, selectCable, and_true]
    split
    · exact abreast
    · exact mark _
  | deselectAll => exact ⟨mark _, rfl⟩
  | beginLasso position =>
    simp only [Call.run, beginLasso, and_true]
    split
    · exact abreast
    · exact mark _
  | updateLasso position =>
    simp only [Call.run, updateLasso, and_true]
    split <;> exact abreast
  | endLasso =>
    simp only [Call.run, endLasso, and_true]
    split
    · exact mark _
    · exact abreast
  | _ => exact picks.elim

theorem drive_picks {calls : List Call} (picks : ∀ call ∈ calls, call.Picks)
    (abreast : Abreast p.toContents c.scene) (chosen : c.selection.boxes.Nodup) :
    let s := drive (c, p) calls
    s.2 = p ∧ Abreast p.toContents s.1.scene ∧ s.1.selection.boxes.Nodup := by
  refine List.foldlRecOn (motive := fun s : Canvas × Patch => s.2 = p ∧
    Abreast p.toContents s.1.scene ∧ s.1.selection.boxes.Nodup) _ _ ⟨rfl, abreast, chosen⟩ ?_
  rintro ⟨u, _⟩ ⟨rfl, abreast, chosen⟩ call mem
  obtain ⟨abreast', same⟩ := picks_run (picks call mem) abreast
  exact ⟨same, abreast', chosen_call (Scene.wellFormed_iff.1 abreast.wf).1 chosen _ call⟩

/-- Whatever is selected on a canvas, if it is more than one object of the patch, is lined up. -/
def LinesUp (c : Canvas) (p : Patch) : Prop :=
  ∀ calls : List Call, (∀ call ∈ calls, call.Picks) →
    let s := drive (c, p) calls
    s.1.locked = false → 2 ≤ s.1.alignable.length → ∀ a : Alignment,
      ∃ v q n, s.1.alignSelection s.2 a = (v, q, .ok n) ∧ LinedUp a s.1 v s.2 q n

theorem LinesUp.across (linesUp : LinesUp c p) (calls : List Call) (picks : ∀ call ∈ calls, call.Picks)
    (a : Alignment) (item : Nat × Nat × Rect) :
    let s := drive (c, p) calls
    s.1.locked = false → 2 ≤ s.1.alignable.length → item ∈ s.1.alignable →
      ((s.1.alignSelection s.2 a).2.1.node? item.2.1).map (fun n => a.across n.bounds)
        = some (a.across item.2.2) := by
  intro s unlocked several mem
  obtain ⟨v, q, n, made, lined⟩ := linesUp calls picks unlocked several a
  obtain ⟨g, -, lines⟩ := lined.lines
  obtain ⟨r, line, puts⟩ := lines item.1 item.2.1 item.2.2 mem
  obtain ⟨m, -, -, node⟩ := puts.node
  rw [made, node]
  exact congrArg some line.across

theorem linesUp_sync (regular : c.scene.Regular) (chosen : (c.sync p).1.selection.boxes.Nodup)
    (nodup : (keys p.nodes).Nodup) (sized : p.Sized) (distinct : (c.sync p).1.scene.handles.Nodup) :
    LinesUp (c.sync p).1 (c.sync p).2.1 := by
  intro calls picks s unlocked several a
  obtain ⟨same, abreast, chosen⟩ := drive_picks picks (abreast_sync regular nodup distinct) chosen
  have abreast : Abreast s.2.toContents s.1.scene := same.symm ▸ abreast
  have sized : s.2.Sized := same.symm ▸ sized
  exact linedUp_alignSelection abreast sized chosen unlocked several a

/-- On a canvas that was just brought in line with a patch and on which no two boxes have the same handle,
an alignment lines up what is selected; and no two have as long as the canvas stays with one patch. -/
theorem alignSelection_linesUp :
    (∀ c, Reached c → ∀ p : Patch, (keys p.nodes).Nodup → p.Sized →
      (c.sync p).1.scene.handles.Nodup → LinesUp (c.sync p).1 (c.sync p).2.1) ∧
    ∀ (settings : CanvasSettings) (p : Patch), p.Loaded → ∀ events : List Event,
      let played := play settings p events
      played.2.Sized → LinesUp (played.1.sync played.2).1 (played.1.sync played.2).2.1 := by
  constructor
  · intro c reached p nodup sized distinct
    exact linesUp_sync reached.regular (reached.call p .sync).chosen nodup sized distinct
  · intro settings p loaded events played sized
    have joined := joined_play settings loaded events
    have reached := reached_play settings p events
    exact linesUp_sync reached.regular (reached.call played.2 .sync).chosen joined.bounded.nodup sized
      (joined.call .sync).wf.handles

theorem alignSelection_linesUp_strayed :
    (Reached strayed ∧ (keys pair.nodes).Nodup ∧ pair.Sized ∧
      (strayed.sync pair).1.scene.handles.Nodup ∧
      let s := drive ((strayed.sync pair).1, (strayed.sync pair).2.1) [.selectBox 1 false, .selectBox 2 true]
      s.1.locked = false ∧ 2 ≤ s.1.alignable.length ∧
        ∃ v q n, s.1.alignSelection s.2 .top = (v, q, .ok n) ∧ LinedUp .top s.1 v s.2 q n) ∧
    (Patch.Loaded {} ∧
      let played := play {} {} [.call (.placeBlank ⟨5, 5⟩), .call (.commitBlank 1 "a"),
        .call (.placeBlank ⟨-50, 50⟩), .call (.commitBlank 2 "b")]
      played.2.Sized ∧
      let s := drive ((played.1.sync played.2).1, (played.1.sync played.2).2.1)
        [.selectBox 1 false, .selectBox 2 true]
      s.1.locked = false ∧ 2 ≤ s.1.alignable.length ∧
        ∃ v q n, s.1.alignSelection s.2 .centreX = (v, q, .ok n) ∧ LinedUp .centreX s.1 v s.2 q n) := by
  have picks : ∀ call ∈ [Call.selectBox 1 false, Call.selectBox 2 true], call.Picks := by
    simp [Call.Picks]
  have nodup : (keys pair.nodes).Nodup := by decide
  have sized : pair.Sized := by decide
  have distinct : (strayed.sync pair).1.scene.handles.Nodup := by decide +kernel
  have first := alignSelection_linesUp.1 strayed reached_strayed pair nodup sized distinct
    _ picks (by decide +kernel) (by decide +kernel) .top
  have second := alignSelection_linesUp.2 {} {} .empty [.call (.placeBlank ⟨5, 5⟩),
    .call (.commitBlank 1 "a"), .call (.placeBlank ⟨-50, 50⟩), .call (.commitBlank 2 "b")]
    (by decide +kernel) _ picks (by decide +kernel) (by decide +kernel) .centreX
  exact ⟨⟨reached_strayed, nodup, sized, distinct, by decide +kernel, by decide +kernel, first⟩,
    .empty, by decide +kernel, by decide +kernel, by decide +kernel, second⟩

/-- Like `strayed`, with the new box further to the left and down, committed under the handle of
another. -/
def outlying : Canvas × Patch :=
  (Call.commitBlank 3 "b").run ((((ofSettings {}).sync pair).1).placeBlank ⟨-5, 80⟩).1 emptied

/-- Of two boxes that go by one handle, the one that is moved takes the node of the other along. -/
theorem alignSelection_outlying : ¬ ∀ c, Reached c → ∀ p : Patch, (keys p.nodes).Nodup → p.Sized →
    (c.sync p).1.drag = .none → LinesUp (c.sync p).1 (c.sync p).2.1 := by
  intro always
  have reached : Reached outlying.1 := (((Reached.ofSettings {}).call pair .sync).call emptied
    (.placeBlank ⟨-5, 80⟩)).call emptied (.commitBlank 3 "b")
  have linesUp := always outlying.1 reached outlying.2 (by decide +kernel) (by decide +kernel)
    (by decide +kernel)
  have kept := linesUp.across [.selectBox 2 false, .selectBox 3 true] (by simp [Call.Picks]) .left
    (3, 2, ⟨-5, 80, 30, 20⟩) (by decide +kernel) (by decide +kernel) (by decide +kernel)
  exact absurd kept (by decide +kernel)

end Canvas

end Patchbay
