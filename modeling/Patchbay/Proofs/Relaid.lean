import Patchbay.Proofs.Abreast
import Patchbay.Proofs.Carry

/-!
# Nodes that are put elsewhere

Moves, resizes and alignments set the bounds of nodes, each of its own node. When they set the bounds
of the boxes in the same way, the boxes still show the nodes as they are.
-/

namespace Patchbay

namespace Keyed

variable {α : Type} {xs : Keyed α} {changes : Keyed (α → α)} {f : α → α} {k : Nat}

def change (changes : Keyed (α → α)) (k : Nat) : α → α := (get? changes k).getD id

theorem change_of_mem (nodup : (keys changes).Nodup) (mem : (k, f) ∈ changes) :
    change changes k = f := by
  rw [change, get?_of_mem nodup mem, Option.getD_some]

theorem change_of_fresh (fresh : k ∉ keys changes) : change changes k = id := by
  rw [change, get?_eq_none_iff.2 fresh, Option.getD_none]

theorem change_keeps {β : Type} {g : α → β} (keep : ∀ e ∈ changes, ∀ a, g (e.2 a) = g a) (k : Nat)
    (a : α) : g (change changes k a) = g a := by
  rw [change]
  cases found : get? changes k with
  | none => rfl
  | some f => exact keep (k, f) (mem_of_get? found) a

theorem mapValues_update_change (fresh : k ∉ keys changes) :
    mapValues (update xs k f) (change changes) = mapValues xs (change ((k, f) :: changes)) := by
  simp only [mapValues, update, List.map_map]
  refine List.map_congr_left fun x _ => ?_
  by_cases here : x.1 = k
  · simp [change, get?, here, get?_eq_none_iff.2 fresh]
  · have other : k ≠ x.1 := fun same => here same.symm
    simp [change, get?, here, other]

theorem nodup_filterMap {β : Type} {l : List β} {pick : β → Option (Nat × α)} (key : β → Nat)
    (same : ∀ b x, pick b = some x → x.1 = key b) (nodup : (l.map key).Nodup) :
    (keys (l.filterMap pick)).Nodup := by
  rw [List.Nodup, keys, List.pairwise_map, List.pairwise_filterMap]
  refine (List.pairwise_map.1 nodup).imp fun {b b'} apart x made x' made' => ?_
  rw [same b x made, same b' x' made']
  exact apart

end Keyed

open Keyed (keys get? mapValues update change)

def Node.relaid (place : Rect → Rect) (n : Node) : Node := { n with bounds := place n.bounds }

namespace Patch

variable {β : Type} {p : Patch} {edit : Patch → β → Except EditError Patch} {node : β → Nat}
  {place : β → Rect → Rect}

/-- Edits that set the bounds of a node each, and are not refused for one that is there. -/
def Lays (edit : Patch → β → Except EditError Patch) (node : β → Nat) (place : β → Rect → Rect) :
    Prop :=
  ∀ (p : Patch) (b : β), (keys p.nodes).Nodup → node b ∈ keys p.nodes → ∃ q, edit p b = .ok q ∧
    q.nodes = update p.nodes (node b) (Node.relaid (place b))

theorem lays_of_setBounds (same : ∀ (p : Patch) (b : β) (n : Node), p.node? (node b) = some n →
    edit p b = p.setBounds (node b) (place b n.bounds)) : Lays edit node place := by
  intro p b nodup known
  obtain ⟨n, there⟩ := Option.ne_none_iff_exists'.1 (mt Keyed.get?_eq_none_iff.1 (not_not.2 known))
  have found : p.node? (node b) = some n := there
  have whole : update p.nodes (node b) (Node.relaid (place b))
      = update p.nodes (node b) fun m => { m with bounds := place b n.bounds } := by
    refine Keyed.update_congr fun m mem => ?_
    obtain rfl := Keyed.eq_of_mem nodup mem (Keyed.mem_of_get? there)
    rfl
  rw [same p b n found, whole]
  by_cases still : n.bounds = place b n.bounds
  · refine ⟨p, by simp only [setBounds, found, still.symm, if_true], ?_⟩
    refine (Keyed.update_of_get? nodup there ?_).symm
    rw [← still]
  · simp only [setBounds, found, still, if_false]
    exact ⟨_, rfl, rfl⟩

theorem lays_setBounds (node : β → Nat) (bounds : β → Rect) :
    Lays (fun p b => p.setBounds (node b) (bounds b)) node fun b _ => bounds b :=
  lays_of_setBounds fun _ _ _ _ => rfl

theorem lays_moveNode (node : β → Nat) (delta : β → Point) :
    Lays (fun p b => p.moveNode (node b) (delta b)) node fun b r => r.shifted (delta b) :=
  lays_of_setBounds fun p b n found => by simp only [moveNode, found]

theorem lays_moveNodeTo (node : β → Nat) (position : β → Point) :
    Lays (fun p b => p.moveNodeTo (node b) (position b)) node fun b r => r.withPosition (position b) :=
  lays_of_setBounds fun p b n found => by simp only [moveNodeTo, found]

theorem Lays.editAll (lays : Lays edit node place) {bs : List β} (nodup : (keys p.nodes).Nodup)
    (known : ∀ b ∈ bs, node b ∈ keys p.nodes) (distinct : (bs.map node).Nodup) :
    ∃ q, Document.editAll edit p bs = (q, .ok ()) ∧
      q.nodes = mapValues p.nodes (change (bs.map fun b => (node b, Node.relaid (place b)))) := by
  induction bs generalizing p with
  | nil => exact ⟨p, rfl, (Keyed.mapValues_eq_self fun _ _ => rfl).symm⟩
  | cons b bs ih =>
    obtain ⟨here, rest⟩ := List.forall_mem_cons.1 known
    obtain ⟨fresh, distinct⟩ := List.nodup_cons.1 distinct
    obtain ⟨q, first, nodes⟩ := lays p b nodup here
    have same : keys q.nodes = keys p.nodes := by rw [nodes, Keyed.keys_update]
    obtain ⟨r, made, nodes'⟩ := ih (same ▸ nodup) (fun b mem => same ▸ rest b mem) distinct
    refine ⟨r, by simp only [Document.editAll, first, made], ?_⟩
    rw [nodes', nodes, List.map_cons]
    refine Keyed.mapValues_update_change ?_
    simpa [keys, Function.comp_def] using fresh

theorem Lays.inSequence (lays : Lays edit node place) (bs : List β) (nodup : (keys p.nodes).Nodup)
    (known : ∀ b ∈ bs, node b ∈ keys p.nodes) (distinct : (bs.map node).Nodup) (label : String) :
    ∃ q, Document.inSequence p label (fun p => Document.editAll edit p bs) = (q, .ok ()) ∧
      q.nodes = mapValues p.nodes (change (bs.map fun b => (node b, Node.relaid (place b)))) := by
  obtain ⟨q, made, nodes⟩ := lays.editAll (p := p.openSequence label) nodup known distinct
  refine ⟨q.closeSequence, ?_, nodes⟩
  have made : Document.editAll edit (Document.openSequence p label) bs = (q, .ok ()) := made
  simp only [Document.inSequence, made]
  rfl

end Patch

namespace Box

variable {a b : Box} {info : NodeInfo} {j : Nat} {r : Rect}

/-- The jacks of a box are where its size puts them. -/
def Laid (b : Box) : Prop := b.layoutJacks = b

theorem laid_layoutJacks (b : Box) : b.layoutJacks.Laid := layoutJacks_layoutJacks b

theorem Steady.relay (steady : b.Steady info j) (tag : a.tag = b.tag)
    (signals : a.jackList.map Jack.signal = b.jackList.map Jack.signal)
    (laid : a.Laid) (bounds : a.bounds = r.expanded margin) :
    a.Steady { info with bounds := r } j where
  widget := (congrArg Tag.widget tag).trans steady.widget
  bounds := bounds
  index := (congrArg Tag.index tag).trans steady.index
  flags side := by
    have inlets : a.inletCount = b.inletCount := congrArg Tag.inletCount tag
    have held := steady.flags side
    cases side with
    | inlet =>
      rw [group, Box.inlets, List.map_take, signals, inlets, ← List.map_take]
      exact held
    | outlet =>
      rw [group, Box.outlets, List.map_drop, signals, inlets, ← List.map_drop]
      exact held
  counts side := by
    have held := steady.counts side
    cases side with
    | inlet => exact (congrArg Tag.inletCount tag).trans held
    | outlet => exact (congrArg Tag.outletCount tag).trans held
  laid := laid

theorem Steady.laid_put (steady : b.Steady info j) (width : r.width = b.bounds.width)
    (height : r.height = b.bounds.height) : Laid { b with bounds := r } := by
  have layout : layout { b with bounds := r } = b.layout := by simp only [Box.layout, width, height]
  rw [Laid, layoutJacks, layout]
  exact congrArg (fun c : Box => ({ c with bounds := r } : Box)) steady.laid

theorem Steady.put (steady : b.Steady info j) (width : r.width = info.bounds.width)
    (height : r.height = info.bounds.height) :
    Steady { b with bounds := r.expanded margin } { info with bounds := r } j := by
  refine steady.relay rfl rfl (steady.laid_put ?_ ?_) rfl
  · rw [steady.bounds]
    simp only [Rect.expanded, width]
  · rw [steady.bounds]
    simp only [Rect.expanded, height]

theorem Steady.shifted (steady : b.Steady info j) (d : Point) :
    (b.shifted d).Steady { info with bounds := info.bounds.shifted d } j := by
  have moved : b.shifted d = { b with bounds := (info.bounds.shifted d).expanded margin } := by
    rw [Box.shifted, steady.bounds]
    congr 1
    simp only [Rect.shifted, Rect.expanded, Rect.mk.injEq, and_true]
    omega
  rw [moved]
  exact steady.put rfl rfl

theorem Steady.placed (steady : b.Steady info j) (position : Point) :
    Steady { b with bounds := b.bounds.withPosition (position - ⟨margin, margin⟩) }
      { info with bounds := info.bounds.withPosition position } j := by
  rw [steady.bounds]
  exact steady.put (r := info.bounds.withPosition position) rfl rfl

structure Reshaped (a b : Box) : Prop where
  tag : a.tag = b.tag
  signals : a.jackList.map Jack.signal = b.jackList.map Jack.signal
  home : a.home = b.bounds
  laid : b.Laid → a.Laid
  bounds : a.bounds = b.bounds ∨ a.content.expanded margin = a.bounds

theorem reshaped_grip (b : Box) : Reshaped { b with home := b.bounds } b where
  tag := rfl
  signals := rfl
  home := rfl
  laid laid := congrArg (fun c : Box => ({ c with home := b.bounds } : Box)) laid
  bounds := .inl rfl

theorem Reshaped.put (reshaped : a.Reshaped b) (whole : (r.reduced margin).expanded margin = r) :
    ({ a with bounds := r }.layoutJacks).Reshaped b where
  tag := (tag_layoutJacks _).trans reshaped.tag
  signals := (Jack.map_place (fun _ _ => rfl) _ _ _).trans reshaped.signals
  home := reshaped.home
  laid _ := laid_layoutJacks _
  bounds := .inr whole

theorem Steady.reshaped (steady : b.Steady info j) (reshaped : a.Reshaped b)
    (bounds : a.bounds = r.expanded margin) : a.Steady { info with bounds := r } j :=
  steady.relay reshaped.tag reshaped.signals (reshaped.laid steady.laid) bounds

end Box

namespace Scene

variable {β : Type} {c d : Contents} {s t : Scene} {f : Nat → Box → Box}

theorem Abreast.relay (abreast : Abreast c s) (bs : List β) (node : β → Nat)
    (place : β → Rect → Rect) (outline : t.outline = s.outline) (boxes : t.boxes = mapValues s.boxes f)
    (nodes : d.nodes = mapValues c.nodes (change (bs.map fun b => (node b, Node.relaid (place b)))))
    (distinct : (bs.map node).Nodup) (handle : ∀ k b, (f k b).handle = b.handle)
    (placed : ∀ e ∈ s.boxes, ∀ b ∈ bs, ∀ info j, e.2.handle = some (node b) → e.2.Steady info j →
      (f e.1 e.2).Steady { info with bounds := place b info.bounds } j)
    (rest : ∀ e ∈ s.boxes, ∀ h info j, e.2.handle = some h → h ∉ bs.map node → e.2.Steady info j →
      (f e.1 e.2).Steady info j) : Abreast d t := by
  refine abreast.map outline boxes nodes handle ?_
  intro e mem h n j named steady
  have changed : keys (bs.map fun b => (node b, Node.relaid (place b))) = bs.map node := by
    simp [keys, Function.comp_def]
  by_cases there : h ∈ bs.map node
  · obtain ⟨b, listed, rfl⟩ := List.mem_map.1 there
    rw [Keyed.change_of_mem (changed ▸ distinct) (List.mem_map.2 ⟨b, listed, rfl⟩)]
    exact placed e mem b listed n.info j named steady
  · rw [Keyed.change_of_fresh (changed ▸ there)]
    exact rest e mem h n.info j named there steady

end Scene

end Patchbay
