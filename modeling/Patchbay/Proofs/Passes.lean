import Patchbay.Proofs.Outline
import Patchbay.Proofs.Settled

/-!
# The passes of a reconciliation, whatever is listed

A document may list what it has no details of, and the same thing twice. Still the boxes of a scene
go on one by one: those that are listed stay and come to say what is listed of them, and new ones
have new keys.
-/

namespace Patchbay

open Keyed (keys)

namespace Box

variable {b b' b'' : Box} {l : Listing}

theorem renew_renew (b : Box) (info : NodeInfo) (i j : Nat) :
    (b.renew info i).renew info j = b.renew info j := by
  have again : (b.renew info i).renew info i = b.renew info i := (b.steady_renew info i).renew_eq
  have index (a : Box) : a.renew info j = { a.renew info i with index := some j } := rfl
  rw [index, again, ← index]

/-- A box as it was, or as what is listed about its node makes it. -/
def Follows (l : Listing) (b b' : Box) : Prop :=
  b' = b ∨ ∃ h info i, b.handle = some h ∧ l.info h = some info ∧ b' = b.renew info i

theorem Follows.handle (follows : b.Follows l b') : b'.handle = b.handle := by
  rcases follows with rfl | ⟨_, _, _, _, _, rfl⟩ <;> rfl

theorem Follows.trans (first : b.Follows l b') (second : b'.Follows l b'') :
    b.Follows l b'' := by
  rcases second with rfl | ⟨h, info, j, named, known, rfl⟩
  · exact first
  · rcases first with rfl | ⟨g, info', i, named', known', rfl⟩
    · exact Or.inr ⟨h, info, j, named, known, rfl⟩
    · obtain rfl : g = h := Option.some.inj (named'.symm.trans named)
      obtain rfl : info' = info := Option.some.inj (known'.symm.trans known)
      exact Or.inr ⟨g, info', j, named', known', b.renew_renew info' i j⟩

end Box

/-- Whether a jack of a listed node is there by what is listed about the node. -/
def Listing.Offers (l : Listing) (handle : Nat) (side : Side) (index : Nat) : Prop :=
  l.hasNode handle = true ∧ ∀ info, l.info handle = some info → index < (info.signals side).length

namespace Scene

variable {l : Listing} {s t u : Scene} {h g i k : Nat} {b : Box} {ref : JackRef} {side : Side}

/-- How a scene goes on while nodes are shown. -/
structure Advances (l : Listing) (s t : Scene) : Prop where
  boxes : ∀ k b, (k, b) ∈ s.boxes → ∃ b', (k, b') ∈ t.boxes ∧ b.Follows l b'
  former : ∀ k ∈ keys t.boxes, k ∈ keys s.boxes ∨ s.nextBox ≤ k
  next : s.nextBox ≤ t.nextBox
  blanks : t.blanks = s.blanks

theorem Advances.refl (l : Listing) (s : Scene) : Advances l s s where
  boxes _ b mem := ⟨b, mem, Or.inl rfl⟩
  former _ mem := Or.inl mem
  next := Nat.le_refl _
  blanks := rfl

theorem Advances.trans (first : Advances l s t) (second : Advances l t u) : Advances l s u where
  boxes k b mem := by
    obtain ⟨b', mem', follows⟩ := first.boxes k b mem
    obtain ⟨b'', mem'', follows'⟩ := second.boxes k b' mem'
    exact ⟨b'', mem'', follows.trans follows'⟩
  former k mem := by
    rcases second.former k mem with old | new
    · exact first.former k old
    · exact Or.inr (Nat.le_trans first.next new)
  next := Nat.le_trans first.next second.next
  blanks := second.blanks.trans first.blanks

theorem Advances.raise (advances : Advances l s t) (k : Nat) : Advances l s (t.raise k) where
  boxes := by
    rw [boxes_raise]
    exact advances.boxes
  former := by
    rw [boxes_raise]
    exact advances.former
  next := by
    rw [nextBox_raise]
    exact advances.next
  blanks := by
    rw [Scene.blanks, boxes_raise]
    exact advances.blanks

theorem advances_updateBox {info : NodeInfo} (regular : s.Regular) (mem : (k, b) ∈ s.boxes)
    (named : b.handle = some h) (known : l.info h = some info) (i : Nat) :
    Advances l s (s.updateBox k fun b => b.renew info i) where
  boxes j a ha := by
    by_cases same : j = k
    · subst same
      obtain rfl := Keyed.eq_of_mem regular.boxes ha mem
      refine ⟨a.renew info i, ?_, Or.inr ⟨h, info, i, named, known, rfl⟩⟩
      rw [boxes_updateBox]
      exact Keyed.mem_update_self (fun b : Box => b.renew info i) ha
    · refine ⟨a, ?_, Or.inl rfl⟩
      rw [boxes_updateBox]
      exact Keyed.mem_update_of_ne (fun b : Box => b.renew info i) ha same
  former j mem := by
    rw [keys_updateBox] at mem
    exact Or.inl mem
  next := Nat.le_of_eq (Arena.next_update ..).symm
  blanks := by
    rw [Scene.blanks, boxes_updateBox]
    refine Keyed.filter_update (p := fun a : Box => a.handle.isNone)
      (f := fun b => b.renew info i) fun a ha => ?_
    obtain rfl := Keyed.eq_of_mem regular.boxes ha mem
    have named' : (a.renew info i).handle = some h := named
    simp [named, named']

theorem advances_addBox (regular : s.Regular) (named : b.handle = some h) :
    Advances l s (s.addBox b).2 where
  boxes k a mem := by
    refine ⟨a, ?_, Or.inl rfl⟩
    rw [boxes_addBox regular.boxOrder]
    exact List.mem_append_left _ mem
  former k mem := by
    rw [boxes_addBox regular.boxOrder, Keyed.keys_append, List.mem_append] at mem
    refine mem.imp_right fun new => ?_
    exact Nat.le_of_eq (List.mem_singleton.1 new).symm
  next := by
    rw [nextBox_addBox]
    exact Nat.le_succ _
  blanks := by
    simp [Scene.blanks, boxes_addBox regular.boxOrder, named]

theorem Regular.advances_showNode (regular : s.Regular) (report : SyncReport) (e : NodeEntry) :
    Advances l s (Scene.showNode l (s, report) e).1 := by
  simp only [Scene.showNode]
  split
  · exact .refl l s
  · next info known =>
    split
    · next k owner =>
      obtain ⟨b, mem, named⟩ := mem_of_ownerOf? owner
      exact (advances_updateBox regular mem named known e.index).raise k
    · exact (advances_addBox regular rfl).raise _

theorem WellFormed.showNode (wf : s.WellFormed) (report : SyncReport) (e : NodeEntry) :
    (Scene.showNode l (s, report) e).1.WellFormed := by
  obtain ⟨regular, distinct⟩ := wellFormed_iff.1 wf
  refine wellFormed_iff.2 ⟨regular.showNode report e, ?_⟩
  simp only [Scene.showNode]
  split
  · exact distinct
  · next info known =>
    split
    · next k owner =>
      have same : (s.updateBox k fun b => { b.refresh info with index := some e.index }).handles
          = s.handles := handles_updateBox fun _ => rfl
      rw [Scene.handles, boxes_raise, ← Scene.handles, same]
      exact distinct
    · next fresh =>
      have added : (s.boxes ++ [(s.nextBox, Box.ofInfo e.handle info e.index)]).filterMap
          (·.2.handle) = s.handles ++ [e.handle] := by
        simp [Scene.handles, Box.ofInfo, Box.fitJacks, Box.layoutJacks, Box.resizeGroups]
      rw [Scene.handles, boxes_raise, boxes_addBox regular.boxOrder]
      refine added ▸ distinct.append (List.nodup_singleton _) ?_
      intro g hg same
      obtain ⟨f, hf, named⟩ := List.mem_filterMap.1 hg
      rw [List.mem_singleton.1 same] at named
      exact ownerOf?_eq_none.1 fresh f hf named

theorem WellFormed.advances (wf : s.WellFormed) (l : Listing) (report : SyncReport) :
    (Scene.showNodes l (s, report)).1.WellFormed ∧
      Advances l s (Scene.showNodes l (s, report)).1 := by
  rw [showNodes]
  refine List.foldlRecOn (motive := fun state : Scene × SyncReport => state.1.WellFormed ∧
    Advances l s state.1) _ _ ⟨wf, .refl l s⟩ ?_
  rintro ⟨t, report⟩ ⟨wft, advances⟩ e -
  exact ⟨wft.showNode report e,
    advances.trans ((wellFormed_iff.1 wft).1.advances_showNode report e)⟩

theorem WellFormed.blanks_sortBoxes (wf : s.WellFormed) : s.sortBoxes.blanks = s.blanks := by
  have unplaced {bs : Keyed Box} (sub : ∀ e ∈ bs, e ∈ s.boxes) :
      bs.filter (·.2.handle.isNone) = (bs.filter (·.2.index.isNone)).filter (·.2.handle.isNone) := by
    rw [List.filter_filter]
    refine List.filter_congr fun e he => ?_
    cases named : e.2.handle with
    | none => simp [wf.unplaced e (sub e he) named]
    | some h => simp
  rw [Scene.blanks, unplaced fun e he => mem_sortBoxes.1 he, filter_sortBoxes wf.boxOrder,
    ← unplaced fun _ he => he, Scene.blanks]

theorem cables_prune_eq (l : Listing) (s : Scene) : (s.prune l).cables
    = s.cables.filter fun x => (s.prune l).isWired x.2 && l.hasWire x.2.handle := by
  have same : (dropStaleBoxes l (s.keepCables fun c => l.hasWire c.handle)).cableArena
      = (s.keepCables fun c => l.hasWire c.handle).cableArena := cableArena_foldl_removeBox _ _
  have wired (x : Cable) : (s.prune l).isWired x
      = (dropStaleBoxes l (s.keepCables fun c => l.hasWire c.handle)).isWired x :=
    isWired_congr (boxArena_keepCables _ _) x
  simp only [wired]
  rw [prune, dropOrphans, cables_keepCables, cables_congr same, cables_keepCables,
    List.filter_filter]

theorem WellFormed.prune (wf : s.WellFormed) (l : Listing) : (s.prune l).WellFormed := by
  obtain ⟨regular, distinct⟩ := wellFormed_iff.1 wf
  have boxes : (s.prune l).boxes.Sublist s.boxes := by
    rw [boxes_prune]
    exact List.filter_sublist
  exact wellFormed_iff.2 ⟨regular.prune l, distinct.sublist (boxes.filterMap _)⟩

theorem Advances.isSome_jack? (advances : Advances l (s.prune l) t) (wf : s.WellFormed)
    (exact : t.boxArena.Exact)
    (before : (s.jack? ref).isSome = true) (after : (t.jack? ref).isSome = true) :
    ((s.prune l).jack? ref).isSome = true := by
  obtain ⟨p, hp⟩ := Option.isSome_iff_exists.1 before
  obtain ⟨b, hb, jack⟩ := Option.bind_eq_some_iff.1 hp
  obtain ⟨p', hp'⟩ := Option.isSome_iff_exists.1 after
  obtain ⟨b', hb', -⟩ := Option.bind_eq_some_iff.1 hp'
  have was := mem_boxes wf.boxOrder hb
  have low := lt_nextBox (Keyed.mem_keys_of_mem was)
  rcases advances.former _ (Keyed.mem_keys_of_mem (mem_boxes exact hb')) with old | new
  · obtain ⟨⟨k, a⟩, ha, same⟩ := List.mem_map.1 old
    obtain rfl : k = ref.box := same
    have there : (ref.box, a) ∈ s.boxes := (List.mem_filter.1 (boxes_prune l s ▸ ha)).1
    obtain rfl := Keyed.eq_of_mem wf.boxes there was
    rw [jack?, box?_of_mem ha, Option.bind_some, jack]
    rfl
  · rw [nextBox_prune] at new
    exact absurd low (Nat.not_lt.2 new)

theorem Advances.terminal (advances : Advances l (s.prune l) t)
    (terminal : Terminal s.boxes g side i ref) (offers : l.Offers g side i) :
    Terminal t.boxes g side i ref := by
  obtain ⟨k, b, mem, named, hlt, rfl⟩ := terminal
  have live : (k, b) ∈ (s.prune l).boxes := by
    rw [boxes_prune]
    exact List.mem_filter.2 ⟨mem, by simp [isLive, named, offers.1]⟩
  obtain ⟨b', mem', follows⟩ := advances.boxes k b live
  refine ⟨k, b', mem', follows.handle.trans named, ?_, rfl⟩
  rcases follows with rfl | ⟨h, info, j, named', known, rfl⟩
  · exact hlt
  · obtain rfl : g = h := Option.some.inj (named.symm.trans named')
    rw [(b.steady_renew info j).length]
    exact offers.2 info known

/-- How a scene is reconciled: `t` is what it is once the nodes are shown. -/
structure Passes (l : Listing) (s t : Scene) (report : SyncReport) : Prop where
  shown : t = (showNodes l (s.prune l, {})).1
  wf : t.WellFormed
  advances : Advances l (s.prune l) t
  cables : t.cableArena = (s.prune l).cableArena
  wiring : Wiring l t.sortBoxes.boxArena t.sortBoxes.dropOrphans
  owns : Owns t.ownerOf? t.sortBoxes.dropOrphans.boxes
  reconcile : s.reconcile l = showWires l t.ownerOf? (t.sortBoxes.dropOrphans, report)

theorem WellFormed.passes (wf : s.WellFormed) (l : Listing) :
    ∃ t report, Passes l s t report := by
  obtain ⟨wft, advances⟩ := (wf.prune l).advances l {}
  have cables := cableArena_showNodes l (s.prune l, {})
  obtain ⟨report, -, reconcile⟩ := reconcile_of_showNodes (s := s) (l := l) rfl
  have wiring := wf.wiring cables
  refine ⟨_, report, rfl, wft, advances, cables, wiring, ?_, reconcile⟩
  intro g k
  rw [boxes_congr wiring.boxes]
  simp only [mem_sortBoxes]
  exact wft.owns g k

theorem Passes.names {report : SyncReport} (passes : Passes l s t report) :
    Names t.ownerOf? t.sortBoxes.boxes :=
  boxes_congr passes.wiring.boxes ▸ passes.owns.names

theorem Passes.reconciled {report : SyncReport} (passes : Passes l s t report) :
    Wiring l t.sortBoxes.boxArena (s.reconcile l).1 := by
  rw [passes.reconcile, showWires]
  exact (passes.wiring.foldl passes.names (listed_firstWires l) (distinct_firstWires [] l.wires)
    report).1

theorem boxArena_reconcile (s : Scene) (l : Listing) :
    (s.reconcile l).1.boxArena = (showNodes l (s.prune l, {})).1.sortBoxes.boxArena := by
  generalize shown : (showNodes l (s.prune l, {})).1 = t
  obtain ⟨report, -, reconcile⟩ := reconcile_of_showNodes shown
  rw [reconcile, showWires]
  refine List.foldlRecOn (motive := fun state : Scene × SyncReport =>
    state.1.boxArena = t.sortBoxes.boxArena) _ _ (boxArena_keepCables t.sortBoxes _) ?_
  exact fun state boxes e _ => (boxArena_showWire _ _ state.1 state.2 e).trans boxes

theorem WellFormed.blanks_reconcile (wf : s.WellFormed) (l : Listing) :
    (s.reconcile l).1.blanks = s.blanks := by
  obtain ⟨t, report, passes⟩ := wf.passes l
  rw [blanks, boxes_congr (s := t.sortBoxes) passes.reconciled.boxes, ← blanks,
    passes.wf.blanks_sortBoxes, passes.advances.blanks, wf.blanks_prune]

end Scene

end Patchbay
