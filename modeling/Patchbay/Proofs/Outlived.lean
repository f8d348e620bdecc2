import Patchbay.Proofs.Identity
import Patchbay.Proofs.Intact

/-!
# Cables that outlive their wires

Where the first wire with its handle resolves, a cable goes as that wire does. A wire that does not
resolve is passed over, and the cable that it had stays as it was, for as long as its own jacks are
there. Such cables, and no others, show what the document does not have.
-/

namespace Patchbay

open Keyed (keys)

namespace Scene

/-- A cable goes between the jacks that the first wire with its handle names. -/
def Portrays (c : Contents) (s : Scene) (x : Cable) : Prop :=
  ∃ w, c.wire? x.handle = some w ∧ Joins s.boxes x w.ends

/-- A jack is there and stays: its box is being typed, or the node of its box has as many jacks. -/
def Stays (c : Contents) (s : Scene) (ref : JackRef) : Prop :=
  ∃ b, s.box? ref.box = some b ∧ ref.index < (b.jacks ref.side).length ∧
    ∀ h, b.handle = some h → ∃ n, c.node? h = some n ∧ ref.index < (n.info.signals ref.side).length

/-- The first wire with the handle of a cable does not resolve, but the jacks of the cable stay. -/
structure Outlives (c : Contents) (s : Scene) (x : Cable) : Prop where
  unresolved : ∃ w, c.wire? x.handle = some w ∧ ¬c.Resolves w.ends
  outlet : s.Stays c x.outlet
  inlet : s.Stays c x.inlet

variable {c : Contents} {s t : Scene} {blanks : Keyed Box} {ref : JackRef} {x : Nat × Cable}
  {report : SyncReport} {w : Wire}

theorem Staged.node {b : Box} {h k : Nat} (staged : Staged c.nodes blanks c.nodes.length s)
    (nodup : (keys c.nodes).Nodup) (mem : (k, b) ∈ s.boxes) (named : b.handle = some h) :
    ∃ n, c.node? h = some n ∧ ∀ side, (b.jacks side).length = (n.info.signals side).length := by
  obtain ⟨j, n, hj, shows⟩ := staged.shows mem named
  refine ⟨n, Keyed.get?_of_mem nodup (List.mem_of_getElem? hj), fun side => ?_⟩
  cases side with
  | inlet => exact shows.length_inlets
  | outlet => exact shows.length_outlets

theorem Staged.resolves (staged : Staged c.nodes blanks c.nodes.length s)
    (nodup : (keys c.nodes).Nodup) {ends : Ends} {outlet inlet : JackRef}
    (hout : Terminal s.boxes ends.outletOwner .outlet ends.outlet outlet)
    (hin : Terminal s.boxes ends.inletOwner .inlet ends.inlet inlet) : c.Resolves ends := by
  obtain ⟨k, b, mem, named, hlt, -⟩ := hout
  obtain ⟨k', b', mem', named', hlt', -⟩ := hin
  obtain ⟨n, there, length⟩ := staged.node nodup mem named
  obtain ⟨n', there', length'⟩ := staged.node nodup mem' named'
  rw [length] at hlt
  rw [length'] at hlt'
  exact ⟨⟨n, there, hlt⟩, n', there', hlt'⟩

theorem hasWire_of_wire? {h : Nat} (first : c.wire? h = some w) :
    c.listing.hasWire h = true := by
  have named := List.find?_some first
  exact List.any_eq_true.2
    ⟨⟨w.handle, w.ends⟩, List.mem_map.2 ⟨w, List.mem_of_find?_eq_some first, rfl⟩, named⟩

theorem terminal_perm {bs bs' : Keyed Box} (perm : bs.Perm bs') {g i : Nat} {side : Side}
    (terminal : Terminal bs g side i ref) : Terminal bs' g side i ref := by
  obtain ⟨k, b, mem, rest⟩ := terminal
  exact ⟨k, b, perm.mem_iff.1 mem, rest⟩

theorem WellFormed.stays_iff (wf : s.WellFormed) (advances : Advances c.listing (s.prune c.listing) t)
    (staged : Staged c.nodes blanks c.nodes.length t) (nodup : (keys c.nodes).Nodup) :
    ((s.prune c.listing).jack? ref).isSome = true ∧ (t.jack? ref).isSome = true ↔ s.Stays c ref := by
  have pruned := boxes_prune c.listing s
  rw [isSome_jack?_iff, isSome_jack?_iff]
  constructor
  · rintro ⟨⟨b, found, hlt⟩, b', found', hlt'⟩
    have mem := mem_boxes (wf.prune _).boxOrder found
    obtain ⟨there, -⟩ := List.mem_filter.1 (pruned ▸ mem)
    refine ⟨b, box?_of_mem there, hlt, fun h named => ?_⟩
    obtain ⟨a, ha, follows⟩ := advances.boxes _ _ mem
    obtain rfl := Option.some.inj ((box?_of_mem ha).symm.trans found')
    obtain ⟨n, hn, length⟩ := staged.node nodup ha (follows.handle.trans named)
    exact ⟨n, hn, length ref.side ▸ hlt'⟩
  · rintro ⟨b, found, hlt, shown⟩
    have mem := mem_boxes wf.boxOrder found
    have live : (ref.box, b) ∈ (s.prune c.listing).boxes := by
      refine pruned ▸ List.mem_filter.2 ⟨mem, ?_⟩
      cases named : b.handle with
      | none =>
        have typed : b.editing = true := (wf.editing _ mem).2 named
        simp [isLive, typed]
      | some h =>
        obtain ⟨n, hn, -⟩ := shown h named
        simp [isLive, named, hasNode_listing.2 (Keyed.mem_keys_of_mem (Keyed.mem_of_get? hn))]
    obtain ⟨a, ha, follows⟩ := advances.boxes _ _ live
    refine ⟨⟨b, box?_of_mem live, hlt⟩, a, box?_of_mem ha, ?_⟩
    cases named : b.handle with
    | none =>
      rcases follows with rfl | ⟨h, -, -, named', -⟩
      · exact hlt
      · exact absurd (named.symm.trans named') (by simp)
    | some h =>
      obtain ⟨n, hn, more⟩ := shown h named
      obtain ⟨n', hn', length⟩ := staged.node nodup ha (follows.handle.trans named)
      obtain rfl : n = n' := Option.some.inj (hn.symm.trans hn')
      exact length ref.side ▸ more

theorem Passes.staged (passes : Passes c.listing s t report) (wf : s.WellFormed)
    (nodup : (keys c.nodes).Nodup) : Staged c.nodes s.blanks c.nodes.length t :=
  passes.shown ▸ (wf.staged c).showNodes nodup {}

theorem Passes.resolves_iff (passes : Passes c.listing s t report) (wf : s.WellFormed)
    (nodup : (keys c.nodes).Nodup) (ends : Ends) : c.Resolves ends ↔
      (t.sortBoxes.dropOrphans.resolveEnds? t.ownerOf? ends).isSome = true := by
  have staged := passes.staged wf nodup
  have same : t.sortBoxes.dropOrphans.boxes = t.sortBoxes.boxes := boxes_congr passes.wiring.boxes
  constructor
  · intro resolves
    obtain ⟨outlet, inlet, hout, hin⟩ := staged.terminals resolves
    exact Option.isSome_iff_exists.2 ⟨_, passes.owns.resolveEnds? (same ▸ hout) (same ▸ hin)⟩
  · intro found
    have sorted : t.sortBoxes.dropOrphans.boxes.Perm t.boxes := same ▸ perm_sortBoxes t
    obtain ⟨⟨outlet, inlet⟩, found⟩ := Option.isSome_iff_exists.1 found
    obtain ⟨hout, hin⟩ := passes.owns.names.joins found
    exact staged.resolves nodup (terminal_perm sorted hout) (terminal_perm sorted hin)

theorem Passes.mem_left_iff (passes : Passes c.listing s t report) (wf : s.WellFormed)
    (nodup : (keys c.nodes).Nodup) : x ∈ t.sortBoxes.dropOrphans.cables ↔
      x ∈ s.cables ∧ c.listing.hasWire x.2.handle = true ∧ s.Stays c x.2.outlet ∧
        s.Stays c x.2.inlet := by
  have staged := passes.staged wf nodup
  have jacks (ref : JackRef) : t.sortBoxes.jack? ref = t.jack? ref := by
    rw [jack?, box?_sortBoxes, jack?]
  rw [dropOrphans, cables_keepCables, cables_congr (t := t.sortBoxes) passes.cables,
    ← wf.stays_iff passes.advances staged nodup,
    ← wf.stays_iff passes.advances staged nodup, List.mem_filter, cables_prune_eq,
    List.mem_filter]
  simp only [isWired, jacks, Bool.and_eq_true]
  constructor
  · rintro ⟨⟨there, ⟨out, into⟩, known⟩, out', into'⟩
    exact ⟨there, known, ⟨out, out'⟩, into, into'⟩
  · rintro ⟨there, known, ⟨out, out'⟩, into, into'⟩
    exact ⟨⟨there, ⟨out, into⟩, known⟩, out', into'⟩

/-- A wire that does not resolve is passed over, so its cable is left as it was. -/
theorem Passes.mem_of_lost (passes : Passes c.listing s t report) (wf : s.WellFormed)
    (nodup : (keys c.nodes).Nodup) (first : c.wire? x.2.handle = some w) (lost : ¬c.Resolves w.ends) :
    x ∈ (s.reconcile c.listing).1.cables ↔ x ∈ t.sortBoxes.dropOrphans.cables := by
  have redrawn := passes.wiring.redrawn passes.names
    (listed_firstWires c.listing) (distinct_firstWires [] c.listing.wires) report
  rw [passes.reconcile, showWires]
  refine redrawn.others x fun e he same => ?_
  obtain ⟨v, hv, ends, -⟩ := wire?_of_firstWires he
  obtain rfl : v = w := Option.some.inj (hv.symm.trans (same ▸ first))
  rw [← ends, ← Option.not_isSome_iff_eq_none, ← passes.resolves_iff wf nodup]
  exact lost

theorem Passes.joins_of_resolves (passes : Passes c.listing s t report) (wf : s.WellFormed)
    (nodup : (keys c.nodes).Nodup) (first : c.wire? x.2.handle = some w) (resolves : c.Resolves w.ends)
    (there : x ∈ (s.reconcile c.listing).1.cables) :
    Joins (s.reconcile c.listing).1.boxes x.2 w.ends := by
  have named : w.handle = x.2.handle := by simpa using List.find?_some first
  obtain ⟨⟨outlet, inlet⟩, ends⟩ :=
    Option.isSome_iff_exists.1 ((passes.resolves_iff wf nodup w.ends).1 resolves)
  obtain ⟨after, drawn, -⟩ := passes.wiring.foldl passes.names
    (listed_firstWires c.listing) (distinct_firstWires [] c.listing.wires) report
  rw [passes.reconcile, showWires] at there ⊢
  obtain ⟨y, hy, same, joins⟩ := drawn _ (mem_firstWires_listing (named ▸ first)) outlet inlet ends
  obtain rfl : y = x := List.inj_on_of_nodup_map after.handles hy there (same.trans named)
  exact joins

theorem WellFormed.portrays (wf : s.WellFormed) (nodup : (keys c.nodes).Nodup) (x : Nat × Cable) :
    x ∈ (s.reconcile c.listing).1.cables ∧ ¬(s.reconcile c.listing).1.Portrays c x.2 ↔
      x ∈ s.cables ∧ s.Outlives c x.2 := by
  obtain ⟨t, report, passes⟩ := wf.passes c.listing
  constructor
  · rintro ⟨there, false⟩
    obtain ⟨e, he, named⟩ := exists_firstWire (passes.reconciled.listed x there)
    obtain ⟨w, first, -⟩ := wire?_of_firstWires he
    rw [named] at first
    have lost : ¬c.Resolves w.ends := fun resolves =>
      false ⟨w, first, passes.joins_of_resolves wf nodup first resolves there⟩
    obtain ⟨before, -, outlet, inlet⟩ := (passes.mem_left_iff wf nodup).1
      ((passes.mem_of_lost wf nodup first lost).1 there)
    exact ⟨before, ⟨w, first, lost⟩, outlet, inlet⟩
  · rintro ⟨before, ⟨w, first, lost⟩, outlet, inlet⟩
    refine ⟨(passes.mem_of_lost wf nodup first lost).2 ?_, ?_⟩
    · exact (passes.mem_left_iff wf nodup).2 ⟨before, hasWire_of_wire? first, outlet, inlet⟩
    · rintro ⟨v, first', hout, hin⟩
      obtain rfl : v = w := Option.some.inj (first'.symm.trans first)
      have perm : (s.reconcile c.listing).1.boxes.Perm t.boxes :=
        boxes_congr (s := t.sortBoxes) passes.reconciled.boxes ▸ perm_sortBoxes t
      exact lost ((passes.staged wf nodup).resolves nodup (terminal_perm perm hout)
        (terminal_perm perm hin))

/-- Reconciled with a document, a scene shows wiring that the document does not have by just those
cables, as they were, that outlive their wires. -/
theorem reconcile_portrays (s : Scene) (wf : s.WellFormed) (p : Patch) (nodup : (keys p.nodes).Nodup) :
    let u := (s.reconcile (Document.listing (Document.deliver (Document.deliver p)))).1
    (∀ x, x ∈ u.cables ∧ ¬u.Portrays p.toContents x.2 ↔
      x ∈ s.cables ∧ s.Outlives p.toContents x.2) ∧
    ((∀ x ∈ u.cables, u.Portrays p.toContents x.2) ↔
      ∀ x ∈ s.cables, ¬s.Outlives p.toContents x.2) := by
  have exact_iff (x : Nat × Cable) := wf.portrays (c := p.toContents) nodup x
  refine ⟨exact_iff, fun all x hx outlives => ?_, fun none x hx => ?_⟩
  · obtain ⟨there, false⟩ := (exact_iff x).2 ⟨hx, outlives⟩
    exact false (all x there)
  · by_contra false
    obtain ⟨before, outlives⟩ := (exact_iff x).1 ⟨hx, false⟩
    exact none x before outlives

end Scene

namespace Patch

/-- Three wires from one outlet to three inlets. -/
def plugged : Patch where
  nodes := [(1, ⟨"osc~", ⟨0, 0, 40, 20⟩, [], [true]⟩),
    (2, ⟨"dac~", ⟨0, 100, 80, 20⟩, [true, true, true], []⟩)]
  wires := [⟨3, ⟨1, 0, 2, 0⟩, ""⟩, ⟨4, ⟨1, 0, 2, 1⟩, ""⟩, ⟨5, ⟨1, 0, 2, 2⟩, ""⟩]
  next := 6

/-- The third inlet is gone, the second wire goes to the first inlet, and the others go to one that was
never there. -/
def unplugged : Patch where
  nodes := [(1, ⟨"osc~", ⟨0, 0, 40, 20⟩, [], [true]⟩),
    (2, ⟨"dac~", ⟨0, 100, 80, 20⟩, [true, true], []⟩)]
  wires := [⟨3, ⟨1, 0, 2, 5⟩, ""⟩, ⟨4, ⟨1, 0, 2, 0⟩, ""⟩, ⟨5, ⟨1, 0, 2, 5⟩, ""⟩]
  next := 6

end Patch

namespace Scene

open Patch (plugged unplugged)

theorem wellFormed_plugged : (reconcile plugged.listing {}).1.WellFormed :=
  wellFormed_empty.reconcile (c := plugged.toContents) (by decide)

/-- Of three cables one stays with a wire that goes elsewhere, one goes along, and one is dropped. -/
theorem reconcile_portrays_unplugged :
    let s := (reconcile plugged.listing {}).1
    let u := (s.reconcile (Document.listing (Document.deliver (Document.deliver unplugged)))).1
    s.WellFormed ∧ (keys unplugged.nodes).Nodup ∧
      s.cables.map (fun x => (x.1, x.2.handle, x.2.inlet.index)) = [(1, 3, 0), (2, 4, 1), (3, 5, 2)] ∧
      u.cables.map (fun x => (x.1, x.2.handle, x.2.inlet.index)) = [(1, 3, 0), (4, 4, 0)] ∧
      (∀ x, x ∈ u.cables ∧ ¬u.Portrays unplugged.toContents x.2 ↔
        x ∈ s.cables ∧ s.Outlives unplugged.toContents x.2) ∧
      ((∀ x ∈ u.cables, u.Portrays unplugged.toContents x.2) ↔
        ∀ x ∈ s.cables, ¬s.Outlives unplugged.toContents x.2) := by
  have nodup : (keys unplugged.nodes).Nodup := by decide
  exact ⟨wellFormed_plugged, nodup, by decide +kernel, by decide +kernel,
    reconcile_portrays _ wellFormed_plugged unplugged nodup⟩

/-- The first wire goes to an inlet that is not there, and its cable goes on to the one where it was. -/
theorem reconcile_misportrays : ¬ ∀ s : Scene, s.WellFormed → ∀ p : Patch, (keys p.nodes).Nodup →
    let u := (s.reconcile (Document.listing (Document.deliver (Document.deliver p)))).1
    ∀ x ∈ u.cables, u.Portrays p.toContents x.2 := by
  intro always
  have portrays := always _ wellFormed_plugged unplugged (by decide)
  have kept : ∃ x ∈ ((reconcile plugged.listing {}).1.reconcile unplugged.listing).1.cables,
      x.2.handle = 3 ∧ x.2.inlet.index = 0 := by
    decide +kernel
  obtain ⟨x, there, named, index⟩ := kept
  obtain ⟨w, first, -, k, b, -, -, -, inlet⟩ := portrays x there
  have goes : unplugged.wire? 3 = some ⟨3, ⟨1, 0, 2, 5⟩, ""⟩ := rfl
  rw [named, goes] at first
  obtain rfl := Option.some.inj first
  have fifth : 5 = 0 := (congrArg JackRef.index inlet).symm.trans index
  exact absurd fifth (by decide)

end Scene

end Patchbay
