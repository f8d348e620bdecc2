import Patchbay.Proofs.Passes
import Patchbay.Proofs.Rewired

/-!
# Cables that a pass finds again

A cable that joins what its wire joins is drawn over itself: a token that is new to it is taken on,
and otherwise its route is only brought to its anchors.
-/

namespace Patchbay.Scene

open Keyed (keys)

variable {c : Contents} {l : Listing} {s t u : Scene} {owner : Nat → Option Nat} {w : Wire}
  {e : WireEntry} {a b : Point} {h i : Nat} {side : Side} {report : SyncReport}
  {x y : Nat × Cable} {token : String} {outlet inlet : JackRef} {old : Keyed Cable}

theorem offers_of_site? (nodup : (keys c.nodes).Nodup)
    (there : site? (boxesOf c.nodes) h side i = some a) : c.listing.Offers h side i := by
  obtain ⟨fs, known, hlt⟩ := (isSome_site?_boxesOf nodup).1 (Option.isSome_iff_exists.2 ⟨a, there⟩)
  obtain ⟨n, hn, rfl⟩ := Option.map_eq_some_iff.1 known
  refine ⟨hasNode_listing.2 (Keyed.mem_keys_of_mem (Keyed.mem_of_get? hn)), fun info found => ?_⟩
  have same : c.listing.info h = some n.info := by
    simp only [Contents.listing, Contents.node?, hn, Option.map_some]
  obtain rfl := Option.some.inj (same.symm.trans found)
  exact hlt

theorem Passes.mem_dropOrphans (passes : Passes l s t report) (hx : x ∈ s.cables)
    {ends : Ends} (joins : Joins s.boxes x.2 ends)
    (listed : l.hasWire x.2.handle = true) (out : l.Offers ends.outletOwner .outlet ends.outlet)
    (into : l.Offers ends.inletOwner .inlet ends.inlet) :
    x ∈ t.sortBoxes.dropOrphans.cables ∧ Joins t.sortBoxes.dropOrphans.boxes x.2 ends := by
  have stays {r : Scene} (advances : Advances l (s.prune l) r) : Joins r.boxes x.2 ends :=
    ⟨advances.terminal joins.1 out, advances.terminal joins.2 into⟩
  have wired {r : Scene} (joins : Joins r.boxes x.2 ends) : r.isWired x.2 = true := by
    simp [isWired, joins.1.isSome_jack?, joins.2.isSome_jack?]
  have sorted : Joins t.sortBoxes.boxes x.2 ends := by
    obtain ⟨⟨k, b, mem, rest⟩, k', b', mem', rest'⟩ := stays passes.advances
    exact ⟨⟨k, b, mem_sortBoxes.2 mem, rest⟩, k', b', mem_sortBoxes.2 mem', rest'⟩
  have boxes : t.sortBoxes.dropOrphans.boxes = t.sortBoxes.boxes := boxes_congr passes.wiring.boxes
  refine ⟨?_, boxes ▸ sorted⟩
  rw [dropOrphans, cables_keepCables, cables_congr (t := t.sortBoxes) passes.cables]
  refine List.mem_filter.2 ⟨?_, wired sorted⟩
  rw [cables_prune_eq]
  refine List.mem_filter.2 ⟨hx, ?_⟩
  rw [wired (stays (.refl l _)), listed, Bool.and_self]

theorem Draft.of_mem (draft : Draft old e token outlet inlet a b x.2)
    (nodup : (old.map (·.2.handle)).Nodup) (hy : y ∈ old) (named : y.2.handle = e.handle)
    (ends : y.2.outlet = outlet ∧ y.2.inlet = inlet) : x.2 = refreshCable y.2 token a b := by
  generalize x.2 = z at draft ⊢
  cases draft with
  | fresh new => exact absurd ends (not_and_or.2 (new y hy named))
  | @kept k d mem handle _ =>
    obtain rfl : (k, d) = y := List.inj_on_of_nodup_map nodup mem hy (handle.trans named.symm)
    rfl

theorem WellFormed.exists_refreshed (wf : s.WellFormed) (numbered : s.Numbered)
    (nodup : (keys c.nodes).Nodup)
    (hx : x ∈ s.cables) (spans : span? c (boxesOf c.nodes) x.2.handle = some (w, a, b))
    (joins : Joins s.boxes x.2 w.ends) : ∃ y ∈ (s.reconcile c.listing).1.cables,
      y.2 = refreshCable x.2 w.token a b ∧ Joins (s.reconcile c.listing).1.boxes y.2 w.ends := by
  obtain ⟨t, report, passes⟩ := wf.passes c.listing
  obtain ⟨owner, rewired⟩ := (wellFormed_iff.1 wf).1.rewired numbered nodup
  obtain ⟨e, outlet, inlet, y, hy, old, -, same, -, ha, hb, draft⟩ :=
    rewired.exists_draft nodup spans
  obtain ⟨named, houtlet, hinlet⟩ := draft.ends
  obtain ⟨hw, out, into⟩ := span?_eq_some_iff.1 spans
  have handle : w.handle = x.2.handle := by simpa using List.find?_some hw
  have entry := mem_firstWires_listing (handle ▸ hw)
  obtain ⟨former, joins⟩ := passes.mem_dropOrphans hx joins
    (handle ▸ listed_firstWires c.listing _ entry) (offers_of_site? nodup out)
    (offers_of_site? nodup into)
  have redrawn := passes.wiring.redrawn passes.names (listed_firstWires c.listing)
    (distinct_firstWires [] c.listing.wires) report
  have reconciled := congrArg Prod.fst passes.reconcile
  rw [showWires] at reconciled
  rw [← reconciled] at redrawn
  obtain ⟨start, stop, hstart, hstop, z, hz, draft'⟩ :=
    redrawn.drawn _ entry _ _ (passes.owns.resolveEnds? joins.1 joins.2)
  -- The cable of the entry is the one that the places belong to.
  obtain ⟨named', houtlet', hinlet'⟩ := draft'.ends
  obtain rfl := List.inj_on_of_nodup_map rewired.cableHandles hy hz
    (named.trans (same.trans (handle.symm.trans named'.symm)))
  have anchors := anchor?_congr redrawn.same.1
  obtain rfl : start = a := by
    rw [← houtlet', houtlet, ← anchors] at hstart
    exact Option.some.inj (hstart.symm.trans ha)
  obtain rfl : stop = b := by
    rw [← hinlet', hinlet, ← anchors] at hstop
    exact Option.some.inj (hstop.symm.trans hb)
  have token : (c.listing.token w.handle).getD "" = w.token := by
    simp [Contents.listing, handle, hw]
  rw [token] at draft'
  refine ⟨y, hy, draft'.of_mem passes.wiring.handles former handle.symm ⟨rfl, rfl⟩, ?_⟩
  rw [boxes_congr redrawn.same.1, Joins, houtlet', hinlet']
  exact joins

end Patchbay.Scene
