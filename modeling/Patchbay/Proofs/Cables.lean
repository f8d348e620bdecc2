import Patchbay.Proofs.Order

/-!
# Cables in line with wires

The first entry of each wire is drawn in turn. What one entry does is said for the cables as a
whole: keys and handles stay unique, every cable is listed and has both its jacks, an entry whose
ends are there has its cable, and the cables of other entries keep their ends.
-/

namespace Patchbay

open Keyed (keys)

namespace Scene

/-- The jack that one end of a wire names, among some boxes. -/
def Terminal (boxes : Keyed Box) (handle : Nat) (side : Side) (index : Nat) (ref : JackRef) :
    Prop :=
  ∃ k b, (k, b) ∈ boxes ∧ b.handle = some handle ∧ index < (b.jacks side).length ∧
    ref = ⟨k, side, index⟩

def Joins (boxes : Keyed Box) (c : Cable) (e : Ends) : Prop :=
  Terminal boxes e.outletOwner .outlet e.outlet c.outlet ∧
    Terminal boxes e.inletOwner .inlet e.inlet c.inlet

variable {l : Listing} {s t : Scene} {boxes : Keyed Box} {arena : Arena Box} {h g k : Nat}
  {e f : WireEntry} {c : Cable} {ref outlet inlet : JackRef}

theorem Terminal.isSome_jack? {side : Side} {index : Nat}
    (terminal : Terminal s.boxes h side index ref) : (s.jack? ref).isSome = true := by
  obtain ⟨k, b, mem, -, hlt, rfl⟩ := terminal
  rw [jack?, box?_of_mem mem]
  exact Box.isSome_jack?_iff.2 hlt

theorem isWired_congr (same : s.boxArena = t.boxArena) (c : Cable) : s.isWired c = t.isWired c := by
  simp only [isWired, jack?, box?, same]

theorem newCable_ends (s : Scene) (h : Nat) (outlet inlet : JackRef) (token : String) :
    (s.newCable h outlet inlet token).handle = h ∧
      (s.newCable h outlet inlet token).outlet = outlet ∧
      (s.newCable h outlet inlet token).inlet = inlet := by
  dsimp only [newCable]
  split <;> exact ⟨rfl, rfl, rfl⟩

theorem refreshCable_ends (c : Cable) (token : String) (start stop : Point) :
    (refreshCable c token start stop).handle = c.handle ∧
      (refreshCable c token start stop).outlet = c.outlet ∧
      (refreshCable c token start stop).inlet = c.inlet := by
  unfold refreshCable
  split <;> exact ⟨rfl, rfl, rfl⟩

/-- What holds of the cables from one entry to the next. -/
structure Wiring (l : Listing) (boxes : Arena Box) (s : Scene) : Prop where
  boxes : s.boxArena = boxes
  cables : s.cableArena.Exact
  handles : (s.cables.map (·.2.handle)).Nodup
  listed : ∀ x ∈ s.cables, l.hasWire x.2.handle = true
  wired : ∀ x ∈ s.cables, s.isWired x.2 = true

def Draws (s : Scene) (e : WireEntry) : Prop :=
  ∃ x ∈ s.cables, x.2.handle = e.handle ∧ Joins s.boxes x.2 e.ends

theorem Wiring.nodup (wiring : Wiring l arena s) : (keys s.cables).Nodup :=
  wiring.cables.nodup_keys

theorem Wiring.add (wiring : Wiring l arena s) (listed : l.hasWire c.handle = true)
    (wired : s.isWired c = true) (fresh : ∀ x ∈ s.cables, x.2.handle ≠ c.handle) :
    Wiring l arena (s.addCable c) := by
  have hcables := cables_addCable wiring.cables c
  have mem {x : Nat × Cable} (hx : x ∈ (s.addCable c).cables) :
      x ∈ s.cables ∨ x = (s.nextCable, c) := by simpa [hcables] using hx
  refine ⟨wiring.boxes, wiring.cables.insert c, ?_, ?_, ?_⟩
  · rw [hcables, List.map_append]
    apply wiring.handles.append (List.nodup_singleton _)
    intro g hg hgc
    obtain ⟨x, hx, rfl⟩ := List.mem_map.1 hg
    exact fresh x hx (by simpa using hgc)
  · intro x hx
    rcases mem hx with hx | rfl
    · exact wiring.listed x hx
    · exact listed
  · intro x hx
    rw [isWired_congr (s := s.addCable c) (t := s) rfl]
    rcases mem hx with hx | rfl
    · exact wiring.wired x hx
    · exact wired

theorem Wiring.replace (wiring : Wiring l arena s) {j : Nat} {old : Cable}
    (mem : (k, old) ∈ s.cables) (same : c.handle = old.handle) (wired : s.isWired c = true)
    (hboxes : t.boxArena = s.boxArena) (exact : t.cableArena.Exact)
    (hcables : t.cables = Keyed.replace s.cables k j c) : Wiring l arena t := by
  refine ⟨hboxes.trans wiring.boxes, exact, ?_, ?_, ?_⟩
  · rw [hcables, Keyed.map_replace (g := Cable.handle) wiring.nodup mem same]
    exact wiring.handles
  · intro x hx
    rw [hcables] at hx
    rcases Keyed.of_mem_replace hx with ⟨hx, -⟩ | rfl
    · exact wiring.listed x hx
    · rw [same]
      exact wiring.listed _ mem
  · intro x hx
    rw [isWired_congr hboxes]
    rw [hcables] at hx
    rcases Keyed.of_mem_replace hx with ⟨hx, -⟩ | rfl
    · exact wiring.wired x hx
    · exact wired

theorem Wiring.draws_replace (wiring : Wiring l arena s) {j : Nat} {old : Cable}
    (mem : (k, old) ∈ s.cables) (hboxes : t.boxArena = s.boxArena)
    (hcables : t.cables = Keyed.replace s.cables k j c) (other : f.handle ≠ old.handle)
    (draws : s.Draws f) : t.Draws f := by
  obtain ⟨⟨i, d⟩, hd, hf, joins⟩ := draws
  have ne : i ≠ k := by
    rintro rfl
    have value : d = old := Keyed.eq_of_mem wiring.nodup hd mem
    exact other (hf.symm.trans (congrArg Cable.handle value))
  refine ⟨(i, d), ?_, hf, boxes_congr hboxes ▸ joins⟩
  rw [hcables]
  exact Keyed.mem_replace_of_ne j c hd ne

def Names (owner : Nat → Option Nat) (boxes : Keyed Box) : Prop :=
  ∀ g k, owner g = some k → ∃ b, (k, b) ∈ boxes ∧ b.handle = some g

/-- A map from handles to the boxes that have them. -/
def Owns (owner : Nat → Option Nat) (boxes : Keyed Box) : Prop :=
  ∀ g k, owner g = some k ↔ ∃ b, (k, b) ∈ boxes ∧ b.handle = some g

variable {owner : Nat → Option Nat}

theorem Owns.names (owns : Owns owner boxes) : Names owner boxes := fun g k => (owns g k).1

theorem resolve?_eq_some_iff {side : Side} {index : Nat} :
    s.resolve? owner g side index = some ref ↔ ∃ k, owner g = some k ∧ ∃ b, s.box? k = some b ∧
      index < (b.jacks side).length ∧ ⟨k, side, index⟩ = ref := by
  simp only [resolve?, Option.bind_eq_bind, Option.bind_eq_some_iff, Option.ite_none_right_eq_some,
    Option.pure_def, Option.some.injEq, Box.isSome_jack?_iff]

theorem resolveEnds?_eq_some_iff {ends : Ends} : s.resolveEnds? owner ends = some (outlet, inlet) ↔
    s.resolve? owner ends.outletOwner .outlet ends.outlet = some outlet ∧
      s.resolve? owner ends.inletOwner .inlet ends.inlet = some inlet := by
  simp only [resolveEnds?, Option.bind_eq_bind, Option.bind_eq_some_iff, Option.pure_def,
    Option.some.injEq, Prod.mk.injEq]
  constructor
  · rintro ⟨o, ho, i, hi, rfl, rfl⟩
    exact ⟨ho, hi⟩
  · rintro ⟨ho, hi⟩
    exact ⟨_, ho, _, hi, rfl, rfl⟩

theorem Names.terminal (names : Names owner s.boxes) {side : Side} {index : Nat}
    (found : s.resolve? owner g side index = some ref) : Terminal s.boxes g side index ref := by
  obtain ⟨k, hk, b, hb, hlt, rfl⟩ := resolve?_eq_some_iff.1 found
  obtain ⟨b', mem, named⟩ := names g k hk
  obtain rfl : b = b' := Option.some.inj (hb.symm.trans (box?_of_mem mem))
  exact ⟨k, b, mem, named, hlt, rfl⟩

theorem Names.joins (names : Names owner s.boxes) {ends : Ends}
    (found : s.resolveEnds? owner ends = some (outlet, inlet)) :
    Terminal s.boxes ends.outletOwner .outlet ends.outlet outlet ∧
      Terminal s.boxes ends.inletOwner .inlet ends.inlet inlet := by
  obtain ⟨hout, hin⟩ := resolveEnds?_eq_some_iff.1 found
  exact ⟨names.terminal hout, names.terminal hin⟩

theorem Owns.resolve? (owns : Owns owner s.boxes) {side : Side} {index : Nat}
    (terminal : Terminal s.boxes g side index ref) :
    s.resolve? owner g side index = some ref := by
  obtain ⟨k, b, mem, named, hlt, rfl⟩ := terminal
  exact resolve?_eq_some_iff.2 ⟨k, (owns g k).2 ⟨b, mem, named⟩, b, box?_of_mem mem, hlt, rfl⟩

theorem Owns.resolveEnds? (owns : Owns owner s.boxes) {ends : Ends}
    (hout : Terminal s.boxes ends.outletOwner .outlet ends.outlet outlet)
    (hin : Terminal s.boxes ends.inletOwner .inlet ends.inlet inlet) :
    s.resolveEnds? owner ends = some (outlet, inlet) :=
  resolveEnds?_eq_some_iff.2 ⟨owns.resolve? hout, owns.resolve? hin⟩

theorem resolveEnds?_congr (same : t.boxArena = s.boxArena) (ends : Ends) :
    t.resolveEnds? owner ends = s.resolveEnds? owner ends := by
  simp only [resolveEnds?, resolve?, box?, same]

theorem mem_of_cableOf? (found : s.cableOf? h = some k) :
    ∃ c, (k, c) ∈ s.cables ∧ c.handle = h := by
  obtain ⟨x, hx, rfl⟩ := Option.map_eq_some_iff.1 found
  exact ⟨x.2, List.mem_of_find?_eq_some hx, by simpa using List.find?_some hx⟩

theorem cableOf?_eq_none : s.cableOf? h = none ↔ ∀ x ∈ s.cables, x.2.handle ≠ h := by
  simp [cableOf?]

theorem Terminal.exists_anchor {side : Side} {index : Nat}
    (terminal : Terminal s.boxes h side index ref) : ∃ p, s.anchor? ref = some p := by
  obtain ⟨k, b, mem, -, hlt, rfl⟩ := terminal
  obtain ⟨p, there⟩ := Option.isSome_iff_exists.1 (Box.isSome_jack?_iff.2 hlt)
  simp [anchor?, jackBounds?, box?_of_mem mem, there]

theorem ends?_of_anchors {start stop : Point} (ho : s.anchor? c.outlet = some start)
    (hi : s.anchor? c.inlet = some stop) : s.ends? c = some (start, stop) := by
  simp [ends?, ho, hi]

/-- What drawing an entry can come to: it is skipped, gets a new cable, gets one in the place of
the cable that it had, or keeps that one, brought up to date. -/
inductive Stroke (l : Listing) (owner : Nat → Option Nat) (s : Scene) (report : SyncReport)
    (e : WireEntry) : Scene × SyncReport → Prop
  | skipped (ends : s.resolveEnds? owner e.ends = none) :
      Stroke l owner s report e (s, { report with skipped := report.skipped + 1 })
  | added {outlet inlet : JackRef} (ends : s.resolveEnds? owner e.ends = some (outlet, inlet))
      (fresh : ∀ x ∈ s.cables, x.2.handle ≠ e.handle) :
      Stroke l owner s report e
        (s.addCable (s.newCable e.handle outlet inlet ((l.token e.handle).getD "")),
          { report with cablesAdded := report.cablesAdded + 1 })
  | replaced {outlet inlet : JackRef} {k : Nat} {c : Cable}
      (ends : s.resolveEnds? owner e.ends = some (outlet, inlet)) (mem : (k, c) ∈ s.cables)
      (named : c.handle = e.handle) (moved : c.outlet ≠ outlet ∨ c.inlet ≠ inlet) :
      Stroke l owner s report e
        (s.replaceCable k (s.newCable e.handle outlet inlet ((l.token e.handle).getD "")),
          { report with cablesReplaced := report.cablesReplaced + 1 })
  | refreshed {k : Nat} {c : Cable} {start stop : Point}
      (ends : s.resolveEnds? owner e.ends = some (c.outlet, c.inlet)) (mem : (k, c) ∈ s.cables)
      (named : c.handle = e.handle) (anchors : s.ends? c = some (start, stop)) :
      Stroke l owner s report e
        (s.updateCable k fun _ => refreshCable c ((l.token e.handle).getD "") start stop,
          if (refreshCable c ((l.token e.handle).getD "") start stop).route = c.route then report
          else { report with cablesRerouted := report.cablesRerouted + 1 })

theorem showWire_stroke (names : Names owner s.boxes) (report : SyncReport) (e : WireEntry) :
    Stroke l owner s report e (Scene.showWire l owner (s, report) e) := by
  cases hends : s.resolveEnds? owner e.ends with
  | none =>
    simp only [Scene.showWire, hends]
    exact .skipped hends
  | some ends =>
    obtain ⟨outlet, inlet⟩ := ends
    cases hcable : s.cableOf? e.handle with
    | none =>
      simp only [Scene.showWire, hends, hcable]
      exact .added hends (cableOf?_eq_none.1 hcable)
    | some key =>
      obtain ⟨c, mem, named⟩ := mem_of_cableOf? hcable
      have hc : s.cable? key = some c := cable?_of_mem mem
      by_cases moved : c.outlet ≠ outlet ∨ c.inlet ≠ inlet
      · simp only [Scene.showWire, hends, hcable, hc, if_pos moved]
        exact .replaced hends mem named moved
      · obtain ⟨rfl, rfl⟩ : c.outlet = outlet ∧ c.inlet = inlet := by
          simpa only [not_or, Decidable.not_not] using moved
        obtain ⟨hout, hin⟩ := names.joins hends
        obtain ⟨start, ho⟩ := hout.exists_anchor
        obtain ⟨stop, hi⟩ := hin.exists_anchor
        have anchors := ends?_of_anchors ho hi
        simp only [Scene.showWire, hends, hcable, hc, if_neg moved, anchors]
        exact .refreshed hends mem named anchors

/-- What drawing one entry does: the entry has its cable if its ends are there, and the cables of
other entries stay. -/
structure Drawn (l : Listing) (owner : Nat → Option Nat) (arena : Arena Box) (e : WireEntry)
    (s t : Scene) : Prop where
  wiring : Wiring l arena t
  drawn : ∀ outlet inlet, s.resolveEnds? owner e.ends = some (outlet, inlet) → t.Draws e
  kept : ∀ f : WireEntry, f.handle ≠ e.handle → s.Draws f → t.Draws f

theorem Wiring.drawn_replace (wiring : Wiring l arena s) {j : Nat} {old : Cable}
    (mem : (k, old) ∈ s.cables) (named : old.handle = e.handle) (same : c.handle = e.handle)
    (joins : Joins s.boxes c e.ends) (wired : s.isWired c = true)
    (hboxes : t.boxArena = s.boxArena) (exact : t.cableArena.Exact)
    (hcables : t.cables = Keyed.replace s.cables k j c) : Drawn l owner arena e s t := by
  refine ⟨wiring.replace mem (same.trans named.symm) wired hboxes exact hcables, ?_, ?_⟩
  · intro _ _ _
    refine ⟨(j, c), ?_, same, boxes_congr hboxes ▸ joins⟩
    rw [hcables]
    exact Keyed.mem_replace_self j c mem
  · intro f other
    exact wiring.draws_replace mem hboxes hcables (named ▸ other)

theorem Wiring.showWire (wiring : Wiring l arena s) (names : Names owner arena.entries)
    (listed : l.hasWire e.handle = true) (report : SyncReport) :
    Drawn l owner arena e s (Scene.showWire l owner (s, report) e).1 := by
  obtain rfl := wiring.boxes
  have names : Names owner s.boxes := names
  have joins {outlet inlet : JackRef} {d : Cable}
      (found : s.resolveEnds? owner e.ends = some (outlet, inlet)) (ho : d.outlet = outlet)
      (hi : d.inlet = inlet) : Joins s.boxes d e.ends ∧ s.isWired d = true := by
    obtain ⟨hout, hin⟩ := names.joins found
    refine ⟨⟨ho ▸ hout, hi ▸ hin⟩, ?_⟩
    simp only [isWired, ho, hi, hout.isSome_jack?, hin.isSome_jack?, Bool.and_self]
  have stroke := showWire_stroke (l := l) names report e
  generalize Scene.showWire l owner (s, report) e = result at stroke ⊢
  cases stroke with
  | skipped ends =>
    exact ⟨wiring, fun _ _ found => absurd (ends.symm.trans found) (by simp), fun _ _ kept => kept⟩
  | @added outlet inlet ends fresh =>
    obtain ⟨hhandle, houtlet, hinlet⟩ :=
      newCable_ends s e.handle outlet inlet ((l.token e.handle).getD "")
    obtain ⟨hjoins, hwired⟩ := joins ends houtlet hinlet
    have hcables := cables_addCable wiring.cables
      (s.newCable e.handle outlet inlet ((l.token e.handle).getD ""))
    refine ⟨wiring.add (hhandle.symm ▸ listed) hwired (hhandle.symm ▸ fresh), ?_, ?_⟩
    · intro _ _ _
      refine ⟨(s.nextCable, s.newCable e.handle outlet inlet ((l.token e.handle).getD "")), ?_,
        hhandle, hjoins⟩
      rw [hcables]
      exact List.mem_append_right _ (List.mem_singleton_self _)
    · rintro f - ⟨x, hx, hf, hjoins⟩
      refine ⟨x, ?_, hf, hjoins⟩
      rw [hcables]
      exact List.mem_append_left _ hx
  | @replaced outlet inlet k c ends mem named moved =>
    obtain ⟨hhandle, houtlet, hinlet⟩ :=
      newCable_ends s e.handle outlet inlet ((l.token e.handle).getD "")
    obtain ⟨hjoins, hwired⟩ := joins ends houtlet hinlet
    have found := cable?_of_mem mem
    exact wiring.drawn_replace mem named hhandle hjoins hwired rfl
      (wiring.cables.replace found _) (cables_replaceCable wiring.cables found _)
  | @refreshed k c start stop ends mem named anchors =>
    obtain ⟨hhandle, houtlet, hinlet⟩ :=
      refreshCable_ends c ((l.token e.handle).getD "") start stop
    obtain ⟨hjoins, hwired⟩ := joins ends houtlet hinlet
    exact wiring.drawn_replace mem named (hhandle.trans named) hjoins hwired rfl
      (wiring.cables.update k _) ((cables_updateCable s k _).trans (Keyed.update_const _ _ _))

theorem Wiring.foldl {es : List WireEntry} (wiring : Wiring l arena s)
    (names : Names owner arena.entries) (listed : ∀ e ∈ es, l.hasWire e.handle = true)
    (distinct : (es.map (·.handle)).Nodup) (report : SyncReport) :
    Wiring l arena (es.foldl (Scene.showWire l owner) (s, report)).1 ∧
      (∀ e ∈ es, ∀ outlet inlet, s.resolveEnds? owner e.ends = some (outlet, inlet) →
        (es.foldl (Scene.showWire l owner) (s, report)).1.Draws e) ∧
      ∀ f : WireEntry, (∀ e ∈ es, f.handle ≠ e.handle) → s.Draws f →
        (es.foldl (Scene.showWire l owner) (s, report)).1.Draws f := by
  induction es generalizing s report with
  | nil => exact ⟨wiring, fun e he => absurd he List.not_mem_nil, fun f _ draws => draws⟩
  | cons e es ih =>
    obtain ⟨hlisted, hrest⟩ := List.forall_mem_cons.1 listed
    rw [List.map_cons, List.nodup_cons] at distinct
    have step := wiring.showWire names hlisted report
    generalize hstep : Scene.showWire l owner (s, report) e = t at step
    obtain ⟨t, report'⟩ := t
    obtain ⟨hwiring, hdraws, hkept⟩ := ih step.wiring hrest distinct.2 report'
    rw [List.foldl_cons, hstep]
    refine ⟨hwiring, ?_, ?_⟩
    · intro f hf outlet inlet ends
      rcases List.mem_cons.1 hf with rfl | hf
      · refine hkept f (fun g hg same => distinct.1 (same ▸ List.mem_map_of_mem hg)) ?_
        exact step.drawn outlet inlet ends
      · rw [← resolveEnds?_congr (step.wiring.boxes.trans wiring.boxes.symm)] at ends
        exact hdraws f hf outlet inlet ends
    · intro f other draws
      obtain ⟨hne, hothers⟩ := List.forall_mem_cons.1 other
      exact hkept f hothers (step.kept f hne draws)

theorem mem_firstWires {seen : List Nat} {es : List WireEntry} :
    e ∈ Listing.firstWires seen es ↔
      e.handle ∉ seen ∧ es.find? (·.handle == e.handle) = some e := by
  induction es generalizing seen with
  | nil => simp [Listing.firstWires]
  | cons f es ih =>
    rw [Listing.firstWires]
    by_cases same : f.handle = e.handle
    · have hfind : (f :: es).find? (·.handle == e.handle) = some f := by simp [same]
      rw [hfind, same]
      by_cases old : e.handle ∈ seen
      · simp [old, ih]
      · simp [old, ih, eq_comm]
    · have hfind : (f :: es).find? (·.handle == e.handle) = es.find? (·.handle == e.handle) := by
        simp [same]
      have hne : e ≠ f := fun h => same (h ▸ rfl)
      rw [hfind]
      by_cases old : f.handle ∈ seen
      · simp [old, ih]
      · simp [old, ih, hne, Ne.symm same]

theorem listed_firstWires (l : Listing) :
    ∀ e ∈ Listing.firstWires [] l.wires, l.hasWire e.handle = true := by
  intro e he
  have hfind := (mem_firstWires.1 he).2
  exact List.any_eq_true.2 ⟨e, List.mem_of_find?_eq_some hfind, by simp⟩

theorem distinct_firstWires (seen : List Nat) (es : List WireEntry) :
    ((Listing.firstWires seen es).map (·.handle)).Nodup := by
  induction es generalizing seen with
  | nil => exact List.nodup_nil
  | cons e es ih =>
    rw [Listing.firstWires]
    split
    · exact ih seen
    · rw [List.map_cons, List.nodup_cons]
      refine ⟨?_, ih _⟩
      intro hmem
      obtain ⟨f, hf, same⟩ := List.mem_map.1 hmem
      exact (mem_firstWires.1 hf).1 (same ▸ List.mem_cons_self)

end Scene

end Patchbay
