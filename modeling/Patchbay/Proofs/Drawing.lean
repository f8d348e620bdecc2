import Patchbay.Proofs.Entities
import Patchbay.Proofs.Pristine

/-!
# What a scene shows of a wire

Without gestures, a cable has the token of its wire, and its route goes back to that token: it is the
route that the token means at the present anchors, or it was lost at a pass over anchors that its plan
did not fit, and is straight. A cable joins what its wire joins, as long as no two wires ever had the
same handle but different ends.
-/

namespace Patchbay

open Keyed (keys)

namespace Route

variable {r : Route} {token : String} {a b : Point}

/-- A route as the token means it between two anchors, or one that was lost at others that were seen. -/
def Tracks (r : Route) (token : String) (seen : Point → Point → Prop) (a b : Point) : Prop :=
  r = (raw token).reanchor a b ∨ r = straight ∧ ∃ a b, seen a b ∧ (raw token).Misfits a b

variable {seen seen' : Point → Point → Prop}

theorem tracks_ofToken (seen : Point → Point → Prop) (token : String) (a b : Point) :
    (ofToken token a b).Tracks token seen a b :=
  Or.inl (ofToken_eq token a b)

theorem Tracks.mono (tracks : r.Tracks token seen a b) (sub : ∀ a b, seen a b → seen' a b) :
    r.Tracks token seen' a b :=
  tracks.imp_right fun ⟨lost, a, b, here, misfits⟩ => ⟨lost, a, b, sub a b here, misfits⟩

theorem Tracks.reanchor (tracks : r.Tracks token seen a b) (here : seen a b) (a' b' : Point) :
    (r.reanchor a' b').Tracks token seen a' b' := by
  rcases tracks with rfl | ⟨rfl, misfit⟩
  · by_cases bare : raw token = straight
    · exact Or.inl (by simp only [bare, reanchor_straight])
    · rcases reanchor_reanchor (raw token) a b a' b' with same | lost
      · exact Or.inl same
      · exact Or.inr ⟨by rw [lost, reanchor_straight], a, b, here, bare, lost⟩
  · exact Or.inr ⟨reanchor_straight a' b', misfit⟩

end Route

namespace Scene

variable {c : Contents} {s t u : Scene} {shown : Keyed Box} {report : SyncReport} {e : WireEntry}
  {old : Keyed Cable} {x : Cable} {token : String} {outlet inlet ref : JackRef} {a b : Point}
  {boxes : Keyed Box} {h g i k : Nat} {side : Side} {p q : Patch} {ends : Ends}

/-- The place of a jack of a node, among the boxes of a scene. -/
def site? (boxes : List Box) (handle : Nat) (side : Side) (index : Nat) : Option Point :=
  (boxes.find? fun b => b.handle == some handle).bind fun b =>
    (b.jack? side index).map fun q => (b.jackBounds q).centre

/-- The first wire of a handle and the places of its ends, if both are there. -/
def span? (c : Contents) (boxes : List Box) (h : Nat) : Option (Wire × Point × Point) := do
  let w ← c.wire? h
  let a ← site? boxes w.ends.outletOwner .outlet w.ends.outlet
  let b ← site? boxes w.ends.inletOwner .inlet w.ends.inlet
  return (w, a, b)

theorem span?_eq_some_iff {boxes : List Box} {w : Wire} : span? c boxes h = some (w, a, b) ↔
    c.wire? h = some w ∧ site? boxes w.ends.outletOwner .outlet w.ends.outlet = some a ∧
      site? boxes w.ends.inletOwner .inlet w.ends.inlet = some b := by
  simp only [span?, Option.bind_eq_bind, Option.bind_eq_some_iff, Option.pure_def, Option.some.injEq,
    Prod.mk.injEq]
  constructor
  · rintro ⟨_, hw, _, ha, _, hb, rfl, rfl, rfl⟩
    exact ⟨hw, ha, hb⟩
  · rintro ⟨hw, ha, hb⟩
    exact ⟨w, hw, a, ha, b, hb, rfl, rfl, rfl⟩

/-- The anchors between which a document that was passed over has a wire with some token. -/
def Seen (passed : List Contents) (h : Nat) (token : String) (a b : Point) : Prop :=
  ∃ c ∈ passed, ∃ w, span? c (boxesOf c.nodes) h = some (w, a, b) ∧ w.token = token

theorem Seen.mono {passed passed' : List Contents} (sub : passed ⊆ passed') (a b : Point)
    (seen : Seen passed h token a b) : Seen passed' h token a b := by
  obtain ⟨c, passed, wire⟩ := seen
  exact ⟨c, sub passed, wire⟩

end Scene

/-- A cable that no gesture has touched, after passes over some documents. -/
structure Cable.Pristine (passed : List Contents) (c : Cable) : Prop where
  saved : c.unsaved = false
  tracks : ∃ a b, Scene.Seen passed c.handle c.token a b ∧
    c.route.Tracks c.token (Scene.Seen passed c.handle c.token) a b

namespace Scene

variable {c : Contents} {s t u : Scene} {shown : Keyed Box} {report : SyncReport} {e : WireEntry}
  {old : Keyed Cable} {x : Cable} {token : String} {outlet inlet ref : JackRef} {a b : Point}
  {boxes : Keyed Box} {h g i k : Nat} {side : Side} {p q : Patch} {ends : Ends}
  {passed passed' : List Contents}

theorem Draft.pristine (draft : Draft old e token outlet inlet a b x)
    (pristine : ∀ y ∈ old, y.2.Pristine passed) : x.unsaved = false ∧ x.token = token ∧
      x.route.Tracks token (Seen passed e.handle token) a b := by
  cases draft with
  | fresh => exact ⟨rfl, rfl, Route.tracks_ofToken _ token a b⟩
  | @kept k d mem handle ends =>
    obtain ⟨saved, a', b', seen, tracks⟩ := pristine _ mem
    simp only at saved seen tracks
    rw [handle] at seen tracks
    by_cases new : token ≠ d.token
    · simp only [refreshCable, new, saved, ne_eq, not_false_eq_true, and_self, if_true]
      exact ⟨trivial, trivial, Route.tracks_ofToken _ token a b⟩
    · obtain rfl : token = d.token := by simpa using new
      simp only [refreshCable, ne_eq, not_true_eq_false, false_and, if_false]
      exact ⟨saved, trivial, tracks.reanchor seen a b⟩

theorem Terminal.site?_eq (terminal : Terminal s.boxes h side i ref) (wf : s.WellFormed) :
    ∃ p, s.anchor? ref = some p ∧ site? (s.boxes.map (·.2)) h side i = some p := by
  obtain ⟨k, b, mem, named, hlt, rfl⟩ := terminal
  have hbox : s.box? k = some b := box?_of_mem mem
  obtain ⟨b', found⟩ : ∃ b', (s.boxes.map (·.2)).find? (fun b => b.handle == some h) = some b' :=
    Option.isSome_iff_exists.1 (List.find?_isSome.2
      ⟨b, List.mem_map_of_mem mem, by simpa using named⟩)
  obtain ⟨f, hf, rfl⟩ := List.mem_map.1 (List.mem_of_find?_eq_some found)
  have named' : f.2.handle = some h := by simpa using List.find?_some found
  obtain rfl := eq_of_handle wf.handles mem hf named named'
  refine ⟨(b.jackBounds ((b.jacks side)[i])).centre, ?_, ?_⟩
  · simp [anchor?, jackBounds?, hbox, Box.jack?_eq, hlt]
  · simp [site?, found, Box.jack?_eq, hlt]

theorem Course.terminal (course : Course c s shown t report) (wf : s.WellFormed)
    (exact : u.boxArena.Exact) (boxes : u.boxes = shown ++ s.blanks)
    (terminal : Terminal s.boxes g side i ref) (stays : (u.jack? ref).isSome = true) : Terminal u.boxes g side i ref := by
  obtain ⟨k, b, mem, named, hlt, rfl⟩ := terminal
  obtain ⟨q, hq⟩ := Option.isSome_iff_exists.1 stays
  obtain ⟨b', hbox, hjack⟩ := Option.bind_eq_some_iff.1 hq
  have there : (k, b') ∈ u.boxes := mem_boxes exact hbox
  refine ⟨k, b', there, ?_, Box.isSome_jack?_iff.1 (Option.isSome_of_eq_some hjack), rfl⟩
  rw [boxes] at there
  rcases List.mem_append.1 there with there | there
  · obtain ⟨j, hj⟩ := List.mem_iff_getElem?.1 there
    obtain ⟨h, n, -, renews⟩ := course.renewed.rows j _ hj
    rcases renews with ⟨-, new⟩ | ⟨b₀, mem₀, named₀, renewed⟩
    · have low := lt_nextBox (Keyed.mem_keys_of_mem mem)
      rw [nextBox_prune] at new
      exact absurd low (Nat.not_lt.2 new)
    · have was : (k, b₀) ∈ s.boxes :=
        (List.mem_filter.1 (boxes_prune c.listing s ▸ mem₀)).1
      obtain rfl := Keyed.eq_of_mem wf.boxes mem was
      simp only at renewed
      rw [renewed]
      exact (Box.handle_renew _ _ _).trans named
  · have was : (k, b') ∈ s.boxes := (List.mem_filter.1 there).1
    rw [← Keyed.eq_of_mem wf.boxes mem was]
    exact named

/-- A handle that stands for one wire only, and a scene whose cable of it joins what the wire joins. -/
structure Loyal (p : Patch) (s : Scene) (h : Nat) : Prop where
  coherent : ∀ e e', Entity.wire h e ∈ p.entities → Entity.wire h e' ∈ p.entities → e = e'
  held : ∀ x ∈ s.cables, x.2.handle = h → h < p.next ∧
    ∃ e, Joins s.boxes x.2 e ∧ ∀ e', Entity.wire h e' ∈ p.entities → e' = e

theorem Loyal.follows (loyal : Loyal p s h) (bounded : p.Bounded) (follows : p.Follows q) :
    Loyal q s h where
  coherent e e' he he' := by
    rcases follows.entities _ he with old | ⟨-, unique⟩
    · rcases follows.entities _ he' with old' | ⟨new, -⟩
      · exact loyal.coherent e e' old old'
      · exact absurd (bounded.below _ old) (Nat.not_lt.2 new)
    · exact (Entity.wire.inj (unique _ he' rfl)).2.symm
  held x hx named := by
    obtain ⟨low, e, joins, only⟩ := loyal.held x hx named
    refine ⟨Nat.lt_of_lt_of_le low follows.next, e, joins, fun e' he' => ?_⟩
    rcases follows.entities _ he' with old | ⟨new, -⟩
    · exact only e' old
    · exact absurd low (Nat.not_lt.2 new)

theorem entity_of_mem_firstWires (mem : e ∈ Listing.firstWires [] p.toContents.listing.wires) :
    Entity.wire e.handle e.ends ∈ p.entities := by
  have listed := List.mem_of_find?_eq_some (mem_firstWires.1 mem).2
  obtain ⟨w, hw, rfl⟩ := List.mem_map.1 listed
  exact List.mem_append_left _ (Contents.mem_entities.2 (Or.inr ⟨w, hw, rfl⟩))

theorem exists_firstWire (listed : c.listing.hasWire h = true) :
    ∃ e ∈ Listing.firstWires [] c.listing.wires, e.handle = h := by
  obtain ⟨e, he, named⟩ := List.any_eq_true.1 listed
  obtain ⟨f, found⟩ := Option.isSome_iff_exists.1
    (List.find?_isSome.2 ⟨e, he, named⟩ : (c.listing.wires.find? (·.handle == h)).isSome = true)
  have same : f.handle = h := by simpa using List.find?_some found
  exact ⟨f, mem_firstWires.2 ⟨List.not_mem_nil, by rw [same]; exact found⟩, same⟩

theorem wire?_of_firstWires (mem : e ∈ Listing.firstWires [] c.listing.wires) :
    ∃ w, c.wire? e.handle = some w ∧ w.ends = e.ends ∧ c.listing.token e.handle = some w.token := by
  have found := (mem_firstWires.1 mem).2
  have listed : c.listing.wires.find? (·.handle == e.handle)
      = (c.wire? e.handle).map fun w => ⟨w.handle, w.ends⟩ := by
    simp only [Contents.listing, Contents.wire?, List.find?_map, Function.comp_def]
  obtain ⟨w, hw, rfl⟩ := Option.map_eq_some_iff.1 (listed.symm.trans found)
  exact ⟨w, hw, rfl, by simp [Contents.listing, hw]⟩

/-- How the cable of an entry was drawn, with its anchors and what it was drawn over. -/
def DrawnBy (c : Contents) (s u : Scene) (e : WireEntry) (x : Cable) : Prop :=
  ∃ outlet inlet a b, Terminal u.boxes e.ends.outletOwner .outlet e.ends.outlet outlet ∧
    Terminal u.boxes e.ends.inletOwner .inlet e.ends.inlet inlet ∧
    u.anchor? outlet = some a ∧ u.anchor? inlet = some b ∧
    ∃ old, (∀ y ∈ old, y ∈ s.cables) ∧
      Draft old e ((c.listing.token e.handle).getD "") outlet inlet a b x

theorem DrawnBy.exists_span (drawn : DrawnBy c s u e x)
    (mem : e ∈ Listing.firstWires [] c.listing.wires) (wf : u.WellFormed)
    (clear : u.boxes.map (·.2) = boxesOf c.nodes) : ∃ w a b old outlet inlet,
      span? c (boxesOf c.nodes) e.handle = some (w, a, b) ∧ (∀ y ∈ old, y ∈ s.cables) ∧
        Draft old e w.token outlet inlet a b x := by
  obtain ⟨outlet, inlet, a, b, hout, hin, ha, hb, old, former, draft⟩ := drawn
  obtain ⟨w, hw, ends, token⟩ := wire?_of_firstWires mem
  obtain ⟨a', ha', siteOut⟩ := hout.site?_eq wf
  obtain ⟨b', hb', siteIn⟩ := hin.site?_eq wf
  obtain rfl := Option.some.inj (ha.symm.trans ha')
  obtain rfl := Option.some.inj (hb.symm.trans hb')
  rw [clear, ← ends] at siteOut siteIn
  rw [token, Option.getD_some] at draft
  exact ⟨w, a, b, old, outlet, inlet, span?_eq_some_iff.2 ⟨hw, siteOut, siteIn⟩, former, draft⟩

theorem Course.drawnBy (course : Course c s shown t report) (wf : s.WellFormed)
    (nodup : (keys c.nodes).Nodup) (hu : (s.reconcile c.listing).1 = u) :
    (∀ e ∈ Listing.firstWires [] c.listing.wires, ∀ outlet inlet,
      Terminal u.boxes e.ends.outletOwner .outlet e.ends.outlet outlet →
      Terminal u.boxes e.ends.inletOwner .inlet e.ends.inlet inlet →
      ∃ x ∈ u.cables, DrawnBy c s u e x.2) ∧
    ∀ x ∈ u.cables, (∃ e ∈ Listing.firstWires [] c.listing.wires, e.handle = x.2.handle ∧
      DrawnBy c s u e x.2) ∨ x ∈ s.cables := by
  obtain ⟨redrawn, wiring⟩ := course.redrawn
  have stays := wf.reconcile (c := c) nodup
  rw [hu] at redrawn wiring stays
  have anchors := anchor?_congr redrawn.same.1
  have former : ∀ y ∈ t.sortBoxes.dropOrphans.cables, y ∈ s.cables := by
    intro y hy
    rw [dropOrphans, cables_keepCables, cables_congr (t := t.sortBoxes) course.cables] at hy
    have hy := (List.mem_filter.1 hy).1
    exact (List.mem_filter.1 ((cables_prune c.listing s).1.subset hy)).1
  have same : t.sortBoxes.dropOrphans.boxes = u.boxes := (boxes_congr redrawn.same.1).symm
  have owns : Owns t.ownerOf? t.sortBoxes.dropOrphans.boxes :=
    boxes_congr (s := t.sortBoxes) course.wiring.boxes ▸ course.staged.owns
  have draw (e : WireEntry) (he : e ∈ Listing.firstWires [] c.listing.wires) (outlet inlet : JackRef)
      (ends : t.sortBoxes.dropOrphans.resolveEnds? t.ownerOf? e.ends = some (outlet, inlet)) :
      ∃ x ∈ u.cables, x.2.handle = e.handle ∧ DrawnBy c s u e x.2 := by
    obtain ⟨a, b, ha, hb, x, hx, draft⟩ := redrawn.drawn e he outlet inlet ends
    obtain ⟨hout, hin⟩ := owns.names.joins ends
    rw [same] at hout hin
    exact ⟨x, hx, draft.ends.1, outlet, inlet, a, b, hout, hin, (anchors _).trans ha,
      (anchors _).trans hb, _, former, draft⟩
  constructor
  · intro e he outlet inlet hout hin
    rw [← same] at hout hin
    obtain ⟨x, hx, -, drawn⟩ := draw e he outlet inlet
      (owns.resolveEnds? hout hin)
    exact ⟨x, hx, drawn⟩
  · intro x hx
    by_cases fresh : ∀ e ∈ Listing.firstWires [] c.listing.wires, x.2.handle = e.handle →
        t.sortBoxes.dropOrphans.resolveEnds? t.ownerOf? e.ends = none
    · exact Or.inr (former x ((redrawn.others x fresh).1 hx))
    · simp only [not_forall] at fresh
      obtain ⟨e, he, named, found⟩ := fresh
      obtain ⟨⟨outlet, inlet⟩, ends⟩ := Option.ne_none_iff_exists'.1 found
      obtain ⟨y, hy, named', drawn⟩ := draw e he outlet inlet ends
      obtain rfl := List.inj_on_of_nodup_map stays.cableHandles hx hy (named.trans named'.symm)
      exact Or.inl ⟨e, he, named.symm, drawn⟩

/-- The cable of a handle that stands for one wire is always drawn. -/
theorem Course.loyal_drawnBy (course : Course p.toContents s shown t report) (wf : s.WellFormed)
    (nodup : (keys p.nodes).Nodup) (hu : (s.reconcile p.toContents.listing).1 = u)
    (loyal : Loyal p s h) {x : Nat × Cable} (mem : x ∈ u.cables) (named : x.2.handle = h) :
    ∃ e ∈ Listing.firstWires [] p.toContents.listing.wires, e.handle = h ∧
      DrawnBy p.toContents s u e x.2 := by
  obtain ⟨redrawn, wiring⟩ := course.redrawn
  rw [hu] at redrawn wiring
  have stays := wf.reconcile (c := p.toContents) nodup
  rw [hu] at stays
  have hboxes : u.boxes = shown ++ s.blanks :=
    (boxes_congr (s := t.sortBoxes) wiring.boxes).trans
      (course.renewed.boxes_sortBoxes course.staged course.all)
  obtain ⟨every, each⟩ := course.drawnBy wf nodup hu
  rcases each x mem with ⟨e, he, same, drawn⟩ | old
  · exact ⟨e, he, same.trans named, drawn⟩
  · -- A cable that was there before joins what its wire joins, so the wire has been drawn.
    obtain ⟨-, ends, ⟨hout, hin⟩, only⟩ := loyal.held x old named
    have wired : (u.jack? x.2.outlet).isSome = true ∧ (u.jack? x.2.inlet).isSome = true := by
      simpa [isWired] using wiring.wired x mem
    obtain ⟨e, he, same⟩ := exists_firstWire (named ▸ wiring.listed x mem)
    have agree : e.ends = ends := only _ (same ▸ entity_of_mem_firstWires he)
    have hout := course.terminal wf stays.boxOrder hboxes hout wired.1
    have hin := course.terminal wf stays.boxOrder hboxes hin wired.2
    rw [← agree] at hout hin
    obtain ⟨y, hy, drawn⟩ := every e he _ _ hout hin
    have named' : y.2.handle = h := by
      obtain ⟨_, _, _, _, -, -, -, -, _, -, draft⟩ := drawn
      exact draft.ends.1.trans same
    obtain rfl := List.inj_on_of_nodup_map stays.cableHandles mem hy (named.trans named'.symm)
    exact ⟨e, he, same, drawn⟩

theorem Course.loyal (course : Course p.toContents s shown t report) (wf : s.WellFormed)
    (bounded : p.Bounded) (hu : (s.reconcile p.toContents.listing).1 = u) (loyal : Loyal p s h) :
    Loyal p u h where
  coherent := loyal.coherent
  held x hx named := by
    obtain ⟨e, he, same, outlet, inlet, a, b, hout, hin, -, -, old, -, draft⟩ :=
      course.loyal_drawnBy wf bounded.nodup hu loyal hx named
    have known : Entity.wire h e.ends ∈ p.entities := same ▸ entity_of_mem_firstWires he
    obtain ⟨-, houtlet, hinlet⟩ := draft.ends
    refine ⟨bounded.below _ known, e.ends, ⟨houtlet ▸ hout, hinlet ▸ hin⟩, ?_⟩
    exact fun e' he' => loyal.coherent e' e.ends he' known

theorem Course.pristine_cables (course : Course c s shown t report) (wf : s.WellFormed)
    (nodup : (keys c.nodes).Nodup)
    (clear : (s.reconcile c.listing).1.boxes.map (·.2) = boxesOf c.nodes)
    (pristine : ∀ x ∈ s.cables, x.2.Pristine passed) :
    ∀ x ∈ (s.reconcile c.listing).1.cables, x.2.Pristine (passed ++ [c]) := by
  have sub : passed ⊆ passed ++ [c] := List.subset_append_left ..
  intro x hx
  rcases (course.drawnBy wf nodup rfl).2 x hx with ⟨e, he, named, drawn⟩ | old
  · obtain ⟨w, a, b, old, outlet, inlet, spans, former, draft⟩ :=
      drawn.exists_span he (wf.reconcile nodup) clear
    obtain ⟨saved, token, tracks⟩ := draft.pristine fun y hy => pristine y (former y hy)
    rw [named] at spans tracks
    refine ⟨saved, a, b, ?_, token ▸ tracks.mono (Seen.mono sub)⟩
    exact ⟨c, List.mem_append_right _ (List.mem_singleton_self c), w, spans, token.symm⟩
  · obtain ⟨saved, a, b, seen, tracks⟩ := pristine x old
    exact ⟨saved, a, b, seen.mono sub, tracks.mono (Seen.mono sub)⟩

def sign (s : Scene) (ref : JackRef) : Option Nat × Side × Nat :=
  ((s.box? ref.box).bind Box.handle, ref.side, ref.index)

/-- What can be seen of a cable without knowing its key. -/
structure Drawing where
  outlet : Option Nat × Side × Nat
  inlet : Option Nat × Side × Nat
  token : String
  route : Route
  deriving DecidableEq, Repr

def drawing? (s : Scene) (h : Nat) : Option Drawing :=
  (s.cables.find? fun x => x.2.handle == h).map fun x =>
    ⟨s.sign x.2.outlet, s.sign x.2.inlet, x.2.token, x.2.route⟩

theorem drawing?_of_mem (nodup : (s.cables.map (·.2.handle)).Nodup) {x : Nat × Cable}
    (mem : x ∈ s.cables) (named : x.2.handle = h) :
    s.drawing? h = some ⟨s.sign x.2.outlet, s.sign x.2.inlet, x.2.token, x.2.route⟩ := by
  have there : (s.cables.find? fun y => y.2.handle == h).isSome = true :=
    List.find?_isSome.2 ⟨x, mem, by simpa using named⟩
  obtain ⟨y, found⟩ := Option.isSome_iff_exists.1 there
  have named' : y.2.handle = h := by simpa using List.find?_some found
  obtain rfl := List.inj_on_of_nodup_map nodup (List.mem_of_find?_eq_some found) mem
    (named'.trans named.symm)
  rw [drawing?, found, Option.map_some]

/-- What is to be seen of a handle, with a route that is good for the token and the places. -/
def Pictures (c : Contents) (boxes : List Box) (good : Route → String → Point → Point → Prop)
    (h : Nat) (d : Option Drawing) : Prop :=
  match span? c boxes h with
  | none => d = none
  | some (w, a, b) => ∃ route, good route w.token a b ∧
      d = some ⟨(some w.ends.outletOwner, .outlet, w.ends.outlet),
        (some w.ends.inletOwner, .inlet, w.ends.inlet), w.token, route⟩

theorem Terminal.sign_eq (terminal : Terminal s.boxes h side i ref) :
    s.sign ref = (some h, side, i) := by
  obtain ⟨k, b, mem, named, -, rfl⟩ := terminal
  have hbox : s.box? k = some b := box?_of_mem mem
  simp [sign, hbox, named]

end Scene

end Patchbay
