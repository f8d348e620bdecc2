import Patchbay.CommandLine.Run
import Patchbay.Proofs.Budget
import Patchbay.Proofs.Ground
import Patchbay.Proofs.Queue
import Patchbay.Proofs.Saved
import Patchbay.Proofs.Token

/-!
# What routing prints and saves

Routing leads every cable of a new canvas around the boxes. What it prints of a cable is what the saved
patch keeps for its wire. And it makes nothing of the tokens that it finds, so routing the saved patch
comes to the same again.
-/

namespace Patchbay

open Keyed (keys get?)

namespace CommandLine

structure Routed where
  handle : Nat
  segmented : Bool
  points : List Point
  token : String
  deriving DecidableEq, Repr

def Routed.toJson (y : Routed) : Json :=
  .record [("handle", .ofNat y.handle), ("segmented", .bool y.segmented),
    ("points", .ofList Point.toJson y.points), ("path_state", .ofString y.token)]

def Routed.entry (y : Routed) : Nat × String := (y.handle, y.token)

end CommandLine

open CommandLine (Routed)

namespace Scene

variable {s t : Scene} {c d x : Cable} {settings : RoutingSettings}

def printed? (s : Scene) (c : Cable) : Option Routed :=
  (s.ends? c).map fun (start, stop) =>
    ⟨c.handle, c.route.isSegmented, c.route.polyline start stop, c.token⟩

theorem cableJson?_eq (s : Scene) (c : Cable) :
    CommandLine.cableJson? s c = (s.printed? c).map Routed.toJson := by
  unfold CommandLine.cableJson? printed?
  cases s.ends? c <;> rfl

def routed? (s : Scene) (settings : RoutingSettings) (c : Cable) : Option Routed :=
  (s.ends? c).map fun (start, stop) =>
    let r := Route.around start stop (s.obstacles [c.outlet.box, c.inlet.box]) settings
    ⟨c.handle, r.isSegmented, r.polyline start stop, r.token⟩

def routed (s : Scene) (settings : RoutingSettings) : List Routed :=
  s.cables.filterMap fun x => s.routed? settings x.2

theorem SharesGround.printed? (same : s.SharesGround t) (c : Cable) :
    t.printed? c = s.printed? c := by
  rw [Scene.printed?, Scene.printed?, same.ends? rfl]

theorem SharesGround.routed? (same : s.SharesGround t) (joints : joint d = joint c) :
    t.routed? settings d = s.routed? settings c := by
  have ends := same.ends? joints
  simp only [joint, Prod.mk.injEq] at joints
  simp only [Scene.routed?, Scene.obstacles, ends, joints, boxes_congr same.boxArena]

theorem SharesGround.routed (same : s.SharesGround t) : t.routed settings = s.routed settings := by
  -- A cable counts for no more than its key and its jacks.
  have bare (u : Scene) (there : s.SharesGround u) : u.routed settings
      = u.outline.cables.entries.filterMap fun x =>
        s.routed? settings { handle := x.2.1, outlet := x.2.2.1, inlet := x.2.2.2 } := by
    rw [Scene.routed, cables_outline, List.filterMap_map]
    exact List.filterMap_congr fun x _ => there.routed? rfl
  rw [bare s (.refl s), bare t same, same.outline]

theorem of_routed? {y : Routed} (shown : s.routed? settings c = some y) :
    y.handle = c.handle ∧
      (y.segmented = true ∧ Plan.isValid y.points = true ∧ y.token = Token.encode y.points ∨
        y.segmented = false ∧ y.token = "") := by
  obtain ⟨⟨start, stop⟩, -, rfl⟩ := Option.map_eq_some_iff.1 shown
  refine ⟨rfl, ?_⟩
  have valid := (Lattice.findPlan_sound start stop (s.obstacles [c.outlet.box, c.inlet.box])
    settings).2.2
  dsimp only
  cases route : Route.around start stop (s.obstacles [c.outlet.box, c.inlet.box]) settings with
  | straight => exact .inr ⟨rfl, rfl⟩
  | segmented ps => exact .inl ⟨rfl, valid ps route, rfl⟩

end Scene

namespace Canvas

variable {c d e : Canvas} {p q r : Patch} {k : Nat} {ks ls : List Nat} {x : Cable}

def conduct (c : Canvas) (p : Patch) (ks : List Nat) : Canvas × Patch :=
  ks.foldl (fun (state : Canvas × Patch) key =>
    let (c, p, _) := state.1.routeCable state.2 key 0
    (c, p)) (c, p)

/-- The token that the cable under a key gets, with its handle. -/
def tokenFor? (c : Canvas) (k : Nat) : Option (Nat × String) :=
  (c.scene.cable? k).bind fun x => (c.scene.routed? c.settings.routing x).map Routed.entry

/-- What leading the cables under some keys makes of a canvas and its patch. -/
structure Conducts (c : Canvas) (p : Patch) (ks : List Nat) (d : Canvas) (q : Patch) : Prop where
  ground : c.scene.SharesGround d.scene
  settings : d.settings = c.settings
  next : q.next = p.next
  waiting : (keys d.queue.pending).Nodup
  overlaid : q.toContents.setTokens d.queue.pending
    = (p.toContents.setTokens c.queue.pending).setTokens (ks.filterMap c.tokenFor?)
  rest : ∀ x ∈ d.scene.cables, x.1 ∉ ks → x ∈ c.scene.cables
  led : ∀ x ∈ d.scene.cables, x.1 ∈ ks →
    d.scene.printed? x.2 = d.scene.routed? d.settings.routing x.2

theorem Conducts.refl (waiting : (keys c.queue.pending).Nodup) (p : Patch) : c.Conducts p [] c p where
  ground := .refl _
  settings := rfl
  next := rfl
  waiting := waiting
  overlaid := rfl
  rest _ there _ := there
  led _ _ none := absurd none List.not_mem_nil

theorem Conducts.tokenFor? (conducts : c.Conducts p ks d q) (k : Nat) : d.tokenFor? k = c.tokenFor? k := by
  have joints := conducts.ground.map_cable? k
  rw [Canvas.tokenFor?, Canvas.tokenFor?, conducts.settings]
  cases hc : c.scene.cable? k with
  | none =>
    rw [hc, Option.map_none, Option.map_eq_none_iff] at joints
    rw [joints, Option.bind_none, Option.bind_none]
  | some x =>
    rw [hc, Option.map_some] at joints
    obtain ⟨y, hd, joints⟩ := Option.map_eq_some_iff.1 joints
    rw [hd, Option.bind_some, Option.bind_some, conducts.ground.routed? joints]

theorem Conducts.trans (first : c.Conducts p ks d q) (second : d.Conducts q ls e r) :
    c.Conducts p (ks ++ ls) e r where
  ground := first.ground.trans second.ground
  settings := second.settings.trans first.settings
  next := second.next.trans first.next
  waiting := second.waiting
  overlaid := by
    have entries : ls.filterMap d.tokenFor? = ls.filterMap c.tokenFor? :=
      List.filterMap_congr fun k _ => first.tokenFor? k
    rw [second.overlaid, first.overlaid, entries, List.filterMap_append, Contents.setTokens_append]
  rest x there new := by
    obtain ⟨before, after⟩ := not_or.1 (mt List.mem_append.2 new)
    exact first.rest x (second.rest x there after) before
  led x there old := by
    by_cases last : x.1 ∈ ls
    · exact second.led x there last
    · have before := first.led x (second.rest x there last)
        ((List.mem_append.1 old).resolve_right last)
      rw [second.ground.printed?, before, second.settings, second.ground.routed? rfl]

theorem routeCable_of_found {start stop : Point} (found : c.scene.cable? k = some x)
    (ends : c.scene.ends? x = some (start, stop)) (p : Patch) (now : Nat) :
    let route := Route.around start stop (c.scene.obstacles [x.outlet.box, x.inlet.box])
      c.settings.routing
    let pushed := c.queue.push p x.handle route.token now
    c.routeCable p k now = ({ c with
      scene := c.scene.updateCable k fun x =>
        { x with route := route, token := route.token, unsaved := true }
      queue := pushed.1 }, pushed.2, some route) := by
  intro route pushed
  have anchors : c.scene.anchors? k = some (start, stop) := by
    rw [Scene.anchors?, found, Option.bind_some, ends]
  have again (r : Route) : (c.scene.updateCable k fun x => { x with route := r }).cable? k
      = some { x with route := r } := Scene.cable?_updateCable_self found _
  simp only [routeCable, found, anchors, pushToken, again]
  simp only [Scene.updateCable, Arena.update_update]
  rfl

theorem routeCable_of_loose (loose : c.scene.anchors? k = none) (p : Patch) (now : Nat) :
    c.routeCable p k now = (c, p, none) := by
  cases found : c.scene.cable? k <;> simp [routeCable, found, loose]

theorem conducts_of_loose (waiting : (keys c.queue.pending).Nodup)
    (loose : c.scene.anchors? k = none) (p : Patch) : c.Conducts p [k] c p := by
  have none : c.tokenFor? k = none := by
    unfold tokenFor? Scene.routed?
    cases found : c.scene.cable? k with
    | none => rfl
    | some x =>
      rw [Scene.anchors?, found, Option.bind_some] at loose
      rw [Option.bind_some, loose]
      rfl
  refine ⟨.refl _, rfl, rfl, waiting, by simp [none, Contents.setTokens], fun x there _ => there, ?_⟩
  intro x there only
  have found : c.scene.cable? k = some x.2 :=
    List.mem_singleton.1 only ▸ Scene.cable?_of_mem there
  rw [Scene.anchors?, found, Option.bind_some] at loose
  rw [Scene.printed?, Scene.routed?, loose]
  rfl

theorem conducts_of_anchors (waiting : (keys c.queue.pending).Nodup) {start stop : Point}
    (found : c.scene.cable? k = some x) (ends : c.scene.ends? x = some (start, stop)) (p : Patch) :
    c.Conducts p [k] (c.routeCable p k 0).1 (c.routeCable p k 0).2.1 := by
  have step := routeCable_of_found found ends p 0
  dsimp only at step
  generalize led : Route.around start stop (c.scene.obstacles [x.outlet.box, x.inlet.box])
    c.settings.routing = route at step
  rw [step]
  have ground : c.scene.SharesGround (c.scene.updateCable k fun x =>
      { x with route := route, token := route.token, unsaved := true }) :=
    ⟨rfl, Scene.outline_updateCable fun _ => rfl⟩
  obtain ⟨waiting', overlaid⟩ := WriteQueue.setTokens_push waiting p x.handle route.token 0
  have routed : c.scene.routed? c.settings.routing x
      = some ⟨x.handle, route.isSegmented, route.polyline start stop, route.token⟩ := by
    rw [Scene.routed?, ends, ← led]
    rfl
  have pushed : c.tokenFor? k = some (x.handle, route.token) := by
    rw [tokenFor?, found, Option.bind_some, routed]
    rfl
  refine ⟨ground, rfl, WriteQueue.next_push c.queue p x.handle route.token 0, waiting', ?_, ?_, ?_⟩
  · rw [overlaid, List.filterMap_cons_some pushed]
    rfl
  · intro y there other
    rw [Scene.cables_updateCable] at there
    rcases Keyed.of_mem_update there with ⟨there, -⟩ | ⟨b, -, rfl⟩
    · exact there
    · exact absurd (List.mem_singleton_self k) other
  · intro y there only
    rw [Scene.cables_updateCable] at there
    rcases Keyed.of_mem_update there with ⟨-, other⟩ | ⟨b, hb, rfl⟩
    · exact absurd (List.mem_singleton.1 only) other
    · obtain rfl : x = b := Option.some.inj (found.symm.trans (Scene.cable?_of_mem hb))
      have same : c.scene.ends? { x with route := route, token := route.token, unsaved := true }
          = some (start, stop) := ends
      rw [ground.routed? rfl, ground.printed?, Scene.printed?, same]
      exact routed.symm

theorem conducts_routeCable (waiting : (keys c.queue.pending).Nodup) (p : Patch) (k : Nat) :
    c.Conducts p [k] (c.routeCable p k 0).1 (c.routeCable p k 0).2.1 := by
  cases anchors : c.scene.anchors? k with
  | none =>
    rw [routeCable_of_loose anchors]
    exact conducts_of_loose waiting anchors p
  | some ends =>
    obtain ⟨x, found, ends⟩ := Option.bind_eq_some_iff.1 anchors
    exact conducts_of_anchors waiting found ends p

theorem conducts_conduct (waiting : (keys c.queue.pending).Nodup) (p : Patch) (ks : List Nat) :
    c.Conducts p ks (c.conduct p ks).1 (c.conduct p ks).2 := by
  induction ks generalizing c p with
  | nil => exact .refl waiting p
  | cons k ks ih =>
    have first := conducts_routeCable waiting p k
    exact first.trans (ih first.waiting _)

theorem map_entry_routed (c : Canvas) : (keys c.scene.cables).filterMap c.tokenFor?
      = (c.scene.routed c.settings.routing).map Routed.entry := by
  rw [keys, List.filterMap_map, Scene.routed, List.map_filterMap]
  refine List.filterMap_congr fun x there => ?_
  have found : c.scene.cable? x.1 = some x.2 := Scene.cable?_of_mem there
  rw [Function.comp_apply, tokenFor?, found, Option.bind_some]

theorem Conducts.printed (conducts : c.Conducts p (keys c.scene.cables) d q) :
    (d.flushTokens q).1.scene.cables.filterMap
        (fun x => CommandLine.cableJson? (d.flushTokens q).1.scene x.2)
      = (c.scene.routed c.settings.routing).map Routed.toJson := by
  have saved : (d.flushTokens q).1.scene.cables
      = Keyed.mapValues d.scene.cables fun _ x => { x with unsaved := false } :=
    d.scene.cables_mapCables _
  have same (x : Cable) : (d.flushTokens q).1.scene.printed? { x with unsaved := false }
      = d.scene.printed? x := rfl
  have keys : keys d.scene.cables = keys c.scene.cables := by
    rw [Scene.keys_cables, conducts.ground.outline, ← Scene.keys_cables]
  rw [saved, Keyed.mapValues, List.filterMap_map, ← conducts.ground.routed, ← conducts.settings,
    Scene.routed, List.map_filterMap]
  refine List.filterMap_congr fun x there => ?_
  have led := conducts.led x there (keys ▸ Keyed.mem_keys_of_mem there)
  rw [Function.comp_apply, Scene.cableJson?_eq, same, led]

/-- In a canvas with nothing to write yet, every cable shows its route in the end, and the patch has the
tokens of all. -/
theorem routeAll_spec (quiet : c.queue.pending = []) (p : Patch) :
    let s := CommandLine.routeAll c p
    s.1.scene.cables.filterMap (fun x => CommandLine.cableJson? s.1.scene x.2)
        = (c.scene.routed c.settings.routing).map Routed.toJson ∧
      s.2.toContents
        = p.toContents.setTokens ((c.scene.routed c.settings.routing).map Routed.entry) ∧
      s.2.next = p.next := by
  have conducts := conducts_conduct (c := c) (quiet ▸ List.nodup_nil) p (keys c.scene.cables)
  refine ⟨conducts.printed, ?_, (WriteQueue.next_flush _ _).trans conducts.next⟩
  refine (WriteQueue.toContents_flush _ _).trans (conducts.overlaid.trans ?_)
  rw [quiet, map_entry_routed c]
  rfl

end Canvas

namespace CommandLine

variable {p q : Patch} {settings : CanvasSettings} {text : String} {r : Request}
  {read : String → Option String}

/-! ## One run -/

def routings (settings : CanvasSettings) (p : Patch) : List Routed :=
  (Canvas.fresh settings p).scene.routed settings.routing

theorem wellFormed_fresh (settings : CanvasSettings) (nodup : (keys p.nodes).Nodup) :
    (Canvas.fresh settings p).scene.WellFormed :=
  (Scene.wellFormed_empty.reconcile nodup).of_outline (Scene.outline_mark {} _)

theorem routings_congr (alike : p.Alike q.toContents) (settings : CanvasSettings) :
    routings settings q = routings settings p :=
  (Scene.sharesGround_fresh alike settings).routed

theorem nodup_routings (settings : CanvasSettings) (nodup : (keys p.nodes).Nodup) :
    (keys ((routings settings p).map Routed.entry)).Nodup := by
  have distinct := (wellFormed_fresh settings nodup).cableHandles
  rw [List.Nodup, List.pairwise_map] at distinct
  rw [List.Nodup, keys, List.map_map, List.pairwise_map, routings, Scene.routed,
    List.pairwise_filterMap]
  refine distinct.imp fun differ y hy z hz => ?_
  simpa [Routed.entry, (Scene.of_routed? hy).1, (Scene.of_routed? hz).1] using differ

theorem wire?_routings (settings : CanvasSettings) (nodup : (keys p.nodes).Nodup) :
    ∀ y ∈ routings settings p, ∃ w, p.wire? y.handle = some w := by
  intro y there
  obtain ⟨x, hx, shown⟩ := List.mem_filterMap.1 there
  have outline : (Canvas.fresh settings p).scene.outline
      = (({} : Scene).reconcile p.toContents.listing).1.outline := Scene.outline_mark {} _
  have drawn : x.2.handle ∈ (Canvas.fresh settings p).scene.cables.map (·.2.handle) :=
    List.mem_map_of_mem hx
  rw [Scene.cableHandles_eq, outline, ← Scene.cableHandles_eq] at drawn
  obtain ⟨c, hc, same⟩ := List.mem_map.1 drawn
  obtain ⟨w, hw, named⟩ :=
    (Scene.reconcile_inLine {} Scene.wellFormed_empty p nodup).listed c hc
  have listed : (p.wire? y.handle).isSome = true := by
    rw [Contents.wire?, List.find?_isSome]
    exact ⟨w, hw, by simp [(Scene.of_routed? shown).1, named, same]⟩
  exact Option.isSome_iff_exists.1 listed

/-- Routing prints the routes of all cables, and saves their tokens with the wires. -/
theorem route_eq (p : Patch) (settings : CanvasSettings) (output : Option String) : ∃ q : Patch,
      q.toContents = p.toContents.setTokens ((routings settings p).map Routed.entry) ∧
      q.next = p.next ∧ route p settings output =
        { exit := 0, output := printed (.array ((routings settings p).map Routed.toJson))
          file := output.map fun name => (name, q.print) } := by
  obtain ⟨shown, contents, next⟩ := Canvas.routeAll_spec (c := Canvas.fresh settings p) rfl
    (Document.deliver (Document.deliver p))
  refine ⟨_, contents, next, ?_⟩
  exact congrArg (fun js => Outcome.mk 0 (printed (.array js)) _) shown

/-! ## A second run -/

theorem print_congr (contents : q.toContents = p.toContents) (next : q.next = p.next) :
    q.print = p.print := by
  rw [Patch.print, Patch.print, Patch.toJson, Patch.toJson, contents, next]

theorem parse?_print_of_alike (parsed : Patch.parse? text = some p)
    (alike : q.toContents.Alike p.toContents) (next : q.next = p.next) :
    Patch.parse? q.print = some { toContents := q.toContents, next := q.next } := by
  obtain ⟨fits, free, -⟩ := Patch.of_parse? parsed
  have used : keys q.nodes ++ q.wires.map (·.handle) = keys p.nodes ++ p.wires.map (·.handle) := by
    rw [alike.1, alike.handles]
  have ends : ∀ w ∈ q.wires, w.ends.Fits := by
    intro w there
    have bare : w.bare ∈ p.wires.map Wire.bare := alike.2 ▸ List.mem_map_of_mem there
    obtain ⟨v, hv, same⟩ := List.mem_map.1 bare
    exact (Prod.mk.inj same).2 ▸ fits.ends v hv
  have fits' : q.Fits :=
    ⟨alike.1 ▸ fits.nodup, used ▸ fits.handles, alike.1 ▸ fits.bounds, ends, next ▸ fits.next⟩
  have free' : q.highest?.getD 0 < q.next := by
    rw [Contents.highest?, used, next]
    exact free
  rw [Patch.parse?_print fits', Nat.max_eq_left free']

theorem Routed.toJson_injective : Function.Injective Routed.toJson := by
  have point : Function.Injective Point.toJson := by
    intro a b same
    simp only [Point.toJson, Json.record, List.map_cons, Json.object.injEq, List.cons.injEq,
      Prod.mk.injEq, true_and, and_true, Json.ofInt_injective.eq_iff] at same
    exact Point.ext same.1 same.2
  rintro ⟨h, bent, ps, t⟩ ⟨k, bent', qs, u⟩ same
  simp only [Routed.toJson, Json.record, List.map_cons, Json.object.injEq, List.cons.injEq,
    Prod.mk.injEq, true_and, and_true, Json.bool.injEq] at same
  obtain ⟨handle, rfl, points, token⟩ := same
  obtain rfl : h = k := Int.ofNat.inj (Json.ofInt_injective handle)
  obtain rfl : ps = qs := point.list_map (Json.array.inj points)
  obtain rfl : t = u := by
    have read := congrArg Json.asString? token
    simpa only [Json.asString?_ofString, Option.some.injEq] using read
  rfl

theorem Routed.written (y : Routed) : y.toJson.Written := by
  have point (a : Point) : a.toJson.Written := by
    refine .record ?_
    simp only [List.forall_mem_cons]
    exact ⟨.int _, .int _, List.forall_mem_nil _⟩
  refine .record ?_
  simp only [List.forall_mem_cons]
  exact ⟨.ofNat _, .bool _, .ofList fun a _ => point a, .ofString _, List.forall_mem_nil _⟩

theorem parse?_printed (ys : List Routed) :
    Json.parse? (printed (.array (ys.map Routed.toJson))) = some (.array (ys.map Routed.toJson)) := by
  have written : (Json.array (ys.map Routed.toJson)).Written :=
    .array (List.forall_mem_map.2 fun y _ => y.written)
  exact written.parse?_pretty "\n" rfl

def Request.settings? (r : Request) (read : String → Option String) : Option CanvasSettings :=
  match r.settings.map read with
  | none => some {}
  | some text => text.bind CanvasSettings.parse?

theorem run_of_route (routes : r.operation = .route) {s : CanvasSettings}
    (there : read r.patch = some text) (parsed : Patch.parse? text = some p)
    (asked : r.settings? read = some s) : r.run read = route p s r.output := by
  simp only [Request.run, there, Option.bind_some, parsed, routes]
  cases chosen : r.settings with
  | none =>
    obtain rfl : {} = s := by simpa [Request.settings?, chosen] using asked
    rfl
  | some name =>
    have asked : (read name).bind CanvasSettings.parse? = some s := by
      simpa [Request.settings?, chosen] using asked
    simp only [asked]

theorem of_run_route (routes : r.operation = .route) (done : (r.run read).exit = 0) :
    ∃ text p s, read r.patch = some text ∧ Patch.parse? text = some p ∧
      r.settings? read = some s := by
  cases found : (read r.patch).bind Patch.parse? with
  | none => simp [Request.run, found, failure] at done
  | some p =>
    obtain ⟨text, there, parsed⟩ := Option.bind_eq_some_iff.1 found
    cases asked : r.settings? read with
    | some s => exact ⟨text, p, s, there, parsed, rfl⟩
    | none =>
      cases chosen : r.settings with
      | none => simp [Request.settings?, chosen] at asked
      | some name =>
        have asked : (read name).bind CanvasSettings.parse? = none := by
          simpa [Request.settings?, chosen] using asked
        simp [Request.run, found, routes, chosen, asked, failure] at done

theorem exit_run (routes : r.operation = .route) (fits : p.Fits) {s : CanvasSettings}
    (there : read r.patch = some p.print) (asked : r.settings? read = some s) :
    (r.run read).exit = 0 := by
  obtain ⟨q, same, parsed⟩ : ∃ q : Patch, q.toContents = p.toContents ∧
      Patch.parse? p.print = some q :=
    ⟨{ toContents := p.toContents, next := max p.next (p.highest?.getD 0 + 1) }, rfl,
      Patch.parse?_print fits⟩
  obtain ⟨_, -, -, routed⟩ := route_eq q s r.output
  rw [run_of_route routes there parsed asked, routed]

theorem route_again (nodup : (keys p.nodes).Nodup) {settings : CanvasSettings}
    (contents : q.toContents = p.toContents.setTokens ((routings settings p).map Routed.entry))
    (next : q.next = p.next) (output : Option String) :
    route { toContents := q.toContents, next := q.next } settings output = route p settings output := by
  have alike : q.toContents.Alike p.toContents := contents ▸ Contents.alike_setTokens _ _
  obtain ⟨q₁, contents₁, next₁, first⟩ := route_eq p settings output
  obtain ⟨q₂, contents₂, next₂, second⟩ :=
    route_eq { toContents := q.toContents, next := q.next } settings output
  have same : routings settings { toContents := q.toContents, next := q.next } = routings settings p :=
    routings_congr (p := p) ⟨alike.1.symm, alike.2.symm⟩ settings
  have print : q₂.print = q₁.print := by
    refine print_congr ?_ (next₂.trans (next.trans next₁.symm))
    rw [contents₂, contents₁, same, contents,
      Contents.setTokens_setTokens (nodup_routings settings nodup)]
  rw [first, second, same, print]

/-- What is printed of a cable is what the saved patch has for the first wire of its handle: the points
of a route that bends, as long as they are numbers of 32 bits, or nothing. And a second run over the
saved patch, with the same settings, comes to the same. -/
theorem route_agrees (r : Request) (read : String → Option String) (routes : r.operation = .route)
    (done : (r.run read).exit = 0) (name : String) (saves : r.output = some name) :
    ∃ (ys : List Routed) (text : String) (q : Patch),
      r.run read =
        { exit := 0, output := printed (.array (ys.map Routed.toJson)), file := some (name, text) } ∧
      Json.parse? (r.run read).output = some (.array (ys.map Routed.toJson)) ∧
      Patch.parse? text = some q ∧
      (∀ y ∈ ys, ∃ w, q.wire? y.handle = some w ∧ w.token = y.token ∧
        (y.segmented = true → Token.Fits y.points → Token.decode y.token = .ok y.points) ∧
        (y.segmented = false → y.token = "")) ∧
      ∀ (again : Request) (read' : String → Option String), again.operation = .route →
        read' again.patch = some text → again.settings.map read' = r.settings.map read →
        again.output = r.output → again.run read' = r.run read := by
  obtain ⟨text, p, settings, there, parsed, asked⟩ := of_run_route routes done
  have ran := run_of_route routes there parsed asked
  have fits := (Patch.of_parse? parsed).1
  obtain ⟨q, contents, next, routed⟩ := route_eq p settings r.output
  have tokens := nodup_routings settings fits.nodup
  have alike : q.toContents.Alike p.toContents := contents ▸ Contents.alike_setTokens _ _
  have saved := parse?_print_of_alike parsed alike next
  have outcome := ran.trans routed
  rw [saves, Option.map_some] at outcome
  refine ⟨routings settings p, q.print, _, outcome, ?_, saved, ?_, ?_⟩
  · rw [outcome]
    exact parse?_printed _
  · intro y there
    obtain ⟨w, listed⟩ := wire?_routings settings fits.nodup y there
    have token := Contents.token_setTokens tokens p.toContents listed
    have entry : get? ((routings settings p).map Routed.entry) y.handle = some y.token :=
      Keyed.get?_of_mem tokens (List.mem_map_of_mem there)
    rw [entry, Option.getD_some, ← contents] at token
    obtain ⟨v, found, same⟩ := Option.map_eq_some_iff.1 token
    obtain ⟨x, -, shown⟩ := List.mem_filterMap.1 there
    refine ⟨v, found, same, ?_, ?_⟩
    · intro bent fits
      obtain ⟨-, valid, token⟩ | ⟨straight, -⟩ := (Scene.of_routed? shown).2
      · rw [token, Token.decode_encode fits, if_pos valid]
      · exact absurd bent (by simp [straight])
    · intro straight
      obtain ⟨bent, -, -⟩ | ⟨-, token⟩ := (Scene.of_routed? shown).2
      · exact absurd straight (by simp [bent])
      · exact token
  · intro again read' routes' there same output
    have asked' : again.settings? read' = some settings := by
      rw [← asked, Request.settings?, Request.settings?, same]
    rw [run_of_route routes' there saved asked', ran, output]
    exact route_again fits.nodup contents next r.output

/-- A cable that has to go around its boxes, a second wire of its handle, and one that leads nowhere,
each with a token from before. -/
def knotted : Patch where
  nodes := [(1, ⟨"osc~", ⟨100, 200, 60, 20⟩, [], [true]⟩),
    (2, ⟨"dac~", ⟨100, 0, 60, 20⟩, [true, true], []⟩)]
  wires := [⟨5, ⟨1, 0, 2, 0⟩, "AA=="⟩, ⟨5, ⟨1, 0, 2, 1⟩, "x"⟩, ⟨6, ⟨1, 0, 9, 0⟩, "y"⟩]
  next := 7

theorem route_agrees_knotted :
    let request : Request := ⟨.route, "in", none, some "out"⟩
    let read := fun _ : String => some knotted.print
    (request.run read).exit = 0 ∧ ∃ (ys : List Routed) (text : String) (q : Patch),
      request.run read = { exit := 0, output := printed (.array (ys.map Routed.toJson))
                           file := some ("out", text) } ∧
      Patch.parse? text = some q ∧
      (∃ y ∈ ys, y.handle = 5 ∧ y.segmented = true ∧ Token.Fits y.points ∧
        (q.wire? 5).map Wire.token = some y.token ∧ Token.decode y.token = .ok y.points) ∧
      request.run (fun _ => some text) = request.run read := by
  intro request read
  have fits : knotted.Fits := ⟨by decide, by decide, by decide, by decide, by decide⟩
  have done : (request.run read).exit = 0 := exit_run rfl fits rfl rfl
  obtain ⟨ys, text, q, outcome, print, saved, agrees, again⟩ :=
    route_agrees request read rfl done "out" rfl
  -- What is printed says which cables they are.
  have all : ys = routings {} knotted := by
    obtain ⟨_, -, -, routed⟩ := route_eq knotted {} (some "out")
    have ran : request.run read = route knotted {} (some "out") :=
      run_of_route rfl rfl (Patch.parse?_print fits) rfl
    rw [ran, routed] at print
    have same := Json.array.inj (Option.some.inj (print.symm.trans (parse?_printed _)))
    exact Routed.toJson_injective.list_map same
  have bends : ∃ y ∈ routings {} knotted, y.handle = 5 ∧ y.segmented = true ∧
      (∀ a ∈ y.points, a.Fits) ∧ y.points.length < 2 ^ 64 := by decide +kernel
  obtain ⟨y, there, five, bent, points, length⟩ := bends
  obtain ⟨w, listed, same, decoded, -⟩ := agrees y (all ▸ there)
  rw [five] at listed
  have found : (q.wire? 5).map Wire.token = some y.token := by rw [listed, Option.map_some, same]
  have back := again request (fun _ => some text) rfl rfl (by simp only [request, Option.map_none])
  exact ⟨done, ys, text, q, outcome, saved,
    ⟨y, all ▸ there, five, bent, ⟨points, length⟩, found, decoded bent ⟨points, length⟩⟩, back rfl⟩

end CommandLine

end Patchbay
