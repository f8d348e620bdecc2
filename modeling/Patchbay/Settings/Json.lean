import Patchbay.Settings.Basic
import Patchbay.Json.Record
import Patchbay.Json.Printer

/-!
Settings as JSON. Every field may be left out and then has its default.
-/

namespace Patchbay

open Json (required optional asBool? asInt32? asNat64?)

def SnapSettings.names : List String :=
  ["mode", "size", "tolerance", "release_range", "snap_edges", "snap_centres", "snap_connections"]

def SnapSettings.ofJson? (j : Json) : Option SnapSettings := do
  let base : SnapSettings := {}
  match ← j.fields? names with
  | [mode, size, tolerance, release, edges, centres, connections] =>
    return {
      mode := ← optional (fun j => j.asName?.bind SnapMode.ofName?) base.mode mode
      size := ← optional asInt32? base.size size
      tolerance := ← optional asInt32? base.tolerance tolerance
      releaseRange := ← optional asInt32? base.releaseRange release
      snapEdges := ← optional asBool? base.snapEdges edges
      snapCentres := ← optional asBool? base.snapCentres centres
      snapConnections := ← optional asBool? base.snapConnections connections }
  | _ => none

def SnapSettings.toJson (s : SnapSettings) : Json :=
  .record [("mode", .ofString s.mode.name), ("size", .ofInt s.size),
    ("tolerance", .ofInt s.tolerance), ("release_range", .ofInt s.releaseRange),
    ("snap_edges", .bool s.snapEdges), ("snap_centres", .bool s.snapCentres),
    ("snap_connections", .bool s.snapConnections)]

def RoutingSettings.names : List String :=
  ["max_bends", "max_expansions", "min_lattice_step", "lattice_padding", "hit_tolerance",
    "update_delay_ms", "queue_capacity", "auto_route_on_overlap"]

def RoutingSettings.ofJson? (j : Json) : Option RoutingSettings := do
  let base : RoutingSettings := {}
  match ← j.fields? names with
  | [bends, expansions, step, padding, hit, delay, capacity, overlap] =>
    return {
      maxBends := ← optional asNat64? base.maxBends bends
      maxExpansions := ← optional asNat64? base.maxExpansions expansions
      minLatticeStep := ← optional asInt32? base.minLatticeStep step
      latticePadding := ← optional asInt32? base.latticePadding padding
      hitTolerance := ← optional asInt32? base.hitTolerance hit
      updateDelay := ← optional asNat64? base.updateDelay delay
      queueCapacity := ← optional asNat64? base.queueCapacity capacity
      autoRouteOnOverlap := ← optional asBool? base.autoRouteOnOverlap overlap }
  | _ => none

def RoutingSettings.toJson (s : RoutingSettings) : Json :=
  .record [("max_bends", .ofNat s.maxBends), ("max_expansions", .ofNat s.maxExpansions),
    ("min_lattice_step", .ofInt s.minLatticeStep), ("lattice_padding", .ofInt s.latticePadding),
    ("hit_tolerance", .ofInt s.hitTolerance), ("update_delay_ms", .ofNat s.updateDelay),
    ("queue_capacity", .ofNat s.queueCapacity),
    ("auto_route_on_overlap", .bool s.autoRouteOnOverlap)]

namespace CanvasSettings

def names : List String := ["grid", "routing"]

def ofJson? (j : Json) : Option CanvasSettings := do
  match ← j.fields? names with
  | [snap, routing] =>
    return {
      snap := ← optional SnapSettings.ofJson? {} snap
      routing := ← optional RoutingSettings.ofJson? {} routing }
  | _ => none

def toJson (s : CanvasSettings) : Json :=
  .record [("grid", s.snap.toJson), ("routing", s.routing.toJson)]

def parse? (text : String) : Option CanvasSettings := (Json.parse? text).bind ofJson?

end CanvasSettings

end Patchbay
