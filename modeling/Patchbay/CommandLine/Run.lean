import Patchbay.Canvas.Sync
import Patchbay.CommandLine.Arguments
import Patchbay.Patch.Json
import Patchbay.Settings.Json

/-!
What the command line does for a request: it answers with an exit code, a text to print and a
file to write, from the texts of the files that it reads.
-/

namespace Patchbay

def SyncReport.toJson (r : SyncReport) : Json :=
  .record [("objects_added", .ofNat r.boxesAdded), ("objects_updated", .ofNat r.boxesUpdated),
    ("objects_removed", .ofNat r.boxesRemoved), ("connections_added", .ofNat r.cablesAdded),
    ("connections_replaced", .ofNat r.cablesReplaced),
    ("connections_rerouted", .ofNat r.cablesRerouted),
    ("connections_removed", .ofNat r.cablesRemoved), ("skipped", .ofNat r.skipped)]

namespace CommandLine

structure Outcome where
  exit : Nat
  output : String := ""
  /-- Name and text of a file to write. -/
  file : Option (String × String) := none
  deriving DecidableEq, Repr, Inhabited

def failure : Outcome := { exit := 1 }

def printed (j : Json) : String := j.pretty ++ "\n"

/-- A cable as it is printed: its handle, the points it runs through and its token. -/
def cableJson? (scene : Scene) (c : Cable) : Option Json := do
  let (start, stop) ← scene.ends? c
  return .record [("handle", .ofNat c.handle), ("segmented", .bool c.route.isSegmented),
    ("points", .ofList Point.toJson (c.route.polyline start stop)),
    ("path_state", .ofString c.token)]

def routeAll (c : Canvas) (p : Patch) : Canvas × Patch :=
  let (c, p) := (Keyed.keys c.scene.cables).foldl
    (fun (state : Canvas × Patch) key =>
      let (c, p, _) := state.1.routeCable state.2 key 0
      (c, p)) (c, p)
  let (c, p, _) := c.flushTokens p
  (c, p)

def route (p : Patch) (settings : CanvasSettings) (output : Option String) : Outcome :=
  let (c, p, _) := (Canvas.ofSettings settings).sync p
  let (c, p) := routeAll c p
  { exit := 0
    output := printed (.array (c.scene.cables.filterMap fun e => cableJson? c.scene e.2))
    file := output.map fun name => (name, p.print) }

def inspect (p : Patch) : Outcome :=
  let (c, _, report) := (Canvas.ofSettings {}).sync p
  { exit := 0
    output := printed (.record [("objects", .ofNat c.scene.boxes.length),
      ("connections", .ofNat c.scene.cables.length), ("report", report.toJson)]) }

/-- Does what is asked for; `read` gives the texts of files. -/
def Request.run (r : Request) (read : String → Option String) : Outcome :=
  match (read r.patch).bind Patch.parse? with
  | none => failure
  | some p =>
    match r.operation with
    | .inspect => inspect p
    | .route =>
      match r.settings with
      | none => route p {} r.output
      | some name =>
        match (read name).bind CanvasSettings.parse? with
        | none => failure
        | some settings => route p settings r.output

def run (args : List String) (read : String → Option String) : Outcome :=
  match Request.ofArguments args with
  | .ok r => r.run read
  | .error .helpWanted => { exit := 0 }
  | .error .wrongUsage => { exit := 2 }

end CommandLine

end Patchbay
