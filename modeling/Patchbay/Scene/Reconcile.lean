import Patchbay.Scene.Basic
import Patchbay.Token.Basic

/-!
Bringing a scene in line with a document.

What the document no longer lists goes first. Then boxes are made or refreshed in the order of
the document, and only then cables, because their ends depend on the jacks of the boxes. What
stays keeps its key.
-/

namespace Patchbay

structure SyncReport where
  boxesAdded : Nat := 0
  boxesUpdated : Nat := 0
  boxesRemoved : Nat := 0
  cablesAdded : Nat := 0
  cablesReplaced : Nat := 0
  cablesRerouted : Nat := 0
  cablesRemoved : Nat := 0
  /-- Wires whose ends are not in the scene. -/
  skipped : Nat := 0
  deriving DecidableEq, Repr, Inhabited

def SyncReport.isNoop (r : SyncReport) : Bool :=
  r.boxesAdded + r.boxesUpdated + r.boxesRemoved + r.cablesAdded + r.cablesReplaced
    + r.cablesRerouted + r.cablesRemoved == 0

namespace Listing

def firstNodes : (seen : List Nat) → List NodeEntry → List NodeEntry
  | _, [] => []
  | seen, e :: rest =>
    if seen.contains e.handle then firstNodes seen rest
    else e :: firstNodes (e.handle :: seen) rest

def firstWires : (seen : List Nat) → List WireEntry → List WireEntry
  | _, [] => []
  | seen, e :: rest =>
    if seen.contains e.handle then firstWires seen rest
    else e :: firstWires (e.handle :: seen) rest

def hasNode (l : Listing) (handle : Nat) : Bool := l.nodes.any (·.handle == handle)

end Listing

namespace Scene

/-- Whether a box is kept: one that is being typed always, any other while its node is listed. -/
def isLive (l : Listing) (b : Box) : Bool := b.editing || b.handle.any l.hasNode

/-- Takes out the cables that are not to be kept, and counts them. -/
def purgeCables (keep : Scene → Cable → Bool) (state : Scene × SyncReport) : Scene × SyncReport :=
  let (s, report) := state
  let (s, count) := s.retainCables (keep s)
  (s, { report with cablesRemoved := report.cablesRemoved + count })

def purgeBox (state : Scene × SyncReport) (key : Nat) : Scene × SyncReport :=
  let (s, report) := state
  (s.removeBox key, { report with boxesRemoved := report.boxesRemoved + 1 })

/-- Takes out the boxes whose nodes are gone, and counts them one by one. -/
def purgeBoxes (l : Listing) (state : Scene × SyncReport) : Scene × SyncReport :=
  let stale := Keyed.keys (state.1.boxes.filter fun e => !isLive l e.2)
  stale.foldl purgeBox state

def purge (l : Listing) (state : Scene × SyncReport) : Scene × SyncReport :=
  purgeCables isWired (purgeBoxes l (purgeCables (fun _ c => l.hasWire c.handle) state))

/-- The box that shows a node, the last of several. -/
def ownerOf? (s : Scene) (handle : Nat) : Option Nat :=
  (s.boxes.reverse.find? fun e => e.2.handle == some handle).map (·.1)

def showNode (l : Listing) (state : Scene × SyncReport) (e : NodeEntry) : Scene × SyncReport :=
  let (s, report) := state
  match l.info e.handle with
  | none => (s, report)
  | some info =>
    match s.ownerOf? e.handle with
    | some key =>
      let stale := (s.box? key).any fun b => b.isStale info
      let s := s.updateBox key fun b => { b.refresh info with index := some e.index }
      (s.raise key,
        if stale then { report with boxesUpdated := report.boxesUpdated + 1 } else report)
    | none =>
      let (key, s) := s.addBox (Box.ofInfo e.handle info e.index)
      (s.raise key, { report with boxesAdded := report.boxesAdded + 1 })

def showNodes (l : Listing) (state : Scene × SyncReport) : Scene × SyncReport :=
  (Listing.firstNodes [] l.nodes).foldl (showNode l) state

/-- The jack that one end of a wire stands for, given the boxes that show the nodes. -/
def resolve? (s : Scene) (owner : Nat → Option Nat) (handle : Nat) (side : Side) (index : Nat) :
    Option JackRef := do
  let key ← owner handle
  let b ← s.box? key
  if (b.jack? side index).isSome then return ⟨key, side, index⟩ else none

def resolveEnds? (s : Scene) (owner : Nat → Option Nat) (e : Ends) : Option (JackRef × JackRef) := do
  let outlet ← s.resolve? owner e.outletOwner .outlet e.outlet
  let inlet ← s.resolve? owner e.inletOwner .inlet e.inlet
  return (outlet, inlet)

def newCable (s : Scene) (handle : Nat) (outlet inlet : JackRef) (token : String) : Cable :=
  let bare : Cable := { handle := handle, outlet := outlet, inlet := inlet, token := token }
  match s.ends? bare with
  | some (start, stop) => { bare with route := Route.ofToken token start stop }
  | none => bare

/-- Takes a new token from the document, unless an edit of the cable waits to be written; else
the route just follows its anchors. -/
def refreshCable (c : Cable) (token : String) (start stop : Point) : Cable :=
  if token ≠ c.token ∧ c.unsaved = false then
    { c with token := token, route := Route.ofToken token start stop }
  else { c with route := c.route.reanchor start stop }

def showWire (l : Listing) (owner : Nat → Option Nat) (state : Scene × SyncReport)
    (e : WireEntry) : Scene × SyncReport :=
  let (s, report) := state
  match s.resolveEnds? owner e.ends with
  | none => (s, { report with skipped := report.skipped + 1 })
  | some (outlet, inlet) =>
    let token := (l.token e.handle).getD ""
    match s.cableOf? e.handle with
    | none =>
      (s.addCable (s.newCable e.handle outlet inlet token),
        { report with cablesAdded := report.cablesAdded + 1 })
    | some key =>
      match s.cable? key with
      | none => (s, report)
      | some c =>
        if c.outlet ≠ outlet ∨ c.inlet ≠ inlet then
          (s.replaceCable key (s.newCable e.handle outlet inlet token),
            { report with cablesReplaced := report.cablesReplaced + 1 })
        else
          match s.ends? c with
          | none => (s, report)
          | some (start, stop) =>
            let fresh := refreshCable c token start stop
            (s.updateCable key fun _ => fresh,
              if fresh.route = c.route then report
              else { report with cablesRerouted := report.cablesRerouted + 1 })

def showWires (l : Listing) (owner : Nat → Option Nat) (state : Scene × SyncReport) :
    Scene × SyncReport :=
  (Listing.firstWires [] l.wires).foldl (showWire l owner) state

def reconcile (l : Listing) (s : Scene) : Scene × SyncReport :=
  let (shown, report) := showNodes l (purge l (s, {}))
  showWires l shown.ownerOf? (purgeCables isWired (shown.sortBoxes, report))

end Scene

end Patchbay
