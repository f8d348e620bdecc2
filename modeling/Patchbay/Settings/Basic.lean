/-!
Preferences for snapping and for routing, with their defaults.
-/

namespace Patchbay

inductive SnapMode where
  | off
  | objects
  | grid
  | both
  deriving DecidableEq, Repr, Inhabited

namespace SnapMode

/-- The mode of a numeric preference; an unknown number turns snapping off. -/
def ofNumber : Nat → SnapMode
  | 1 => objects
  | 2 => grid
  | 3 => both
  | _ => off

def snapsToObjects : SnapMode → Bool
  | objects | both => true
  | off | grid => false

def snapsToGrid : SnapMode → Bool
  | grid | both => true
  | off | objects => false

def name : SnapMode → String
  | off => "off"
  | objects => "objects"
  | grid => "grid"
  | both => "both"

def all : List SnapMode := [off, objects, grid, both]

def ofName? (s : String) : Option SnapMode := all.find? (·.name == s)

end SnapMode

structure SnapSettings where
  mode : SnapMode := .both
  size : Int := 25
  /-- Largest distance at which two features snap together. -/
  tolerance : Int := 4
  /-- Largest distance at which a snap that was made is kept. -/
  releaseRange : Int := 7
  snapEdges : Bool := true
  snapCentres : Bool := true
  snapConnections : Bool := true
  deriving DecidableEq, Repr, Inhabited

structure RoutingSettings where
  maxBends : Nat := 6
  maxExpansions : Nat := 20000
  /-- Least distance between lattice lines. -/
  minLatticeStep : Int := 20
  /-- Lattice lines past each anchor. -/
  latticePadding : Int := 2
  hitTolerance : Int := 3
  /-- Milliseconds that edits of a cable wait to be written together. -/
  updateDelay : Nat := 50
  queueCapacity : Nat := 64
  /-- Whether a move also reroutes the straight cables that cross a box. -/
  autoRouteOnOverlap : Bool := false
  deriving DecidableEq, Repr, Inhabited

structure CanvasSettings where
  snap : SnapSettings := {}
  routing : RoutingSettings := {}
  deriving DecidableEq, Repr, Inhabited

end Patchbay
