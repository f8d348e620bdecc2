import Patchbay.Route.Plan
import Patchbay.Geometry.Distance

/-!
The way a cable takes between its two anchors: straight, or along a plan.
-/

namespace Patchbay

inductive Route where
  | straight
  | segmented (plan : Plan)
  deriving DecidableEq, Repr, Inhabited

namespace Route

def isSegmented : Route → Bool
  | straight => false
  | segmented _ => true

def polyline (r : Route) (start stop : Point) : List Point :=
  match r with
  | straight => [start, stop]
  | segmented ps => ps

def ofPlan (ps : Plan) : Route := if ps.isValid then segmented ps else straight

/-- Follows the anchors after they moved. A route that is no plan, or no longer one with its
ends moved, becomes straight. -/
def reanchor (r : Route) (start stop : Point) : Route :=
  match r with
  | straight => straight
  | segmented ps => if ps.isValid then ofPlan (ps.anchor start stop) else straight

@[simp] theorem reanchor_straight (a b : Point) : straight.reanchor a b = straight := rfl

/-- Control points of the curve drawn for a straight cable: it pulls down from the outlet and
up from the inlet by half the height between, kept from 10 to 100. -/
def curve (start stop : Point) : List Point :=
  if (stop.x - start.x).natAbs < 2 then [start, start, stop, stop]
  else
    let pull : Int := max 10 (min ((stop.y - start.y).natAbs / 2 : Nat) 100)
    [start, ⟨start.x, start.y + pull⟩, ⟨stop.x, stop.y - pull⟩, stop]

/-- Keeps the nearer of the piece held so far and the next one, the earlier of two equally near. -/
def nearer (position : Point) (tolerance : Int) (held : Option (Nat × Rat)) (piece : Segment × Nat) :
    Option (Nat × Rat) :=
  let d := piece.1.distance position
  if Single.ofInt tolerance < d then held
  else match held with
    | some (_, best) => if d < best then some (piece.2, d) else held
    | none => some (piece.2, d)

def pieceAt (points : List Point) (position : Point) (tolerance : Int) : Option Nat :=
  ((segments points).zipIdx.foldl (nearer position tolerance) none).map (·.1)

end Route

end Patchbay
