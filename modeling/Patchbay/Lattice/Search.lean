import Patchbay.Lattice.Lines
import Patchbay.Route.Basic

/-!
Search for the best route between two anchors around obstacles.

Routes alternate vertical and horizontal pieces along the lines of one lattice. Fewer bends win,
then the shorter walk, then the route met first. The bend limit grows by two until some lattice
has a route; the lattices of one limit share the best route and one budget of visited nodes.
-/

namespace Patchbay.Lattice

structure Score where
  bends : Nat
  length : Nat
  deriving DecidableEq, Repr

/-- Fewer bends, then a shorter walk. -/
def Score.beats (a b : Score) : Bool :=
  a.bends < b.bends || a.bends == b.bends && a.length < b.length

structure Field where
  goal : Point
  obstacles : List Rect
  rows : List Int
  columns : List Int
  maxBends : Nat
  budget : Nat

structure Progress where
  visited : Nat
  best : Option (Score × Plan)

def Progress.isBeatenBy (s : Progress) (score : Score) : Bool :=
  match s.best with
  | none => true
  | some (best, _) => score.beats best

inductive Heading where
  | vertical
  | horizontal
  deriving DecidableEq, Repr

def Heading.turn : Heading → Heading
  | vertical => horizontal
  | horizontal => vertical

namespace Field

def isClear (f : Field) (a b : Point) : Bool :=
  f.obstacles.all fun r => !(Segment.mk a b).crosses r

/-- The fewest bends that a route through a point still needs. -/
def bendsLeft (f : Field) (heading : Heading) (current : Point) : Nat :=
  match heading with
  | .vertical => if current.x = f.goal.x then 0 else 2
  | .horizontal => 1

/-- The points to go to next. The first piece leaves downward; where only one more pair of bends
is left the row has to lie above the goal, and where only one more bend is left the column has
to be the goal's. -/
def moves (f : Field) (heading : Heading) (current : Point) (bends : Nat) : List Point :=
  match heading with
  | .vertical =>
    let rows := f.rows.filter fun y =>
      !(y == current.y || (bends == 0 && decide (y < current.y))
        || (decide (f.maxBends < bends + 4) && decide (f.goal.y ≤ y)))
    (rows.map current.withY).filter (f.isClear current)
  | .horizontal =>
    let columns := f.columns.filter fun x =>
      !(x == current.x || (decide (f.maxBends < bends + 3) && x != f.goal.x))
    (columns.map current.withX).filter (f.isClear current)

/-- A downward run from a point straight into the goal. -/
def finishes (f : Field) (heading : Heading) (current : Point) : Bool :=
  heading = .vertical && current.x = f.goal.x && current.y < f.goal.y && f.isClear current f.goal

def complete (f : Field) (trail : List Point) (score : Score) (s : Progress) : Progress :=
  if s.isBeatenBy score then { s with best := some (score, (f.goal :: trail).reverse) } else s

/-- Visits the routes that go on from `current`, which the points of `trail` lead to, latest
first. `depth` bounds the pieces still to come. -/
def visit (f : Field) : (depth : Nat) → Heading → (current : Point) → (trail : List Point) →
    (length : Nat) → Progress → Progress
  | 0, _, _, _, _, s => s
  | depth + 1, heading, current, trail, length, s =>
    if f.budget ≤ s.visited then s else
    let s := { s with visited := s.visited + 1 }
    let bends := trail.length
    if f.finishes heading current then
      f.complete (current :: trail) ⟨bends, length + current.manhattan f.goal⟩ s
    else
      let least := bends + f.bendsLeft heading current
      if f.maxBends < least then s
      else if !s.isBeatenBy ⟨least, length + current.manhattan f.goal⟩ then s
      else
        (f.moves heading current bends).foldl
          (fun s next =>
            f.visit depth heading.turn next (current :: trail) (length + current.manhattan next) s)
          s

/-- All routes of the lattice from a start, better than what is known. -/
def search (f : Field) (start : Point) (s : Progress) : Progress :=
  f.visit (f.maxBends + 2) .vertical start [] 0 s

end Field

def resolutions : List Nat := [3, 4, 5, 6]

def field (start stop : Point) (obstacles : List Rect) (settings : RoutingSettings)
    (maxBends resolution : Nat) : Field where
  goal := stop
  obstacles := obstacles
  rows := lines start.y stop.y resolution settings
  columns := lines start.x stop.x resolution settings
  maxBends := maxBends
  budget := settings.maxExpansions

def searchAll (start : Point) : List Field → Progress → Progress
  | [], s => s
  | f :: rest, s =>
    let s := f.search start s
    if f.budget ≤ s.visited then s else searchAll start rest s

/-- Raises the bend limit by two as long as nothing is found and the budget and the highest
limit allow it; `rounds` counts the limits left. -/
def deepen (fields : Nat → List Field) (start : Point) (budget : Nat) :
    (rounds limit visited : Nat) → Progress
  | 0, _, visited => ⟨visited, none⟩
  | rounds + 1, limit, visited =>
    let s := searchAll start (fields limit) ⟨visited, none⟩
    if budget ≤ s.visited || s.best.isSome then s
    else deepen fields start budget rounds (limit + 2) s.visited

def explore (start stop : Point) (obstacles : List Rect) (settings : RoutingSettings) : Progress :=
  deepen (fun limit => resolutions.map (field start stop obstacles settings limit))
    start settings.maxExpansions (settings.maxBends / 2 + 1) 0 0

def findPlan (start stop : Point) (obstacles : List Rect) (settings : RoutingSettings) :
    Option Plan :=
  (explore start stop obstacles settings).best.map (·.2)

end Lattice

/-- The best route around the obstacles. A direct run needs no plan, and neither does a search
that found nothing. -/
def Route.around (start stop : Point) (obstacles : List Rect) (settings : RoutingSettings) : Route :=
  match Lattice.findPlan start stop obstacles settings with
  | some ps => if 2 < ps.length then .segmented ps else .straight
  | none => .straight

end Patchbay
