import Patchbay.Scene.Basic

/-!
What lies under the cursor: boxes, cables and jacks, the topmost first.
-/

namespace Patchbay.Scene

def stacked (s : Scene) : List Nat := s.layers.reverse.map Layer.key

def boxAt? (s : Scene) (position : Point) : Option Nat :=
  s.stacked.find? fun key => (s.box? key).any fun b => b.bounds.contains position

/-- The last drawn cable near a position, and which of its pieces is near. -/
def cableAt? (s : Scene) (position : Point) (tolerance : Int) : Option (Nat × Nat) :=
  s.cables.reverse.findSome? fun (key, c) => do
    let (start, stop) ← s.ends? c
    let piece ← Route.pieceAt (c.route.polyline start stop) position tolerance
    return (key, piece)

def jackOfBoxAt? (key : Nat) (b : Box) (position : Point) : Option JackRef :=
  if b.widget.showsJacks then
    (b.labelledJacks.find? fun (_, _, p) => (b.jackBounds p).contains position).map
      fun (side, i, _) => ⟨key, side, i⟩
  else none

def jackAt? (s : Scene) (position : Point) : Option JackRef :=
  s.stacked.findSome? fun key => (s.box? key).bind fun b => jackOfBoxAt? key b position

def targetRange : Int := 150

def jacksInRange (s : Scene) (position : Point) (side : Side) (exclude : Nat) :
    List (JackRef × Rat) :=
  s.boxes.flatMap fun (key, b) =>
    if key = exclude || !b.widget.showsJacks then []
    else (b.group side).filterMap fun p =>
      let bounds := b.jackBounds p
      if (bounds.expanded targetRange).contains position then
        some (⟨key, side, p.index⟩, bounds.centre.distance position)
      else none

/-- The nearest of the jacks in range, the first of equally near ones. -/
def nearestJack? (s : Scene) (position : Point) (side : Side) (exclude : Nat) : Option JackRef :=
  let nearer (held : Option (JackRef × Rat)) (next : JackRef × Rat) :=
    match held with
    | some (_, best) => if next.2 < best then some next else held
    | none => some next
  ((s.jacksInRange position side exclude).foldl nearer none).map (·.1)

end Patchbay.Scene
