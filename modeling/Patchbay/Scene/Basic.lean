import Patchbay.Arena
import Patchbay.Scene.Box
import Patchbay.Route.Basic

/-!
Scenes: the boxes and cables of a canvas, each in an arena of their own, and the order in which
boxes and labels are stacked.

A cable names its jacks and looks them up anew each time, so a jack that is gone reads as gone.
-/

namespace Patchbay

structure Cable where
  handle : Nat
  outlet : JackRef
  inlet : JackRef
  route : Route := .straight
  /-- The token last read from the document or last queued for it. -/
  token : String := ""
  /-- The token waits to be written. -/
  unsaved : Bool := false
  selected : Bool := false
  /-- The pointer is over it. -/
  hovered : Bool := false
  deriving DecidableEq, Repr, Inhabited

def Cable.touches (c : Cable) (box : Nat) : Bool := c.outlet.box == box || c.inlet.box == box

def Cable.touchesAny (c : Cable) (boxes : List Nat) : Bool := boxes.any c.touches

inductive Layer where
  | box (key : Nat)
  | label (key : Nat)
  deriving DecidableEq, Repr, Inhabited

def Layer.key : Layer → Nat
  | box k | label k => k

structure Scene where
  boxArena : Arena Box := {}
  cableArena : Arena Cable := {}
  /-- Lowest first. -/
  layers : List Layer := []
  deriving DecidableEq, Repr, Inhabited

namespace Scene

def boxes (s : Scene) : Keyed Box := s.boxArena.entries

def cables (s : Scene) : Keyed Cable := s.cableArena.entries

def nextBox (s : Scene) : Nat := s.boxArena.next
def nextCable (s : Scene) : Nat := s.cableArena.next

def box? (s : Scene) (key : Nat) : Option Box := s.boxArena.get? key
def cable? (s : Scene) (key : Nat) : Option Cable := s.cableArena.get? key

def updateBox (s : Scene) (key : Nat) (f : Box → Box) : Scene :=
  { s with boxArena := s.boxArena.update key f }

def updateCable (s : Scene) (key : Nat) (f : Cable → Cable) : Scene :=
  { s with cableArena := s.cableArena.update key f }

def mapBoxes (s : Scene) (f : Nat → Box → Box) : Scene :=
  { s with boxArena := s.boxArena.mapValues f }

def mapCables (s : Scene) (f : Nat → Cable → Cable) : Scene :=
  { s with cableArena := s.cableArena.mapValues f }

def updateBoxes (s : Scene) (keys : List Nat) (f : Box → Box) : Scene :=
  s.mapBoxes fun k b => if keys.contains k then f b else b

def boxOf? (s : Scene) (handle : Nat) : Option Nat :=
  (s.boxes.find? fun e => e.2.handle == some handle).map (·.1)

def cableOf? (s : Scene) (handle : Nat) : Option Nat :=
  (s.cables.find? fun e => e.2.handle == handle).map (·.1)

def cablesAt (s : Scene) (box : Nat) : List Nat :=
  Keyed.keys (s.cables.filter fun e => e.2.touches box)

def hasCable (s : Scene) (outlet inlet : JackRef) : Bool :=
  s.cables.any fun e => e.2.outlet == outlet && e.2.inlet == inlet

def jack? (s : Scene) (p : JackRef) : Option Jack :=
  (s.box? p.box).bind fun b => b.jack? p.side p.index

def jackBounds? (s : Scene) (p : JackRef) : Option Rect :=
  (s.box? p.box).bind fun b => (b.jack? p.side p.index).map b.jackBounds

def anchor? (s : Scene) (p : JackRef) : Option Point := (s.jackBounds? p).map Rect.centre

def ends? (s : Scene) (c : Cable) : Option (Point × Point) := do
  let start ← s.anchor? c.outlet
  let stop ← s.anchor? c.inlet
  return (start, stop)

def anchors? (s : Scene) (key : Nat) : Option (Point × Point) := (s.cable? key).bind s.ends?

def obstacles (s : Scene) (exclude : List Nat) : List Rect :=
  (s.boxes.filter fun e => !exclude.contains e.1).map fun e => e.2.bounds

def updateJack (s : Scene) (p : JackRef) (f : Jack → Jack) : Scene :=
  s.updateBox p.box fun b => b.mapJack p.side p.index f

def layersOf (key : Nat) (b : Box) : List Layer :=
  if b.widget.hasLabel then [.box key, .label key] else [.box key]

def addBox (s : Scene) (b : Box) : Nat × Scene :=
  (s.nextBox,
    { s with
      boxArena := s.boxArena.insert b
      layers := s.layers ++ layersOf s.nextBox b })

def removeBox (s : Scene) (key : Nat) : Scene :=
  match s.box? key with
  | none => s
  | some _ =>
    { s with
      boxArena := s.boxArena.remove key
      layers := s.layers.filter fun l => l.key != key }

def raise (s : Scene) (key : Nat) : Scene :=
  match s.box? key with
  | some b => { s with layers := s.layers.filter (fun l => l.key != key) ++ layersOf key b }
  | none => s

/-- Whether a place in the document comes before another or with it. No place comes last. -/
def comesBefore : Option Nat → Option Nat → Bool
  | some i, some j => i ≤ j
  | none, some _ => false
  | _, none => true

def place? (s : Scene) (key : Nat) : Option Nat := (s.box? key).bind Box.index

def insertByPlace (s : Scene) (key : Nat) : List Nat → List Nat
  | [] => [key]
  | k :: rest =>
    if comesBefore (s.place? key) (s.place? k) then key :: k :: rest
    else k :: s.insertByPlace key rest

def sortBoxes (s : Scene) : Scene :=
  { s with boxArena := { s.boxArena with order := s.boxArena.order.foldr s.insertByPlace [] } }

def addCable (s : Scene) (c : Cable) : Scene := { s with cableArena := s.cableArena.insert c }

def removeCable (s : Scene) (key : Nat) : Scene := { s with cableArena := s.cableArena.remove key }

/-- Puts a cable in the place of another, under a key of its own. -/
def replaceCable (s : Scene) (key : Nat) (c : Cable) : Scene :=
  { s with cableArena := s.cableArena.replace key c }

/-- Takes out the cables that are not to be kept, and says how many. -/
def retainCables (s : Scene) (keep : Cable → Bool) : Scene × Nat :=
  let doomed := Keyed.keys (s.cables.filter fun e => !keep e.2)
  (doomed.foldl removeCable s, doomed.length)

def isWired (s : Scene) (c : Cable) : Bool := (s.jack? c.outlet).isSome && (s.jack? c.inlet).isSome

def targetedCount (s : Scene) : Nat :=
  (s.boxes.flatMap fun e => e.2.jackList).countP Jack.targeted

@[simp] theorem box?_updateCable (s : Scene) (k b : Nat) (f : Cable → Cable) :
    (s.updateCable k f).box? b = s.box? b := rfl

@[simp] theorem cable?_updateBox (s : Scene) (k c : Nat) (f : Box → Box) :
    (s.updateBox k f).cable? c = s.cable? c := rfl

theorem cable?_updateCable_self {s : Scene} {k : Nat} {c : Cable} (found : s.cable? k = some c)
    (f : Cable → Cable) : (s.updateCable k f).cable? k = some (f c) :=
  Arena.get?_update_self.trans (congrArg (Option.map f) found)

theorem cable?_updateCable_ne {s : Scene} {j k : Nat} (other : j ≠ k) (f : Cable → Cable) :
    (s.updateCable k f).cable? j = s.cable? j :=
  Arena.get?_update_ne other

theorem anchors?_updateRoute (s : Scene) (key : Nat) (r : Route) :
    (s.updateCable key fun c => { c with route := r }).anchors? key = s.anchors? key := by
  rw [anchors?, cable?, updateCable, Arena.get?_update_self, anchors?, cable?]
  cases s.cableArena.get? key <;> rfl

end Scene

end Patchbay
