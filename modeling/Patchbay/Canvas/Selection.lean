import Patchbay.Scene.Basic

/-!
Selected boxes and cables, each in the order in which they were chosen, and the lasso.
-/

namespace Patchbay

structure Lasso where
  start : Point
  stop : Point
  deriving DecidableEq, Repr, Inhabited

def Lasso.rect (l : Lasso) : Rect := Rect.ofCorners l.start l.stop

/-- A lasso of less than three pixels both ways selects nothing. -/
def Lasso.isMeaningful (l : Lasso) : Bool := 3 ≤ l.rect.width || 3 ≤ l.rect.height

structure Selection where
  boxes : List Nat := []
  cables : List Nat := []
  lasso : Option Lasso := none
  deriving DecidableEq, Repr, Inhabited

namespace Selection

def isEmpty (s : Selection) : Bool := s.boxes.isEmpty && s.cables.isEmpty

def onlyBox (s : Selection) (key : Nat) : Selection := { s with boxes := [key], cables := [] }
def onlyCable (s : Selection) (key : Nat) : Selection := { s with boxes := [], cables := [key] }

/-- Takes a key out of a list, or puts it last. -/
def toggle (key : Nat) (keys : List Nat) : List Nat :=
  if keys.contains key then keys.erase key else keys ++ [key]

def toggleBox (s : Selection) (key : Nat) : Selection := { s with boxes := toggle key s.boxes }
def toggleCable (s : Selection) (key : Nat) : Selection := { s with cables := toggle key s.cables }

def removeBox (s : Selection) (key : Nat) : Selection :=
  { s with boxes := s.boxes.filter (· != key) }

def meets (scene : Scene) (r : Rect) (c : Cable) : Bool :=
  match scene.ends? c with
  | none => false
  | some (start, stop) =>
    (segments (c.route.polyline start stop)).any fun s =>
      r.contains s.start || r.contains s.stop || s.crosses r

def closeLasso (s : Selection) (scene : Scene) : Selection × Nat :=
  match s.lasso with
  | none => (s, 0)
  | some l =>
    if l.isMeaningful then
      let boxes := Keyed.keys (scene.boxes.filter fun e => e.2.bounds.intersects l.rect)
      let cables := Keyed.keys (scene.cables.filter fun e => meets scene l.rect e.2)
      (⟨boxes, cables, none⟩, boxes.length + cables.length)
    else ({ s with lasso := none }, 0)

def retain (s : Selection) (scene : Scene) : Selection :=
  { s with
    boxes := s.boxes.filter fun k => (scene.box? k).isSome
    cables := s.cables.filter fun k => (scene.cable? k).isSome }

def mark (s : Selection) (scene : Scene) : Scene :=
  (scene.mapBoxes fun k b => { b with selected := s.boxes.contains k }).mapCables fun k c =>
    { c with selected := s.cables.contains k }

end Selection

end Patchbay
