import Patchbay.Geometry.Segment

/-!
Guide lines that fade in while something snaps and fade out afterwards.
-/

namespace Patchbay

structure Guide where
  line : Option Segment := none
  opacity : Float32 := 0
  active : Bool := false
  /-- The time up to which the fade has gone, in milliseconds. -/
  updated : Option Nat := none
  deriving Inhabited

namespace Guide

def seconds (ms : Nat) : Float32 :=
  Float32.ofNat (ms / 1000) + Float32.ofNat (ms % 1000 * 1000000) / 1000000000

def fadeIn : Nat := 150

/-- The rate at which opacity falls, per second. -/
def decay : Float32 := 32

def threshold : Float32 := 0.01

def shrink (a b : Int) : Int × Int :=
  if (b - a).natAbs ≤ 4 then (a, b) else if a < b then (a + 2, b - 2) else (a - 2, b + 2)

def inset (s : Segment) : Segment :=
  if s.isVertical then
    let (a, b) := shrink s.start.y s.stop.y
    ⟨⟨s.start.x, a⟩, ⟨s.stop.x, b⟩⟩
  else
    let (a, b) := shrink s.start.x s.stop.x
    ⟨⟨a, s.start.y⟩, ⟨b, s.stop.y⟩⟩

/-- Lets the fade go on to a time. A time that lies back moves the clock but not the fade. -/
def advance (g : Guide) (now : Nat) : Guide :=
  match g.updated with
  | none => { g with updated := some now }
  | some last =>
    let elapsed := seconds (now - last)
    let g := { g with updated := some now }
    if g.active then
      let opacity := g.opacity + elapsed / seconds fadeIn
      { g with opacity := if opacity < 1 then opacity else 1 }
    else if g.line.isSome then
      let opacity := g.opacity * Float32.exp (-decay * elapsed)
      if opacity < threshold then { g with line := none, opacity := 0 }
      else { g with opacity := opacity }
    else g

def display (g : Guide) (line : Segment) (now : Nat) : Guide :=
  { g.advance now with line := some (inset line), active := true, updated := some now }

def release (g : Guide) (now : Nat) : Guide :=
  if g.active then { g.advance now with active := false, updated := some now } else g

def needsRepaint (g : Guide) : Bool :=
  g.line.isSome && (!g.active || g.opacity < 1)

end Guide

end Patchbay
