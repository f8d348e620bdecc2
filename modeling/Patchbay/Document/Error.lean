/-!
Names of what a document holds, and the reasons why an edit of it is refused.
-/

namespace Patchbay

/-- The two sides of a connection: a cable leaves an outlet and enters an inlet. -/
inductive Side where
  | inlet
  | outlet
  deriving DecidableEq, Repr, Inhabited

def Side.name : Side → String
  | inlet => "inlet"
  | outlet => "outlet"

def Side.opposite : Side → Side
  | inlet => outlet
  | outlet => inlet

structure Ends where
  outletOwner : Nat
  outlet : Nat
  inletOwner : Nat
  inlet : Nat
  deriving DecidableEq, Repr, Inhabited

/-- Why two ends cannot be joined although both exist. -/
inductive Mismatch where
  | signalIntoControl
  | alreadyConnected
  deriving DecidableEq, Repr

inductive EditError where
  | unknownNode (handle : Nat)
  | unknownWire (handle : Nat)
  | noJack (owner : Nat) (side : Side) (index : Nat)
  | mismatch (ends : Ends) (reason : Mismatch)
  | noWire (ends : Ends)
  deriving DecidableEq, Repr

def nodeName (handle : Nat) : String := "obj#" ++ toString handle
def wireName (handle : Nat) : String := "con#" ++ toString handle

def Mismatch.text : Mismatch → String
  | signalIntoControl => "signal outlet into control inlet"
  | alreadyConnected => "already connected"

def Ends.text (e : Ends) : String :=
  nodeName e.outletOwner ++ ":" ++ toString e.outlet ++ " to "
    ++ nodeName e.inletOwner ++ ":" ++ toString e.inlet

def EditError.message : EditError → String
  | unknownNode h => "Object " ++ nodeName h ++ " does not exist in the patch"
  | unknownWire h => "Connection " ++ wireName h ++ " does not exist in the patch"
  | noJack owner side i =>
    "Object " ++ nodeName owner ++ " has no " ++ side.name ++ " with index " ++ toString i
  | mismatch ends reason => "Cannot connect " ++ ends.text ++ ": " ++ reason.text
  | noWire ends => "No connection from " ++ ends.text

end Patchbay
