import Patchbay.Document.Basic
import Patchbay.Keyed
import Patchbay.Settings.Basic

/-!
Tokens that wait to be written to their wires. All that gathers within a delay is written in one
sequence, so that a whole drag is undone in one step.
-/

namespace Patchbay

structure WriteQueue where
  /-- Tokens by wire, in the order in which the wires came. -/
  pending : Keyed String := []
  /-- When to write, in milliseconds. -/
  deadline : Option Nat := none
  delay : Nat
  capacity : Nat
  deriving DecidableEq, Repr, Inhabited

namespace WriteQueue

def ofSettings (settings : RoutingSettings) : WriteQueue :=
  { delay := settings.updateDelay, capacity := max settings.queueCapacity 1 }

/-- What waits goes on waiting as before. -/
def setSettings (q : WriteQueue) (settings : RoutingSettings) : WriteQueue :=
  { q with delay := settings.updateDelay, capacity := max settings.queueCapacity 1 }

def size (q : WriteQueue) : Nat := q.pending.length
def isEmpty (q : WriteQueue) : Bool := q.pending.isEmpty
def token? (q : WriteQueue) (handle : Nat) : Option String := Keyed.get? q.pending handle

def label : String := "Update path"

/-- A wire that waits keeps its place and gets the new token. -/
def enqueue (handle : Nat) (token : String) : Keyed String → Keyed String
  | [] => [(handle, token)]
  | (h, t) :: rest =>
    if h = handle then (h, token) :: rest else (h, t) :: enqueue handle token rest

variable {δ : Type} [Document δ]

def writeOne (state : δ × Nat) (entry : Nat × String) : δ × Nat :=
  let (d, written) := state
  if (Document.listing d).hasWire entry.1 then
    match Document.setToken d entry.1 entry.2 with
    | .ok d => (d, written + 1)
    | .error _ => (d, written)
  else (d, written)

def flush (q : WriteQueue) (d : δ) : WriteQueue × δ × Nat :=
  if q.isEmpty then ({ q with deadline := none }, d, 0)
  else
    ({ q with pending := [], deadline := none },
      Document.inSequence d label fun d => q.pending.foldl writeOne (d, 0))

/-- Queues a token. A full queue is written before a further wire comes in. -/
def push (q : WriteQueue) (d : δ) (handle : Nat) (token : String) (now : Nat) : WriteQueue × δ :=
  let (q, d) :=
    if !Keyed.has q.pending handle && q.capacity ≤ q.size then
      let (q, d, _) := q.flush d
      (q, d)
    else (q, d)
  ({ q with
      pending := enqueue handle token q.pending
      deadline := some (q.deadline.getD (now + q.delay)) }, d)

def cancel (q : WriteQueue) (handle : Nat) : WriteQueue × Bool :=
  let pending := Keyed.remove q.pending handle
  ({ q with pending := pending, deadline := if pending.isEmpty then none else q.deadline },
    Keyed.has q.pending handle)

def tick (q : WriteQueue) (d : δ) (now : Nat) : WriteQueue × δ × Nat :=
  if q.deadline.any (· ≤ now) then q.flush d else (q, d, 0)

end WriteQueue

end Patchbay
