import FilterBridge.FrameQueue
import FilterBridge.Verdict

/-!
# The bridge

Received frames wait in a queue.  In batches they are judged one by one, and
those that pass go to the driver of the interface across.  Whether a driver
sends a frame is not for the bridge to know beforehand, so it is an input.

## Main definitions

* `Delivery` — a frame handed to a driver, and whether the driver sent it.
* `Handled` — what became of one frame.
* `Bridge.receive` — a frame comes in.
* `Bridge.dispatch` — one frame is judged and handed over.
* `Bridge.process` — up to 64 waiting frames are dispatched.
-/

namespace FilterBridge

/-- A frame handed to a driver. -/
structure Delivery where
  /-- The interface of the driver. -/
  target : Interface
  /-- The bytes of the frame. -/
  data : Bytes
  /-- Whether the driver sent it. -/
  sent : Bool
  deriving DecidableEq, Repr, Inhabited

/-- What became of one frame. -/
structure Handled where
  /-- The frame. -/
  frame : Frame
  /-- The verdict on it. -/
  verdict : Verdict
  /-- The driver it was handed to, if it passed. -/
  delivery : Option Delivery
  deriving DecidableEq, Repr, Inhabited

/-- The bridge between two drivers. -/
structure Bridge where
  /-- How strict the filter is. -/
  options : Options := {}
  /-- The frames that wait. -/
  queue : FrameQueue := default
  deriving Repr, Inhabited

namespace Bridge

/-- How many frames are dispatched at a time. -/
def batchSize : Nat := 64

/-- A frame comes in: it is counted, and waits unless the queue is full. -/
def receive (b : Bridge) (f : Firewall) (frame : Frame) : Bridge × Firewall :=
  let f := { f with counters := f.counters.received frame.source.direction }
  match b.queue.enqueue? frame with
  | some queue => ({ b with queue }, f)
  | none => (b, { f with counters := f.counters.drop })

/-- Judge a frame.  One that is shorter than its header is denied. -/
def judgeFrame (o : Options) (f : Firewall) (frame : Frame) : Firewall × Verdict :=
  let d := frame.source.direction
  match splitFrame frame.data with
  | .ok (protocol, packet) => f.filter o d protocol packet
  | .error _ =>
    let v := .deny { reason := .headerTruncated, direction := d }
    (f.count v, v)

/-- Judge a frame and hand it to the driver across if it passes.  `sends` says
which driver sends. -/
def dispatch (o : Options) (sends : Interface → Bool) (f : Firewall) (frame : Frame) :
    Firewall × Handled :=
  match judgeFrame o f frame with
  | (f, .deny event) => (f, { frame, verdict := .deny event, delivery := none })
  | (f, .allow) =>
    let target := frame.source.opposite
    let counters := if sends target then f.counters.forwarded frame.source.direction
      else f.counters.drop
    ({ f with counters },
      { frame, verdict := .allow,
        delivery := some { target, data := frame.data, sent := sends target } })

/-- Dispatch up to `n` waiting frames, the oldest first; `sends i` says which
driver sends when the `i`-th of them is dispatched. -/
def processUpTo (sends : Nat → Interface → Bool) : Nat → Bridge → Firewall →
    Bridge × Firewall × List Handled
  | 0, b, f => (b, f, [])
  | n + 1, b, f =>
    match b.queue.dequeue? with
    | none => (b, f, [])
    | some (frame, queue) =>
      match dispatch b.options (sends 0) f frame with
      | (f, handled) =>
        match processUpTo (fun i => sends (i + 1)) n { b with queue } f with
        | (b, f, rest) => (b, f, handled :: rest)

/-- Dispatch a batch of waiting frames. -/
def process (b : Bridge) (sends : Nat → Interface → Bool) (f : Firewall) :
    Bridge × Firewall × List Handled :=
  processUpTo sends batchSize b f

end Bridge

end FilterBridge
