import FilterBridge.Bytes
import FilterBridge.Direction

/-!
# The queue of received frames

Frames wait in a bounded queue and leave it in the order in which they came.

## Main definitions

* `Frame` — a frame and the interface that received it.
* `FrameQueue` — waiting frames, the oldest first, and how many may wait.
* `FrameQueue.enqueue?`, `FrameQueue.dequeue?` — in at the back, out at the front.
-/

namespace FilterBridge

/-- A received frame. -/
structure Frame where
  /-- The interface that received it. -/
  source : Interface
  /-- Its bytes. -/
  data : Bytes
  deriving DecidableEq, Repr, Inhabited

/-- The frames that wait. -/
structure FrameQueue where
  /-- How many frames may wait. -/
  depth : Nat
  /-- The frames, the oldest first. -/
  frames : List Frame
  deriving DecidableEq, Repr

namespace FrameQueue

/-- The empty queue for up to `depth` frames, and always for one. -/
def withDepth (depth : Nat) : FrameQueue := ⟨max depth 1, []⟩

/-- The depth of a queue when none is given. -/
def defaultDepth : Nat := 256

instance : Inhabited FrameQueue := ⟨withDepth defaultDepth⟩

/-- Put a frame at the end, unless the queue is full. -/
def enqueue? (q : FrameQueue) (f : Frame) : Option FrameQueue :=
  if q.frames.length < q.depth then some { q with frames := q.frames ++ [f] } else none

/-- Take the oldest frame. -/
def dequeue? (q : FrameQueue) : Option (Frame × FrameQueue) :=
  match q.frames with
  | [] => none
  | f :: rest => some (f, { q with frames := rest })

theorem enqueue?_eq_none {q : FrameQueue} {f : Frame} :
    q.enqueue? f = none ↔ q.depth ≤ q.frames.length := by
  simp [enqueue?]

theorem enqueue?_of_lt {q : FrameQueue} (h : q.frames.length < q.depth) (f : Frame) :
    q.enqueue? f = some { q with frames := q.frames ++ [f] } := if_pos h

theorem frames_enqueue? {q q' : FrameQueue} {f : Frame} (h : q.enqueue? f = some q') :
    q'.frames = q.frames ++ [f] := by
  simp only [enqueue?, Option.ite_none_right_eq_some, Option.some.injEq] at h
  rw [← h.2]

end FrameQueue

end FilterBridge
