/-!
# Sides of the bridge

The bridge has two interfaces.  A frame travels away from the interface that
received it, so the receiving interface fixes its direction.

## Main definitions

* `Interface`, `Interface.opposite` — the two ports.
* `Direction`, `Interface.direction` — the way a received frame travels.
-/

namespace FilterBridge

/-- The way a frame crosses the bridge. -/
inductive Direction
  /-- From the untrusted segment to the protected one. -/
  | inbound
  /-- From the protected segment to the untrusted one. -/
  | outbound
  deriving DecidableEq, Repr, Inhabited

/-- The short name of a direction in log records. -/
def Direction.label : Direction → String
  | .inbound => "in"
  | .outbound => "out"

/-- A port of the bridge. -/
inductive Interface
  /-- The protected segment. -/
  | inside
  /-- The untrusted segment. -/
  | outside
  deriving DecidableEq, Repr, Inhabited

namespace Interface

/-- The port across the bridge. -/
def opposite : Interface → Interface
  | inside => outside
  | outside => inside

/-- The direction of the frames that a port receives. -/
def direction : Interface → Direction
  | inside => .outbound
  | outside => .inbound

@[simp] theorem opposite_opposite (i : Interface) : i.opposite.opposite = i := by
  cases i <;> rfl

theorem opposite_ne (i : Interface) : i.opposite ≠ i := by
  cases i <;> decide

end Interface

end FilterBridge
