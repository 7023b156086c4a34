/-!
# Coordinates and costs

Positions and wiring costs are computed in one number type, a `Scalar`.
Devices use single-precision floats; exact integers satisfy the same interface
and let statements about wiring length be made without rounding.
-/

namespace FpgaPlacer

/-- The arithmetic that positions and wiring costs need. -/
class Scalar (κ : Type) where
  zero : κ
  ofInt : Int → κ
  add : κ → κ → κ
  distance : κ → κ → κ
  atMost : κ → κ → Bool
  below : κ → κ → Bool

/-- Single-precision arithmetic. -/
instance : Scalar Float32 where
  zero := 0.0
  ofInt := Float32.ofInt
  add := fun left right => left + right
  distance := fun left right => (left - right).abs
  atMost := fun left right => left ≤ right
  below := fun left right => left < right

/-- Exact arithmetic. -/
instance : Scalar Int where
  zero := 0
  ofInt := id
  add := fun left right => left + right
  distance := fun left right => ((left - right).natAbs : Int)
  atMost := fun left right => left ≤ right
  below := fun left right => left < right

/-- A position in the coordinate space of a device. -/
abbrev Position (κ : Type) := κ × κ

/-- The Manhattan distance of two positions. -/
def Position.manhattan {κ : Type} [Scalar κ] (left right : Position κ) : κ :=
  Scalar.add (Scalar.distance left.1 right.1) (Scalar.distance left.2 right.2)

end FpgaPlacer
