/-!
# Delays

A delay has a minimum, typical and maximum corner, each in nanoseconds as a
double.  Addition is per corner; sums are taken left to right and never
reassociated.
-/

namespace FpgaPlacer

/-- A propagation delay in nanoseconds at three corners. -/
structure Delay where
  min : Float
  typ : Float
  max : Float

namespace Delay

/-- No delay. -/
def zero : Delay := ⟨0.0, 0.0, 0.0⟩

/-- The same delay at every corner. -/
def uniform (ns : Float) : Delay := ⟨ns, ns, ns⟩

/-- The sum at each corner. -/
def add (left right : Delay) : Delay :=
  ⟨left.min + right.min, left.typ + right.typ, left.max + right.max⟩

instance : Add Delay := ⟨add⟩

/-- Whether every corner is numerically zero. -/
def isZero (delay : Delay) : Bool :=
  delay.min == 0.0 && delay.typ == 0.0 && delay.max == 0.0

/-- The sum of delays, from left to right. -/
def sum (terms : List Delay) : Delay :=
  terms.foldl (· + ·) zero

end Delay

end FpgaPlacer
