import FpgaPlacer.Labelled

/-!
# Binding strengths

How firmly a bel, wire or pip is held, from weakest to strongest.
-/

namespace FpgaPlacer

/-- How firmly a resource is held. -/
inductive Strength where
  | unbound
  | weak
  | strong
  | placer
  | fixed
  | locked
  | user
  deriving DecidableEq, Inhabited

namespace Strength

/-- The rank of a strength, which is also its term in checksums. -/
def rank : Strength → UInt32
  | unbound => 0
  | weak => 1
  | strong => 2
  | placer => 3
  | fixed => 4
  | locked => 5
  | user => 6

instance : Ord Strength := ⟨fun left right => compare left.rank right.rank⟩

instance : Labelled Strength where
  all := [unbound, weak, strong, placer, fixed, locked, user]
  label
    | unbound => "None"
    | weak => "Weak"
    | strong => "Strong"
    | placer => "Placer"
    | fixed => "Fixed"
    | locked => "Locked"
    | user => "User"

end Strength

end FpgaPlacer
