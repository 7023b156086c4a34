/-!
# Labelled choices

A finite choice whose alternatives have fixed written labels.
-/

namespace FpgaPlacer

/-- A finite type whose values have labels. -/
class Labelled (α : Type) where
  all : List α
  label : α → String

namespace Labelled

variable {α : Type} [Labelled α]

/-- The value with the given label. -/
def ofLabel? (text : String) : Option α :=
  (all : List α).find? (fun value => label value == text)

end Labelled

end FpgaPlacer
