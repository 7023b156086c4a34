import FpgaPlacer.Handle

/-!
# Faults, errors and edits

An operation can end early in two ways.  An *error* is an outcome the caller
is meant to handle.  A *fault* is the use of a handle that its table or device
never handed out; nothing is promised after one.  Edits keep the state they
have reached when they end early.
-/

namespace FpgaPlacer

/-- The use of a handle unknown to the table or device it was given to. -/
inductive Fault where
  | symbol (symbol : Symbol)
  | bel (bel : BelId)
  | wire (wire : WireId)
  | pip (pip : PipId)
  | belType (belType : BelType)
  deriving DecidableEq

/-- Why an operation ended early. -/
inductive Stop (ε : Type) where
  | failed (error : ε)
  | fault (fault : Fault)
  deriving DecidableEq

/-- A question that faults on unknown handles. -/
abbrev Query (α : Type) := Except Fault α

/-- A state change that may end early, keeping the state reached. -/
abbrev Edit (ε σ α : Type) := EStateM (Stop ε) σ α

namespace Query

variable {α : Type}

/-- The answer to a look-up, or the given fault. -/
def ofOption (fault : Fault) : Option α → Query α
  | some value => .ok value
  | none => .error fault

/-- A question asked in the course of an operation. -/
def stop {ε : Type} : Query α → Except (Stop ε) α
  | .ok value => .ok value
  | .error fault => .error (.fault fault)

end Query

namespace Edit

variable {ε σ α : Type}

/-- A step that reads the state and leaves it alone. -/
def reading (step : σ → Except (Stop ε) α) : Edit ε σ α := fun state =>
  match step state with
  | .ok value => .ok value state
  | .error stop => .error stop state

/-- A step that ends the edit with an error. -/
def fail (error : ε) : Edit ε σ α := fun state => .error (.failed error) state

end Edit

end FpgaPlacer
