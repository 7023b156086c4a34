import FpgaPlacer.Error.Internal
import FpgaPlacer.Fabric.Device

/-!
# Self-check of a device

The look-ups of a device have to agree with its enumerations: every bel name
leads back to its bel, every bel type name back to its type, and both ends of
every pip are enumerated wires.
-/

namespace FpgaPlacer.Device

variable {κ : Type}

/-- The outcome of checking one resource. -/
abbrev Checked := Except (Stop InternalError) Unit

/-- Checks that the names of a bel and of its type lead back to them. -/
def checkBel (device : Device κ) (bel : BelId) : Checked := do
  let name ← (Query.ofOption (.bel bel) (device.belName bel)).stop
  if device.belNamed name ≠ some bel then
    throw (.failed (.belNameAmbiguous name))
  let belType ← (Query.ofOption (.bel bel) (device.belType bel)).stop
  let typeName ← (Query.ofOption (.belType belType) (device.typeName belType)).stop
  if device.typeNamed typeName ≠ some belType then
    throw (.failed (.belTypeUnmapped typeName name))

/-- Checks one end of a pip. -/
def checkPipEnd (device : Device κ) (pip : PipId) (pipEnd : PipEnd)
    (wire : WireId) : Checked :=
  if wire ∈ device.wires then .ok ()
  else .error (.failed (.pipEndUnknown pipEnd wire pip))

/-- Checks both ends of a pip, the source first. -/
def checkPip (device : Device κ) (pip : PipId) : Checked := do
  let source ← (Query.ofOption (.pip pip) (device.pipSource pip)).stop
  let target ← (Query.ofOption (.pip pip) (device.pipTarget pip)).stop
  device.checkPipEnd pip .source source
  device.checkPipEnd pip .destination target

/-- Checks the bels, then the pips; the first defect is reported. -/
def selfCheck (device : Device κ) : Checked := do
  device.bels.forM device.checkBel
  device.pips.forM device.checkPip

end FpgaPlacer.Device
