import FpgaPlacer.Diagnostic.OfError
import FpgaPlacer.Diagnostic.Sink
import FpgaPlacer.Fabric.SelfCheck
import FpgaPlacer.Layout.Checksum
import FpgaPlacer.Layout.Consistency
import FpgaPlacer.Placement.FirstFit
import FpgaPlacer.Placement.Greedy

/-!
# Placement flow

A flow run checks the device and the layout as configured, summarises the use
of the device, places the design and checks again.  Every error is emitted into
the sink.  A failed placement stops the run unless the policy is to carry on;
broken rules and internal errors always stop it.
-/

namespace FpgaPlacer

/-- How a stage of the flow ended. -/
inductive StageOutcome where
  | skipped
  | passed
  | failed (message : String)
  deriving DecidableEq

/-- Whether a stage did not fail. -/
def StageOutcome.isOk : StageOutcome → Bool
  | failed _ => false
  | _ => true

/-- The summary of a flow run. -/
structure FlowReport where
  archCheck : StageOutcome
  preCheck : StageOutcome
  placement : StageOutcome
  postCheck : StageOutcome
  utilisation : List TypeUsage
  checksumBefore : UInt32
  checksumAfter : UInt32
  deriving DecidableEq

/-- Whether no stage failed. -/
def FlowReport.succeeded (report : FlowReport) : Bool :=
  report.archCheck.isOk && report.preCheck.isOk && report.placement.isOk &&
    report.postCheck.isOk

/-- What a flow run works on. -/
structure FlowState (κ : Type) where
  layout : Layout κ
  sink : Sink

namespace Flow

variable {κ : Type}

/-- A step of the flow. -/
abbrev FlowEdit (κ α : Type) := Edit DesignError (FlowState κ) α

/-- Emits a diagnostic. -/
def emit (diagnostic : Diagnostic) : FlowEdit κ Unit :=
  modify (fun state => { state with sink := state.sink.emit diagnostic })

/-- Emits an error and stops with it. -/
def abort {α : Type} (error : DesignError) : FlowEdit κ α := do
  emit error.diagnostic
  Edit.fail error

/-- The diagnostic of a defective device. -/
def deviceDiagnostic (error : InternalError) : Diagnostic :=
  .plain .error .architecture 1 error.description

/-- The diagnostic of an over-used cell type. -/
def overuseDiagnostic (usage : TypeUsage) : Diagnostic :=
  { Diagnostic.plain .warning .warning 201
      s!"design uses {usage.used} '{usage.cellType}' cells but the device has {usage.available}"
    with subject := some s!"cell type '{usage.cellType}'" }

/-- The diagnostic of a run that carries on after a failed placement. -/
def carryOnDiagnostic : Diagnostic :=
  .plain .warning .warning 202 "continuing after placement failure"

/-- Runs an edit of the layout and gives back how it ended. -/
def attempt {α : Type} (edit : LayoutEdit κ α) :
    FlowEdit κ (Except (Stop DesignError) α) := fun state =>
  match edit state.layout with
  | .ok value layout => .ok (.ok value) { state with layout }
  | .error stop layout => .ok (.error stop) { state with layout }

/-- Checks the device, if enabled. -/
def checkDevice (enabled : Bool) : FlowEdit κ StageOutcome := do
  if !enabled then
    return .skipped
  let state ← get
  match state.layout.fabric.device.selfCheck with
  | .ok () => return .passed
  | .error (.fault fault) => throw (.fault fault)
  | .error (.failed error) =>
      emit (deviceDiagnostic error)
      Edit.fail (.internal error)

/-- Checks the layout, if enabled. -/
def checkLayout (enabled : Bool) : FlowEdit κ StageOutcome := do
  if !enabled then
    return .skipped
  let state ← get
  match state.layout.check with
  | .ok () => return .passed
  | .error (.fault fault) => throw (.fault fault)
  | .error (.failed violation) => abort (.invariant violation)

/-- The placer that a configuration selects. -/
def placer [Scalar κ] (config : PlaceConfig) (rule : LegalityRule κ) :
    LayoutEdit κ Unit :=
  match config.strategy with
  | .bucket => FirstFit.place rule
  | .heuristic => Greedy.place rule config.options

/-- Places the design from a freshly seeded generator. -/
def placeStage [Scalar κ] (config : FlowConfig) (rule : LegalityRule κ) :
    FlowEdit κ StageOutcome := do
  modify (fun state =>
    { state with layout.design := state.layout.design.reseed config.place.seed })
  match ← attempt (placer config.place rule) with
  | .ok () => return .passed
  | .error (.fault fault) => throw (.fault fault)
  | .error (.failed error) =>
      if error.isInvariant || error.isInternal then
        abort error
      emit error.diagnostic
      if !config.flow.force then
        Edit.fail error
      emit carryOnDiagnostic
      return .failed error.message

/-- Runs the flow. -/
def run [Scalar κ] (config : FlowConfig) (rule : LegalityRule κ) :
    FlowEdit κ FlowReport := do
  let archCheck ← checkDevice config.flow.archCheck
  let preCheck ← checkLayout config.flow.check
  let before ← get
  let utilisation := before.layout.utilisation
  let warnings := (utilisation.filter TypeUsage.isOver).map overuseDiagnostic
  modify (fun state => { state with sink := state.sink.emitAll warnings })
  let placement ← placeStage config rule
  let postCheck ← checkLayout config.flow.check
  let after ← get
  return {
    archCheck
    preCheck
    placement
    postCheck
    utilisation
    checksumBefore := before.layout.checksum
    checksumAfter := after.layout.checksum }

end Flow

end FpgaPlacer
