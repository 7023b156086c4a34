import FpgaPlacer.Proofs.ForcedFlow
import FpgaPlacer.Proofs.OverusedTypes

/-!
# What a run of the flow reports

The diagnostics of a run can be told from its configuration, the layout it is
given and the way its placer ends.  An error is counted exactly when the run
returns one or reports a failed placement: the check after placement adds
nothing, because it passes on whatever the placer leaves behind.
-/

namespace FpgaPlacer

variable {κ : Type}

namespace Sink

theorem diagnostics_emitAll (sink : Sink) (diagnostics : List Diagnostic) :
    (sink.emitAll diagnostics).diagnostics = sink.diagnostics ++ diagnostics := by
  induction diagnostics generalizing sink with
  | nil => exact (List.append_nil _).symm
  | cons diagnostic rest induction =>
      have later := induction (sink.emit diagnostic)
      rw [emitAll, List.foldl_cons, ← emitAll, later, emit, List.append_assoc,
        List.singleton_append]

theorem errorCount_emitAll (sink : Sink) (diagnostics : List Diagnostic) :
    (sink.emitAll diagnostics).errorCount =
      sink.errorCount + diagnostics.countP (·.severity = .error) := by
  induction diagnostics generalizing sink with
  | nil => rfl
  | cons diagnostic rest induction =>
      have later := induction (sink.emit diagnostic)
      rw [emitAll, List.foldl_cons, ← emitAll, later, emit, List.countP_cons]
      simp only [decide_eq_true_eq]
      omega

theorem emitAll_append (sink : Sink) (first second : List Diagnostic) :
    sink.emitAll (first ++ second) = (sink.emitAll first).emitAll second :=
  List.foldl_append

end Sink

namespace Flow

def deviceGate (config : FlowConfig) (layout : Layout κ) : Device.Checked :=
  if config.flow.archCheck then layout.fabric.device.selfCheck else .ok ()

def layoutGate (config : FlowConfig) (layout : Layout κ) : Layout.Checked :=
  if config.flow.check then layout.check else .ok ()

def overused (layout : Layout κ) : List TypeUsage :=
  layout.utilisation.filter TypeUsage.isOver

/-- What is emitted about the way in which the placer ended. -/
def aftermath (config : FlowConfig) : Except (Stop DesignError) Unit → List Diagnostic
  | .error (.failed error) =>
      error.diagnostic :: if config.flow.force then [carryOnDiagnostic] else []
  | _ => []

/-- The diagnostics of a run, in order. -/
def emissions [Scalar κ] (config : FlowConfig) (rule : LegalityRule κ)
    (layout : Layout κ) : List Diagnostic :=
  match deviceGate config layout, layoutGate config layout with
  | .error (.failed error), _ => [deviceDiagnostic error]
  | .ok (), .error (.failed violation) => [(DesignError.invariant violation).diagnostic]
  | .ok (), .ok () =>
      (overused layout).map overuseDiagnostic ++
        aftermath config
          ((placer config.place rule).outcome (layout.reseed config.place.seed))
  | _, _ => []

/-- The run returns an error or reports a failed placement. -/
def fails : Except (Stop DesignError) FlowReport → Bool
  | .ok report => !report.placement.isOk
  | .error (.failed _) => true
  | .error (.fault _) => false

/-! ## The gates -/

theorem checkDevice_eq (config : FlowConfig) (state : FlowState κ) :
    checkDevice config.flow.archCheck state =
      match deviceGate config state.layout with
      | .ok () => .ok (if config.flow.archCheck then .passed else .skipped) state
      | .error (.fault fault) => .error (.fault fault) state
      | .error (.failed error) =>
          .error (.failed (.internal error))
            { state with sink := state.sink.emit (deviceDiagnostic error) } := by
  cases enabled : config.flow.archCheck with
  | false =>
      have gate : deviceGate config state.layout = .ok () := by
        rw [deviceGate, enabled]
        rfl
      rw [gate]
      rfl
  | true =>
      have gate : deviceGate config state.layout =
          state.layout.fabric.device.selfCheck := by
        rw [deviceGate, enabled]
        rfl
      rw [gate, checkDevice_enabled]
      cases state.layout.fabric.device.selfCheck with
      | ok value => rfl
      | error stop => cases stop <;> rfl

theorem checkLayout_eq (config : FlowConfig) (state : FlowState κ) :
    checkLayout config.flow.check state =
      match layoutGate config state.layout with
      | .ok () => .ok (if config.flow.check then .passed else .skipped) state
      | .error (.fault fault) => .error (.fault fault) state
      | .error (.failed violation) =>
          .error (.failed (.invariant violation))
            { state with
              sink := state.sink.emit (DesignError.invariant violation).diagnostic } := by
  cases enabled : config.flow.check with
  | false =>
      have gate : layoutGate config state.layout = .ok () := by
        rw [layoutGate, enabled]
        rfl
      rw [gate]
      rfl
  | true =>
      have gate : layoutGate config state.layout = state.layout.check := by
        rw [layoutGate, enabled]
        rfl
      rw [gate, checkLayout_enabled]
      cases state.layout.check with
      | ok value => rfl
      | error stop => cases stop <;> rfl

theorem gates_of_defect {config : FlowConfig} {state : FlowState κ}
    {error : InternalError}
    (defect : deviceGate config state.layout = .error (.failed error)) :
    gates config state =
      .error (.failed (.internal error))
        { state with sink := state.sink.emit (deviceDiagnostic error) } := by
  have stopped := checkDevice_eq config state
  rw [defect] at stopped
  exact Edit.bind_of_error stopped

theorem gates_of_fault {config : FlowConfig} {state : FlowState κ} {fault : Fault}
    (faulty : deviceGate config state.layout = .error (.fault fault)) :
    gates config state = .error (.fault fault) state := by
  have stopped := checkDevice_eq config state
  rw [faulty] at stopped
  exact Edit.bind_of_error stopped

theorem gates_of_sound_device {config : FlowConfig} {state : FlowState κ}
    (sound : deviceGate config state.layout = .ok ()) :
    gates config state =
      match layoutGate config state.layout with
      | .ok () =>
          .ok (if config.flow.archCheck then .passed else .skipped,
            if config.flow.check then .passed else .skipped) state
      | .error (.fault fault) => .error (.fault fault) state
      | .error (.failed violation) =>
          .error (.failed (.invariant violation))
            { state with
              sink := state.sink.emit (DesignError.invariant violation).diagnostic } := by
  have device := checkDevice_eq config state
  have layout := checkLayout_eq config state
  rw [sound] at device
  rw [gates, Edit.bind_of_ok device]
  cases gate : layoutGate config state.layout with
  | ok value =>
      rw [gate] at layout
      rw [Edit.bind_of_ok layout]
      rfl
  | error stop =>
      rw [gate] at layout
      cases stop with
      | fault fault => exact Edit.bind_of_error layout
      | failed violation => exact Edit.bind_of_error layout

/-! ## The report of the utilisation -/

theorem mem_overused_iff {layout : Layout κ} {usage : TypeUsage} :
    usage ∈ overused layout ↔
      usage = layout.usageOf usage.cellType ∧ usage.isOver = true := by
  rw [overused, List.mem_filter, Layout.utilisation, List.mem_map]
  constructor
  · rintro ⟨⟨typeName, -, rfl⟩, excess⟩
    exact ⟨rfl, excess⟩
  · rintro ⟨reported, excess⟩
    refine ⟨⟨usage.cellType, ?_, reported.symm⟩, excess⟩
    have beyond : (layout.usageOf usage.cellType).available <
        (layout.usageOf usage.cellType).used := by
      rw [← reported]
      exact of_decide_eq_true excess
    have present := Nat.zero_lt_of_lt beyond
    rw [Layout.used_usageOf, List.count_pos_iff] at present
    exact FirstFit.mem_sortedDistinct.mpr present

theorem pairwise_overused (layout : Layout κ) :
    ((overused layout).map TypeUsage.cellType).Pairwise (· < ·) := by
  have sorted := FirstFit.pairwise_sortedDistinct
    (layout.design.cells.values.map (Layout.typeNameOf layout.design))
  rw [← Layout.map_cellType_utilisation] at sorted
  exact sorted.sublist (List.filter_sublist.map TypeUsage.cellType)

theorem countP_warnings (usages : List TypeUsage) :
    (usages.map overuseDiagnostic).countP (·.severity = .error) = 0 := by
  apply List.countP_eq_zero.mpr
  intro diagnostic member
  obtain ⟨usage, -, rfl⟩ := List.mem_map.mp member
  simp [overuseDiagnostic, Diagnostic.plain]

/-! ## Whole runs -/

variable [Scalar κ]

/-- All that a run of the flow reports, and what it vouches for. -/
structure Accounted (config : FlowConfig) (rule : LegalityRule κ)
    (state : FlowState κ) : Prop where
  appended : ((run config rule).after state).sink.diagnostics =
    state.sink.diagnostics ++ emissions config rule state.layout
  /-- One warning for each over-used type, in increasing order of type. -/
  overused : (∀ usage, usage ∈ Flow.overused state.layout ↔
      usage = state.layout.usageOf usage.cellType ∧ usage.isOver = true) ∧
    ((Flow.overused state.layout).map TypeUsage.cellType).Pairwise (· < ·)
  codes : ∀ error violation usage,
    (deviceDiagnostic error).code.text = "A001" ∧
      (DesignError.invariant violation).diagnostic.code.text = "C001" ∧
      (overuseDiagnostic usage).code.text = "W201" ∧
      carryOnDiagnostic.code.text = "W202"
  counted : ((run config rule).after state).sink.errorCount =
    state.sink.errorCount + if fails ((run config rule).outcome state) then 1 else 0
  /-- A run that does not pass the device leaves the layout as it was. -/
  defective : ∀ {error}, deviceGate config state.layout = .error (.failed error) →
    (run config rule).outcome state = .error (.failed (.internal error)) ∧
      ((run config rule).after state).layout = state.layout
  /-- So does a run that does not pass the layout. -/
  inconsistent : ∀ {violation}, deviceGate config state.layout = .ok () →
    layoutGate config state.layout = .error (.failed violation) →
    (run config rule).outcome state = .error (.failed (.invariant violation)) ∧
      ((run config rule).after state).layout = state.layout
  concluded : ∀ {report reached}, run config rule state = .ok report reached →
    report.checksumBefore = state.layout.checksum ∧
      report.checksumAfter = reached.layout.checksum ∧
      (config.flow.check = true → reached.layout.check = .ok ())

/-- The run emits what it is to emit, with one error if it fails and none
otherwise. -/
structure Reports (config : FlowConfig) (rule : LegalityRule κ)
    (state : FlowState κ) : Prop where
  sink : ((run config rule).after state).sink =
    state.sink.emitAll (emissions config rule state.layout)
  errors : (emissions config rule state.layout).countP (·.severity = .error) =
    if fails ((run config rule).outcome state) then 1 else 0

section Course

variable {config : FlowConfig} {rule : LegalityRule κ} {state : FlowState κ}

/-- What is emitted once both gates are passed. -/
theorem emissions_of_passed (sound : deviceGate config state.layout = .ok ())
    (consistent : layoutGate config state.layout = .ok ()) :
    emissions config rule state.layout =
      (overused state.layout).map overuseDiagnostic ++
        aftermath config ((placer config.place rule).outcome
          (state.layout.reseed config.place.seed)) := by
  rw [emissions, sound, consistent]

theorem reports_of_passed (free : state.layout.fabric.device.AvailableIsFree)
    (sound : deviceGate config state.layout = .ok ())
    (consistent : layoutGate config state.layout = .ok ()) :
    Reports config rule state := by
  have passed := gates_of_sound_device sound
  rw [consistent] at passed
  have ends := run_of_passed free passed rule
  have emitted : emissions config rule state.layout = _ :=
    emissions_of_passed sound consistent
  suffices placing :
      ((run config rule).after state).sink =
          (warned state).emitAll (aftermath config
            ((placer config.place rule).outcome
              (state.layout.reseed config.place.seed))) ∧
        (aftermath config ((placer config.place rule).outcome
            (state.layout.reseed config.place.seed))).countP (·.severity = .error) =
          if fails ((run config rule).outcome state) then 1 else 0 by
    constructor
    · rw [emitted, Sink.emitAll_append]
      exact placing.1
    · rw [emitted, List.countP_append, countP_warnings, Nat.zero_add]
      exact placing.2
  cases placed : placer config.place rule
      (state.layout.reseed config.place.seed) with
  | ok value layout =>
      rw [placed] at ends
      rw [Edit.after_of_ok ends, Edit.outcome_of_ok ends, Edit.outcome_of_ok placed]
      exact ⟨rfl, rfl⟩
  | error stop layout =>
      rw [placed] at ends
      rw [Edit.outcome_of_error placed]
      cases stop with
      | fault fault =>
          rw [Edit.after_of_error ends, Edit.outcome_of_error ends]
          exact ⟨rfl, rfl⟩
      | failed error =>
          cases force : config.flow.force with
          | false =>
              rw [force] at ends
              rw [Edit.after_of_error ends, Edit.outcome_of_error ends]
              simp only [aftermath, force]
              exact ⟨rfl, rfl⟩
          | true =>
              rw [force] at ends
              rw [Edit.after_of_ok ends, Edit.outcome_of_ok ends]
              simp only [aftermath, force]
              exact ⟨rfl, rfl⟩

/-- A run that stops at a gate has at most the diagnostic of that gate to
report. -/
theorem reports_of_stopped {stop : Stop DesignError} {sink : Sink}
    (diagnostics : List Diagnostic)
    (stopped : gates config state = .error stop ⟨state.layout, sink⟩)
    (emitted : emissions config rule state.layout = diagnostics)
    (reported : sink = state.sink.emitAll diagnostics)
    (counted : diagnostics.countP (·.severity = .error) =
      if fails (.error stop) then 1 else 0) :
    Reports config rule state := by
  have ends := run_of_stopped stopped rule
  constructor
  · rw [Edit.after_of_error ends, emitted]
    exact reported
  · rw [Edit.outcome_of_error ends, emitted]
    exact counted

theorem reports (free : state.layout.fabric.device.AvailableIsFree) :
    Reports config rule state := by
  cases device : deviceGate config state.layout with
  | error stop =>
      cases stop with
      | fault fault =>
          apply reports_of_stopped [] (gates_of_fault device)
          · rw [emissions, device]
          · rfl
          · rfl
      | failed error =>
          apply reports_of_stopped [_] (gates_of_defect device)
          · rw [emissions, device]
          · rfl
          · rfl
  | ok value =>
      cases layout : layoutGate config state.layout with
      | ok value => exact reports_of_passed free device layout
      | error stop =>
          have gated := gates_of_sound_device device
          rw [layout] at gated
          cases stop with
          | fault fault =>
              apply reports_of_stopped [] gated
              · rw [emissions, device, layout]
              · rfl
              · rfl
          | failed violation =>
              apply reports_of_stopped [_] gated
              · rw [emissions, device, layout]
              · rfl
              · rfl

/-- A run that comes to its end vouches for the layout it leaves. -/
theorem concluded_of_ok (free : state.layout.fabric.device.AvailableIsFree)
    {report : FlowReport} {reached : FlowState κ}
    (ends : run config rule state = .ok report reached) :
    report.checksumBefore = state.layout.checksum ∧
      report.checksumAfter = reached.layout.checksum ∧
      (config.flow.check = true → reached.layout.check = .ok ()) := by
  cases gated : gates config state with
  | error stop middle =>
      rw [run_of_stopped gated rule] at ends
      cases ends
  | ok outcomes middle =>
      obtain ⟨rfl, checked⟩ := gates_ok gated
      have passes : config.flow.check = true →
          ((placer config.place rule).after
            (middle.layout.reseed config.place.seed)).check = .ok () := by
        intro enabled
        exact check_placed free (checked enabled) config.place rule
      rw [run_of_passed free gated rule] at ends
      cases placed : placer config.place rule
          (middle.layout.reseed config.place.seed) with
      | ok value layout =>
          rw [placed] at ends
          rw [Edit.after_of_ok placed] at passes
          cases ends
          exact ⟨rfl, rfl, passes⟩
      | error stop layout =>
          rw [placed] at ends
          rw [Edit.after_of_error placed] at passes
          cases stop with
          | fault fault => cases ends
          | failed error =>
              cases force : config.flow.force with
              | false =>
                  rw [force] at ends
                  cases ends
              | true =>
                  rw [force] at ends
                  cases ends
                  exact ⟨rfl, rfl, passes⟩

end Course

/-- Every run reports exactly what happened in it, whatever its configuration,
the layout and the diagnostics that the sink held before. -/
theorem run_accounted (config : FlowConfig) (rule : LegalityRule κ)
    (state : FlowState κ) (free : state.layout.fabric.device.AvailableIsFree) :
    Accounted config rule state where
  appended := by
    rw [(reports free).sink, Sink.diagnostics_emitAll]
  overused := ⟨fun usage => mem_overused_iff, pairwise_overused state.layout⟩
  codes := by
    intro error violation usage
    have architecture : DiagnosticCode.text ⟨.architecture, 1⟩ = "A001" := by decide
    have consistency : DiagnosticCode.text ⟨.consistency, 1⟩ = "C001" := by decide
    have overuse : DiagnosticCode.text ⟨.warning, 201⟩ = "W201" := by decide
    have carryOn : DiagnosticCode.text ⟨.warning, 202⟩ = "W202" := by decide
    exact ⟨architecture, consistency, overuse, carryOn⟩
  counted := by
    rw [(reports free).sink, Sink.errorCount_emitAll, (reports free).errors]
  defective := by
    intro error defect
    have ends := run_of_stopped (gates_of_defect defect) rule
    exact ⟨Edit.outcome_of_error ends, by rw [Edit.after_of_error ends]⟩
  inconsistent := by
    intro violation sound broken
    have gated := gates_of_sound_device sound
    rw [broken] at gated
    have ends := run_of_stopped gated rule
    exact ⟨Edit.outcome_of_error ends, by rw [Edit.after_of_error ends]⟩
  concluded := concluded_of_ok free

/-- Two cells and one bel: the type is warned of, the second cell finds no bel,
and the forced run carries on. -/
theorem run_accounted_of_crowded :
    ((run (FlowConfig.default.withForce true) .anyBel).after
        ⟨.twoCells Layout.tinyDevice, .empty⟩).sink.diagnostics =
      [overuseDiagnostic ⟨"LUT", 2, 1⟩, (DesignError.noLegalBel "b" "LUT").diagnostic,
        carryOnDiagnostic] ∧
    ((run (FlowConfig.default.withForce true) .anyBel).after
        ⟨.twoCells Layout.tinyDevice, .empty⟩).sink.errorCount = 1 := by
  have free : Layout.tinyDevice.AvailableIsFree := Grid.availableIsFree _
  have accounted : Accounted (FlowConfig.default.withForce true) .anyBel
      ⟨.twoCells Layout.tinyDevice, .empty⟩ :=
    run_accounted _ .anyBel _ free
  have emitted : emissions (FlowConfig.default.withForce true) .anyBel
      (.twoCells Layout.tinyDevice) =
        [overuseDiagnostic ⟨"LUT", 2, 1⟩,
          (DesignError.noLegalBel "b" "LUT").diagnostic, carryOnDiagnostic] := by
    decide +kernel
  have failed : fails ((run (FlowConfig.default.withForce true) .anyBel).outcome
      ⟨.twoCells Layout.tinyDevice, .empty⟩) = true := by
    decide +kernel
  constructor
  · rw [accounted.appended, emitted]
    rfl
  · rw [accounted.counted, failed]
    rfl

end Flow

end FpgaPlacer
