import FpgaPlacer.Flow
import FpgaPlacer.Proofs.PlacementConsistency
import FpgaPlacer.Proofs.PlacementErrors

/-!
# Carrying on after a failed placement

The policy to carry on is read once, after a placement has failed with an
ordinary error.  Two runs that differ in the policy alone are therefore the
same run up to that point, and the forced one has only its report to add: what
a failed placer leaves behind still passes the check.
-/

namespace FpgaPlacer

variable {κ : Type}

/-- The configuration with another policy on failed placements. -/
def FlowConfig.withForce (config : FlowConfig) (force : Bool) : FlowConfig :=
  { config with flow := { config.flow with force } }

/-- The layout with its generator started afresh. -/
def Layout.reseed (layout : Layout κ) (seed : UInt64) : Layout κ :=
  { layout with design := layout.design.reseed seed }

namespace Flow

/-- The checks before placement. -/
def gates (config : FlowConfig) : FlowEdit κ (StageOutcome × StageOutcome) := do
  let archCheck ← checkDevice config.flow.archCheck
  let preCheck ← checkLayout config.flow.check
  return (archCheck, preCheck)

/-- The sink after the over-used cell types have been warned of. -/
def warned (state : FlowState κ) : Sink :=
  state.sink.emitAll
    ((state.layout.utilisation.filter TypeUsage.isOver).map overuseDiagnostic)

/-- The report of a run that gets to its end. -/
def report (config : FlowConfig) (outcomes : StageOutcome × StageOutcome)
    (before after : Layout κ) (placement : StageOutcome) : FlowReport where
  archCheck := outcomes.1
  preCheck := outcomes.2
  placement := placement
  postCheck := if config.flow.check then .passed else .skipped
  utilisation := before.utilisation
  checksumBefore := before.checksum
  checksumAfter := after.checksum

/-- The second check and the report, once placement has been gone through. -/
def conclude (config : FlowConfig) (outcomes : StageOutcome × StageOutcome)
    (before : Layout κ) (placement : StageOutcome) : FlowEdit κ FlowReport := do
  let postCheck ← checkLayout config.flow.check
  let after ← get
  return { report config outcomes before after.layout placement with postCheck }

theorem checkDevice_enabled (state : FlowState κ) :
    checkDevice true state =
      match state.layout.fabric.device.selfCheck with
      | .ok () => .ok .passed state
      | .error (.fault fault) => .error (.fault fault) state
      | .error (.failed error) =>
          .error (.failed (.internal error))
            { state with sink := state.sink.emit (deviceDiagnostic error) } := by
  have unfolded : checkDevice true state =
      ((match state.layout.fabric.device.selfCheck with
        | .ok () => pure .passed
        | .error (.fault fault) => throw (.fault fault)
        | .error (.failed error) => do
            emit (deviceDiagnostic error)
            Edit.fail (.internal error)) : FlowEdit κ StageOutcome) state := rfl
  rw [unfolded]
  generalize state.layout.fabric.device.selfCheck = checked
  rcases checked with (error | fault) | value <;> rfl

theorem checkLayout_enabled (state : FlowState κ) :
    checkLayout true state =
      match state.layout.check with
      | .ok () => .ok .passed state
      | .error (.fault fault) => .error (.fault fault) state
      | .error (.failed violation) =>
          .error (.failed (.invariant violation))
            { state with
              sink := state.sink.emit (DesignError.invariant violation).diagnostic } := by
  have unfolded : checkLayout true state =
      ((match state.layout.check with
        | .ok () => pure .passed
        | .error (.fault fault) => throw (.fault fault)
        | .error (.failed violation) => abort (.invariant violation)) :
          FlowEdit κ StageOutcome) state := rfl
  rw [unfolded]
  generalize state.layout.check = checked
  rcases checked with (violation | fault) | value <;> rfl

theorem checkDevice_ok {enabled : Bool} {outcome : StageOutcome}
    {state reached : FlowState κ}
    (passed : checkDevice enabled state = .ok outcome reached) :
    reached = state := by
  cases enabled with
  | false =>
      cases passed
      rfl
  | true =>
      rw [checkDevice_enabled] at passed
      split at passed
      · cases passed
        rfl
      · cases passed
      · cases passed

theorem checkLayout_ok {enabled : Bool} {outcome : StageOutcome}
    {state reached : FlowState κ}
    (passed : checkLayout enabled state = .ok outcome reached) :
    reached = state ∧ (enabled = true → state.layout.check = .ok ()) := by
  cases enabled with
  | false =>
      cases passed
      exact ⟨rfl, nofun⟩
  | true =>
      rw [checkLayout_enabled] at passed
      split at passed
      · rename_i consistent
        cases passed
        exact ⟨rfl, fun _ => consistent⟩
      · cases passed
      · cases passed

theorem checkLayout_of_passes {enabled : Bool} {state : FlowState κ}
    (passes : enabled = true → state.layout.check = .ok ()) :
    checkLayout enabled state =
      .ok (if enabled then .passed else .skipped) state := by
  cases enabled with
  | false => rfl
  | true =>
      rw [checkLayout_enabled, passes rfl]
      rfl

theorem conclude_of_passes {config : FlowConfig} {state : FlowState κ}
    (passes : config.flow.check = true → state.layout.check = .ok ())
    (outcomes : StageOutcome × StageOutcome) (before : Layout κ)
    (placement : StageOutcome) :
    conclude config outcomes before placement state =
      .ok (report config outcomes before state.layout placement) state := by
  rw [conclude, Edit.bind_of_ok (checkLayout_of_passes passes)]
  rfl

theorem gates_ok {config : FlowConfig} {outcomes : StageOutcome × StageOutcome}
    {state reached : FlowState κ}
    (passed : gates config state = .ok outcomes reached) :
    reached = state ∧ (config.flow.check = true → state.layout.check = .ok ()) := by
  obtain ⟨archCheck, middle, device, rest⟩ := Edit.bind_eq_ok_iff.mp passed
  obtain ⟨preCheck, last, layout, ends⟩ := Edit.bind_eq_ok_iff.mp rest
  cases ends
  rw [checkDevice_ok device] at layout
  exact checkLayout_ok layout

/-- What becomes of the way a placer ended. -/
def settle (config : FlowConfig) :
    Except (Stop DesignError) Unit → FlowEdit κ StageOutcome
  | .ok () => return .passed
  | .error (.fault fault) => throw (.fault fault)
  | .error (.failed error) => do
      if error.isInvariant || error.isInternal then
        abort error
      emit error.diagnostic
      if !config.flow.force then
        Edit.fail error
      emit carryOnDiagnostic
      return .failed error.message

theorem settle_failed (config : FlowConfig) {error : DesignError}
    (ordinary : error.Ordinary) (state : FlowState κ) :
    settle config (.error (.failed error)) state =
      if config.flow.force then
        .ok (.failed error.message)
          { state with
            sink := (state.sink.emit error.diagnostic).emit carryOnDiagnostic }
      else
        .error (.failed error)
          { state with sink := state.sink.emit error.diagnostic } := by
  simp only [settle, ordinary.invariant, ordinary.internal, Bool.or_self,
    Bool.false_eq_true, if_false]
  cases config.flow.force <;> rfl

variable [Scalar κ]

theorem placer_ordinary (config : PlaceConfig) (rule : LegalityRule κ) :
    (placer config rule).Ordinary := by
  unfold placer
  split
  · exact FirstFit.place_ordinary rule
  · exact Greedy.place_ordinary rule config.options

theorem keeps_placer (config : PlaceConfig) (rule : LegalityRule κ)
    (layout : Layout κ) :
    layout.Keeps ((placer config rule).after layout) := by
  unfold placer
  split
  · exact FirstFit.keeps_place rule layout
  · exact Greedy.keeps_place rule config.options layout

/-- The check passes after the placer of a flow, whichever way it ended. -/
theorem check_placed {layout : Layout κ}
    (free : layout.fabric.device.AvailableIsFree)
    (passes : layout.check = .ok ()) (config : PlaceConfig)
    (rule : LegalityRule κ) :
    ((placer config rule).after (layout.reseed config.seed)).check = .ok () := by
  have reseeded : (layout.reseed config.seed).check = .ok () := by
    rw [Layout.check_eq_ok_iff] at passes ⊢
    exact passes.of_same rfl rfl rfl
  exact (keeps_placer config rule (layout.reseed config.seed)).check free reseeded

theorem placeStage_eq (config : FlowConfig) (rule : LegalityRule κ)
    (state : FlowState κ) :
    placeStage config rule state =
      match placer config.place rule (state.layout.reseed config.place.seed) with
      | .ok () layout => .ok .passed ⟨layout, state.sink⟩
      | .error (.fault fault) layout => .error (.fault fault) ⟨layout, state.sink⟩
      | .error (.failed error) layout =>
          if config.flow.force then
            .ok (.failed error.message)
              ⟨layout, (state.sink.emit error.diagnostic).emit carryOnDiagnostic⟩
          else
            .error (.failed error) ⟨layout, state.sink.emit error.diagnostic⟩ := by
  have started : placeStage config rule state =
      (attempt (placer config.place rule) >>= settle config)
        ⟨state.layout.reseed config.place.seed, state.sink⟩ := rfl
  rw [started]
  cases run : placer config.place rule
      (state.layout.reseed config.place.seed) with
  | ok value layout =>
      have attempted : attempt (placer config.place rule)
          ⟨state.layout.reseed config.place.seed, state.sink⟩ =
            .ok (.ok ()) ⟨layout, state.sink⟩ := by
        simp only [attempt, run]
      rw [Edit.bind_of_ok attempted]
      rfl
  | error stop layout =>
      have attempted : attempt (placer config.place rule)
          ⟨state.layout.reseed config.place.seed, state.sink⟩ =
            .ok (.error stop) ⟨layout, state.sink⟩ := by
        simp only [attempt, run]
      rw [Edit.bind_of_ok attempted]
      cases stop with
      | fault fault => rfl
      | failed error =>
          have ordinary := (placer_ordinary config.place rule).error run
          exact settle_failed config ordinary ⟨layout, state.sink⟩

theorem layout_placeStage (config : FlowConfig) (rule : LegalityRule κ)
    (state : FlowState κ) :
    ((placeStage config rule).after state).layout =
      (placer config.place rule).after
        (state.layout.reseed config.place.seed) := by
  rw [Edit.after, placeStage_eq, Edit.after]
  cases placer config.place rule (state.layout.reseed config.place.seed) with
  | ok value layout => rfl
  | error stop layout =>
      cases stop with
      | fault fault => rfl
      | failed error => cases config.flow.force <;> rfl

theorem run_eq (config : FlowConfig) (rule : LegalityRule κ)
    (state : FlowState κ) :
    run config rule state =
      (gates config >>= fun outcomes => do
        let before ← get
        set { before with sink := warned before }
        let placement ← placeStage config rule
        conclude config outcomes before.layout placement) state := by
  cases device : checkDevice config.flow.archCheck state with
  | error stop reached =>
      rw [run, Edit.bind_of_error device, gates, bind_assoc,
        Edit.bind_of_error device]
  | ok archCheck middle =>
      rw [run, Edit.bind_of_ok device, gates, bind_assoc, Edit.bind_of_ok device]
      cases layout : checkLayout config.flow.check middle with
      | error stop reached =>
          rw [Edit.bind_of_error layout, bind_assoc, Edit.bind_of_error layout]
      | ok preCheck last =>
          rw [Edit.bind_of_ok layout, bind_assoc, Edit.bind_of_ok layout]
          rfl

theorem run_of_stopped {config : FlowConfig} {state reached : FlowState κ}
    {stop : Stop DesignError} (stopped : gates config state = .error stop reached)
    (rule : LegalityRule κ) : run config rule state = .error stop reached := by
  rw [run_eq, Edit.bind_of_error stopped]

/-- Once the gates are passed, the placer and the policy decide the run; the
second check passes whichever way the placer ended. -/
theorem run_of_passed {config : FlowConfig} {state reached : FlowState κ}
    {outcomes : StageOutcome × StageOutcome}
    (free : state.layout.fabric.device.AvailableIsFree)
    (passed : gates config state = .ok outcomes reached) (rule : LegalityRule κ) :
    run config rule state =
      match placer config.place rule (state.layout.reseed config.place.seed) with
      | .ok () layout =>
          .ok (report config outcomes state.layout layout .passed)
            ⟨layout, warned state⟩
      | .error (.fault fault) layout => .error (.fault fault) ⟨layout, warned state⟩
      | .error (.failed error) layout =>
          if config.flow.force then
            .ok (report config outcomes state.layout layout (.failed error.message))
              ⟨layout, ((warned state).emit error.diagnostic).emit
                carryOnDiagnostic⟩
          else
            .error (.failed error)
              ⟨layout, (warned state).emit error.diagnostic⟩ := by
  obtain ⟨rfl, checked⟩ := gates_ok passed
  have passes : config.flow.check = true →
      ((placer config.place rule).after
        (reached.layout.reseed config.place.seed)).check = .ok () := by
    intro enabled
    exact check_placed free (checked enabled) config.place rule
  have started : run config rule reached =
      (placeStage config rule >>= conclude config outcomes reached.layout)
        ⟨reached.layout, warned reached⟩ := by
    rw [run_eq, Edit.bind_of_ok passed]
    rfl
  have stage := placeStage_eq config rule ⟨reached.layout, warned reached⟩
  rw [started]
  cases placed : placer config.place rule
      (reached.layout.reseed config.place.seed) with
  | ok value layout =>
      rw [Edit.after_of_ok placed] at passes
      rw [placed] at stage
      rw [Edit.bind_of_ok stage]
      exact conclude_of_passes passes outcomes reached.layout .passed
  | error stop layout =>
      rw [Edit.after_of_error placed] at passes
      rw [placed] at stage
      cases stop with
      | fault fault => exact Edit.bind_of_error stage
      | failed error =>
          cases force : config.flow.force with
          | false =>
              rw [force] at stage
              exact Edit.bind_of_error stage
          | true =>
              rw [force] at stage
              rw [Edit.bind_of_ok stage]
              exact conclude_of_passes passes outcomes reached.layout _

/-- The two runs of a flow that differ only in the policy on failed
placements. -/
structure ForcedAlike (config : FlowConfig) (rule : LegalityRule κ)
    (state : FlowState κ) : Prop where
  /-- Design, generator and fabric end up the same, however the runs end. -/
  layout : ((run (config.withForce true) rule).after state).layout =
    ((run (config.withForce false) rule).after state).layout
  success : ∀ report reached,
    run (config.withForce false) rule state = .ok report reached →
      run (config.withForce true) rule state = .ok report reached
  gates : ∀ stop reached, gates config state = .error stop reached →
    run (config.withForce false) rule state = .error stop reached ∧
      run (config.withForce true) rule state = .error stop reached
  placement : ∀ outcomes error, (Flow.gates config).outcome state = .ok outcomes →
    (placer config.place rule).outcome
      (state.layout.reseed config.place.seed) = .error (.failed error) →
    ∃ stopped report reached,
      run (config.withForce false) rule state = .error (.failed error) stopped ∧
      run (config.withForce true) rule state = .ok report reached ∧
      report.placement = .failed error.message ∧
      report.postCheck = (if config.flow.check then .passed else .skipped) ∧
      reached.sink = stopped.sink.emit carryOnDiagnostic
  /-- There is no other way for a run to fail. -/
  failure : ∀ error stopped,
    run (config.withForce false) rule state = .error (.failed error) stopped →
    (Flow.gates config).outcome state = .error (.failed error) ∨
      ∃ outcomes, (Flow.gates config).outcome state = .ok outcomes ∧
        (placer config.place rule).outcome
          (state.layout.reseed config.place.seed) = .error (.failed error)
  fault : ∀ fault reached,
    run (config.withForce false) rule state = .error (.fault fault) reached →
      run (config.withForce true) rule state = .error (.fault fault) reached
  postCheck : ∀ outcomes force placement placed, config.flow.check = true →
    (Flow.gates config).outcome state = .ok outcomes →
    placeStage (config.withForce force) rule ⟨state.layout, warned state⟩ =
      .ok placement placed →
    checkLayout true placed = .ok .passed placed

section Cases

variable {config : FlowConfig} {rule : LegalityRule κ}
  {state reached : FlowState κ} {outcomes : StageOutcome × StageOutcome}

theorem forcedAlike_of_stopped {stop : Stop DesignError}
    (stopped : gates config state = .error stop reached) :
    ForcedAlike config rule state := by
  have run_eq (force : Bool) :
      run (config.withForce force) rule state = .error stop reached := by
    have gate : gates (config.withForce force) state = .error stop reached :=
      stopped
    exact run_of_stopped gate rule
  have outcome := Edit.outcome_of_error stopped
  constructor
  · rw [Edit.after_of_error (run_eq false), Edit.after_of_error (run_eq true)]
  · intro report last ended
    rw [run_eq] at ended
    cases ended
  · intro other last ended
    rw [stopped] at ended
    cases ended
    exact ⟨run_eq false, run_eq true⟩
  · intro outcomes error ended
    rw [outcome] at ended
    cases ended
  · intro error last ended
    rw [run_eq] at ended
    cases ended
    exact .inl outcome
  · intro fault last ended
    rw [run_eq] at ended
    cases ended
    exact run_eq true
  · intro outcomes force placement placed _ ended
    rw [outcome] at ended
    cases ended

variable (free : state.layout.fabric.device.AvailableIsFree)
  (passed : gates config state = .ok outcomes reached)

include free passed

theorem run_withForce (force : Bool) :
    run (config.withForce force) rule state =
      match placer config.place rule (state.layout.reseed config.place.seed) with
      | .ok () layout =>
          .ok (report config outcomes state.layout layout .passed)
            ⟨layout, warned state⟩
      | .error (.fault fault) layout => .error (.fault fault) ⟨layout, warned state⟩
      | .error (.failed error) layout =>
          if force then
            .ok (report config outcomes state.layout layout (.failed error.message))
              ⟨layout, ((warned state).emit error.diagnostic).emit
                carryOnDiagnostic⟩
          else
            .error (.failed error)
              ⟨layout, (warned state).emit error.diagnostic⟩ := by
  have gate : gates (config.withForce force) state = .ok outcomes reached :=
    passed
  exact run_of_passed free gate rule

/-- The layout that the placement stage leaves behind passes the second
check. -/
theorem checkLayout_placed (enabled : config.flow.check = true) {force : Bool}
    {placement : StageOutcome} {placed : FlowState κ}
    (stage : placeStage (config.withForce force) rule
      ⟨state.layout, warned state⟩ = .ok placement placed) :
    checkLayout true placed = .ok .passed placed := by
  have passes := (gates_ok passed).2 enabled
  have left := layout_placeStage (config.withForce force) rule
    ⟨state.layout, warned state⟩
  rw [Edit.after_of_ok stage] at left
  have after : placed.layout.check = .ok () := by
    rw [left]
    exact check_placed free passes config.place rule
  exact checkLayout_of_passes (fun _ => after)

/-- Runs that do not fail in placement are the same run. -/
theorem forcedAlike_of_same
    {result : EStateM.Result (Stop DesignError) (FlowState κ) FlowReport}
    (same : ∀ force, run (config.withForce force) rule state = result)
    (survives : ∀ error last, result ≠ .error (.failed error) last)
    (placed : ∀ error, (placer config.place rule).outcome
      (state.layout.reseed config.place.seed) ≠ .error (.failed error)) :
    ForcedAlike config rule state := by
  constructor
  · rw [Edit.after, Edit.after, same, same]
  · intro report last ended
    rw [same] at ended ⊢
    exact ended
  · intro stop last ended
    rw [passed] at ended
    cases ended
  · intro others error _ ended
    exact absurd ended (placed error)
  · intro error last ended
    rw [same] at ended
    exact absurd ended (survives error last)
  · intro fault last ended
    rw [same] at ended ⊢
    exact ended
  · intro others force placement placed enabled _ stage
    exact checkLayout_placed free passed enabled stage

theorem forcedAlike_of_failed {error : DesignError} {layout : Layout κ}
    (failed : placer config.place rule
      (state.layout.reseed config.place.seed) = .error (.failed error) layout) :
    ForcedAlike config rule state := by
  have unforced : run (config.withForce false) rule state =
      .error (.failed error) ⟨layout, (warned state).emit error.diagnostic⟩ := by
    rw [run_withForce free passed, failed]
    rfl
  have forced : run (config.withForce true) rule state =
      .ok (report config outcomes state.layout layout (.failed error.message))
        ⟨layout, ((warned state).emit error.diagnostic).emit carryOnDiagnostic⟩ := by
    rw [run_withForce free passed, failed]
    rfl
  have outcome := Edit.outcome_of_error failed
  constructor
  · rw [Edit.after_of_error unforced, Edit.after_of_ok forced]
  · intro report last ended
    rw [unforced] at ended
    cases ended
  · intro stop last ended
    rw [passed] at ended
    cases ended
  · intro others other _ ended
    rw [outcome] at ended
    cases ended
    exact ⟨_, _, _, unforced, forced, rfl, rfl, rfl⟩
  · intro other last ended
    rw [unforced] at ended
    cases ended
    exact .inr ⟨outcomes, Edit.outcome_of_ok passed, outcome⟩
  · intro fault last ended
    rw [unforced] at ended
    cases ended
  · intro others force placement placed enabled _ stage
    exact checkLayout_placed free passed enabled stage

end Cases

/-- Force mode changes the verdict on a failed placement and nothing else. -/
theorem run_forcedAlike {state : FlowState κ}
    (free : state.layout.fabric.device.AvailableIsFree) (config : FlowConfig)
    (rule : LegalityRule κ) : ForcedAlike config rule state := by
  cases passed : gates config state with
  | error stop reached => exact forcedAlike_of_stopped passed
  | ok outcomes reached =>
      have runs (force : Bool) : run (config.withForce force) rule state = _ :=
        run_withForce free passed force
      cases placed : placer config.place rule
          (state.layout.reseed config.place.seed) with
      | ok value layout =>
          rw [placed] at runs
          apply forcedAlike_of_same free passed runs
          · exact fun _ _ failed => nomatch failed
          · intro error ended
            rw [Edit.outcome_of_ok placed] at ended
            cases ended
      | error stop layout =>
          cases stop with
          | failed error => exact forcedAlike_of_failed free passed placed
          | fault fault =>
              rw [placed] at runs
              apply forcedAlike_of_same free passed runs
              · exact fun _ _ failed => nomatch failed
              · intro error ended
                rw [Edit.outcome_of_error placed] at ended
                cases ended

/-- Two cells and one bel: the unforced run stops where the forced one
carries on. -/
theorem run_forcedAlike_of_crowded :
    ∃ stopped report reached,
      run (FlowConfig.default.withForce false) .anyBel
        ⟨.twoCells Layout.tinyDevice, .empty⟩ =
          .error (.failed (.noLegalBel "b" "LUT")) stopped ∧
      run (FlowConfig.default.withForce true) .anyBel
        ⟨.twoCells Layout.tinyDevice, .empty⟩ = .ok report reached ∧
      report.postCheck = .passed ∧ report.succeeded = false ∧
      reached.sink = stopped.sink.emit carryOnDiagnostic ∧
      reached.layout = stopped.layout := by
  have free : Layout.tinyDevice.AvailableIsFree := Grid.availableIsFree _
  have alike : ForcedAlike FlowConfig.default .anyBel
      ⟨.twoCells Layout.tinyDevice, .empty⟩ :=
    run_forcedAlike free FlowConfig.default .anyBel
  have gate : (gates FlowConfig.default).outcome
      ⟨.twoCells Layout.tinyDevice, .empty⟩ = .ok (.skipped, .passed) := rfl
  have crowded : (placer FlowConfig.default.place .anyBel).outcome
      ((Layout.twoCells Layout.tinyDevice).reseed
        FlowConfig.default.place.seed) = .error (.failed (.noLegalBel "b" "LUT")) :=
    rfl
  obtain ⟨stopped, report, reached, unforced, forced, failed, passed, sink⟩ :=
    alike.placement _ _ gate crowded
  have layout := alike.layout
  rw [Edit.after_of_error unforced, Edit.after_of_ok forced] at layout
  refine ⟨stopped, report, reached, unforced, forced, passed, ?_, sink, layout⟩
  simp [FlowReport.succeeded, failed, StageOutcome.isOk]

end Flow

end FpgaPlacer
