import FpgaPlacer.Proofs.DesignGrowth
import FpgaPlacer.Proofs.ReachableLayouts

/-!
# Designs built with ports added again

An input that is connected again to a net that kept its old entry is listed
twice, and this is all that can go wrong with a design that is only built: the
check fails over such an input and over nothing else.
-/

namespace FpgaPlacer

variable {κ : Type}

namespace GraphCall

/-- The calls that build a design; the others bind resources or set budgets. -/
def Builds : GraphCall → Prop
  | createCell .. | createNet .. | addPort .. | connectPort .. => True
  | _ => False

/-- The connection that a call asks for. -/
def asked : GraphCall → Option (Symbol × Symbol × Symbol)
  | connectPort net cell port => some (net, cell, port)
  | _ => none

/-- Whether a call connects an input port to a net that lists it already. -/
def Relists (layout : Layout κ) (call : GraphCall) : Prop :=
  ∃ net cell port, call.asked = some (net, cell, port) ∧
    layout.design.Relisting net cell port

theorem Builds.growth {call : GraphCall} (builds : call.Builds)
    (layout : Layout κ) :
    layout.design.Growth call.asked (call.after layout).design := by
  cases call with
  | createCell name cellType => exact layout.design.growth_createCell ..
  | createNet name => exact layout.design.growth_createNet ..
  | addPort cell port direction => exact layout.design.growth_addPort ..
  | connectPort net cell port => exact layout.design.growth_connectPort ..
  | _ => cases builds

theorem Builds.fabric {call : GraphCall} (builds : call.Builds)
    (layout : Layout κ) : (call.after layout).fabric = layout.fabric := by
  cases call with
  | createCell | createNet | addPort | connectPort => rfl
  | _ => cases builds

end GraphCall

namespace Layout

/-- The layouts that building calls alone make from an empty one, whatever
ports they add again. -/
inductive Constructed (device : Device κ) : Layout κ → Prop where
  | fresh : Constructed device (.fresh device)
  | step {layout : Layout κ} (constructed : Constructed device layout)
      (call : GraphCall) (builds : call.Builds) :
      Constructed device (call.after layout)

variable {device : Device κ} {layout : Layout κ}

theorem drafted_fresh (device : Device κ) : (fresh device).design.Drafted := by
  constructor
  · exact (sound_fresh device).filed
  · intro key net stored
    cases stored
  · intro key cell stored
    cases stored
  · intro cell port record key present
    cases present

theorem Constructed.drafted (constructed : Constructed device layout) :
    layout.design.Drafted := by
  induction constructed with
  | fresh => exact drafted_fresh device
  | step constructed call builds induction =>
      exact (builds.growth _).drafted induction

theorem Constructed.fabric (constructed : Constructed device layout) :
    layout.fabric = ⟨device, .empty⟩ := by
  induction constructed with
  | fresh => rfl
  | step constructed call builds induction =>
      exact (builds.fabric _).trans induction

/-- Nothing is bound and nothing routed, so only connections are left to
check. -/
theorem Constructed.routed (constructed : Constructed device layout) :
    layout.Routed := by
  have unrouted {key : Symbol} {net : Net} {wire : WireId} {hop : Hop}
      (known : layout.design.nets.get? key = some net) :
      net.wires.get? wire ≠ some hop := by
    rw [constructed.drafted.unrouted known]
    exact nofun
  constructor
  · exact fun known routed => absurd routed (unrouted known)
  · exact fun known routed => absurd routed (unrouted known)
  · exact fun known routed => absurd routed (unrouted known)
  · intro wire key enumerated held
    rw [constructed.fabric] at held
    cases held

theorem Constructed.seated (constructed : Constructed device layout) :
    layout.Seated := by
  constructor
  intro key cell bel found placed
  rw [constructed.drafted.unplaced found] at placed
  cases placed

theorem Constructed.check_eq_ok_iff (constructed : Constructed device layout) :
    layout.check = .ok () ↔
      ∀ cell port, ¬ layout.design.Overlisted cell port := by
  have drafted := constructed.drafted
  rw [Layout.check_eq_ok_iff]
  constructor
  · rintro ⟨_, _, _, connected⟩ cell port
      ⟨record, key, net, present, input, joined, stored, often⟩
    obtain ⟨cellRecord, found, has⟩ := Option.bind_eq_some_iff.mp present
    obtain ⟨same, known, _, listed⟩ := connected.net found has joined
    rw [stored] at known
    cases known
    rw [listed input] at often
    exact absurd often (Nat.lt_irrefl 1)
  · intro once
    refine ⟨drafted.filed, constructed.routed, constructed.seated, ⟨?_⟩⟩
    intro cell record port portRecord key found has joined
    have present : layout.design.portAt cell port = some portRecord := by
      rw [Design.portAt_of_found found, has]
    obtain ⟨net, known, serves⟩ := drafted.linked present joined
    refine ⟨net, known, ?_, ?_⟩
    · intro output
      rwa [Net.Serves, if_pos output] at serves
    · intro input
      rw [Net.Serves, if_neg (by simp [input])] at serves
      have atMost : userCount net cell port ≤ 1 := by
        apply Nat.le_of_not_lt
        intro often
        exact once cell port
          ⟨portRecord, key, net, present, input, joined, known, often⟩
      exact Nat.le_antisymm atMost serves

/-- The one rule a port of a built design can break. -/
theorem checkPort_eq_error {design : Design} (drafted : design.Drafted)
    {cell port : Symbol} {record : Port} {name : String}
    (present : design.portAt cell port = some record) {stop : Stop Violation}
    (failing : checkPort design cell name (port, record) = .error stop) :
    ∃ port cell count net, 1 < count ∧
      stop = .failed (.portUserCount port cell count net) := by
  obtain ⟨portName, direction, linked⟩ := record
  cases linked with
  | none => cases failing
  | some key =>
      obtain ⟨net, known, serves⟩ := drafted.linked present rfl
      simp only [checkPort, known] at failing
      cases direction with
      | output =>
          rw [Net.Serves, if_pos rfl] at serves
          rw [serves] at failing
          cases failing
      | bidirectional => cases failing
      | input =>
          have undriving : Direction.input ≠ .output := by decide
          rw [Net.Serves, if_neg undriving] at serves
          obtain ⟨different, rfl⟩ := ensure_eq_error_iff.mp failing
          have notOne := of_decide_eq_false different
          exact ⟨_, _, _, _, by omega, rfl⟩

theorem Constructed.check_eq_error (constructed : Constructed device layout)
    {stop : Stop Violation} (failed : layout.check = .error stop) :
    ∃ port cell count net, 1 < count ∧
      stop = .failed (.portUserCount port cell count net) := by
  have drafted := constructed.drafted
  have routed := constructed.routed
  have nets : layout.design.nets.toList.forM layout.checkNet = .ok () := by
    rw [checked_forM_eq_ok_iff]
    rintro ⟨key, net⟩ member
    have known := Table.mem_toList_iff.mp member
    rw [checkNet_eq_ok_iff]
    refine ⟨drafted.filed.net known, fun wire hop onTree => ?_⟩
    exact ⟨routed.wire known onTree, fun pip reached =>
      ⟨routed.target known onTree reached, routed.pip known onTree reached⟩⟩
  have wires : layout.fabric.device.wires.forM layout.checkWire = .ok () := by
    rw [checked_forM_eq_ok_iff]
    intro wire enumerated
    rw [checkWire_eq_ok_iff]
    exact fun key held => routed.holder enumerated held
  simp only [check, checked_then_eq_error_iff, nets, wires, reduceCtorEq,
    false_or, true_and] at failed
  obtain ⟨⟨key, cell⟩, member, failing⟩ := checked_forM_eq_error failed
  have found := Table.mem_toList_iff.mp member
  simp only [checkCell, drafted.filed.cell found, drafted.unplaced found,
    checkBel, ensure, decide_true, if_true, checked_then_eq_error_iff,
    reduceCtorEq, false_or, true_and] at failing
  obtain ⟨⟨port, record⟩, listed, broken⟩ := checked_forM_eq_error failing
  apply checkPort_eq_error drafted _ broken
  rw [Design.portAt_of_found found]
  exact Table.mem_toList_iff.mp listed

/-- After a building call on a design that passes, the check fails exactly when
the call lists a port again. -/
theorem Constructed.check_after_iff (constructed : Constructed device layout)
    {call : GraphCall} (builds : call.Builds) (passes : layout.check = .ok ()) :
    (call.after layout).check = .ok () ↔ ¬ call.Relists layout := by
  rw [(constructed.step call builds).check_eq_ok_iff]
  have once := constructed.check_eq_ok_iff.mp passes
  constructor
  · rintro after ⟨net, cell, port, request, relisting⟩
    cases call with
    | connectPort =>
        cases request
        exact after cell port relisting.overlisted
    | _ => cases request
  · intro careful cell port relisted
    rcases (builds.growth layout).overlisted_cases constructed.drafted relisted with
      former | ⟨net, request, relisting⟩
    · exact once cell port former
    · exact careful ⟨net, cell, port, request, relisting⟩

/-- In a design built by any calls, connected outputs drive their nets and
other connected ports are listed; the check fails only over an input port that
is listed more than once, and the call to blame is the one that listed it
again. -/
theorem Constructed.relisting_characterized {device : Device κ}
    {layout : Layout κ} (constructed : Constructed device layout) :
    (∀ cell port record key, layout.design.portAt cell port = some record →
      record.net = some key →
      ∃ net, layout.design.nets.get? key = some net ∧
        net.Serves record.direction cell port) ∧
    (layout.check = .ok () ↔
      ∀ cell port, ¬ layout.design.Overlisted cell port) ∧
    (∀ stop, layout.check = .error stop →
      ∃ port cell count net, 1 < count ∧
        stop = .failed (.portUserCount port cell count net)) ∧
    (∀ call : GraphCall, call.Builds → layout.check = .ok () →
      ((call.after layout).check = .ok () ↔ ¬ call.Relists layout)) := by
  refine ⟨?_, constructed.check_eq_ok_iff, ?_, ?_⟩
  · exact fun cell port record key present joined =>
      constructed.drafted.linked present joined
  · exact fun stop failed => constructed.check_eq_error failed
  · exact fun call builds passes => constructed.check_after_iff builds passes

theorem Constructed.run (constructed : Constructed device layout)
    (calls : List GraphCall) (builds : ∀ call ∈ calls, call.Builds) :
    Constructed device (GraphCall.run calls layout) := by
  induction calls generalizing layout with
  | nil => exact constructed
  | cons call calls induction =>
      have first := constructed.step call (builds call List.mem_cons_self)
      apply induction first
      exact fun later member => builds later (List.mem_cons_of_mem call member)

/-- Connects an input and adds it again. -/
def readdedInput : List GraphCall :=
  [.createCell "a" "LUT", .addPort ⟨1⟩ "D" .input, .createNet "n",
    .connectPort ⟨4⟩ ⟨1⟩ ⟨3⟩, .addPort ⟨1⟩ "D" .input]

/-- Connecting the input once more is the call to blame. -/
theorem Constructed.relisting_characterized_of_readded :
    ∃ layout, Constructed tinyDevice layout ∧ layout.check = .ok () ∧
      (GraphCall.connectPort ⟨4⟩ ⟨1⟩ ⟨3⟩).Relists layout ∧
      ((GraphCall.connectPort ⟨4⟩ ⟨1⟩ ⟨3⟩).after layout).check ≠ .ok () := by
  have start : Constructed tinyDevice (.fresh tinyDevice) := .fresh
  have constructed := start.run readdedInput
    (by simp [readdedInput, GraphCall.Builds])
  have passes : (GraphCall.run readdedInput
      (Layout.fresh tinyDevice)).check = .ok () := rfl
  have relists : (GraphCall.connectPort ⟨4⟩ ⟨1⟩ ⟨3⟩).Relists
      (GraphCall.run readdedInput (Layout.fresh tinyDevice)) := by
    refine ⟨⟨4⟩, ⟨1⟩, ⟨3⟩, rfl, _, _, _, ⟨rfl, rfl, rfl, rfl, nofun⟩, rfl, ?_⟩
    decide
  obtain ⟨_, _, _, blame⟩ := constructed.relisting_characterized
  refine ⟨_, constructed, passes, relists, ?_⟩
  intro after
  exact (blame (.connectPort ⟨4⟩ ⟨1⟩ ⟨3⟩) trivial passes).mp after relists

/-- An input port added again after it was connected can be listed twice. -/
theorem readded_input_listed_twice :
    ∃ layout, Constructed tinyDevice layout ∧
      layout.check = .error (.failed (.portUserCount "D" "a" 2 "n")) := by
  refine ⟨_, Constructed.fresh.run
    (readdedInput ++ [.connectPort ⟨4⟩ ⟨1⟩ ⟨3⟩]) ?_, rfl⟩
  simp [readdedInput, GraphCall.Builds]

end Layout

end FpgaPlacer
