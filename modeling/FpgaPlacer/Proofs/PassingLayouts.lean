import FpgaPlacer.Proofs.PassingCheck
import FpgaPlacer.Proofs.ReachableLayouts

/-!
# What a passing check rules out

The check compares the design with the occupancy in both directions, so a
layout that passes has no resource with two holders, and its design alone says
who holds the enumerated wires.  A change of their holders behind the design's
back is therefore always noticed, and the violation names a wire whose holder
has changed.
-/

namespace FpgaPlacer

/-- The wire whose holder breaks the rule that a violation reports. -/
def Violation.misheldWire : Violation → Option WireId
  | wireNotBound wire _ | wireNetUnknown wire _ | wireUnrouted wire _ => some wire
  | _ => none

namespace Layout

variable {κ : Type}

/-- No resource has two holders. -/
structure Exclusive (layout : Layout κ) : Prop where
  bel : ∀ {left right leftCell rightCell bel},
    layout.design.cells.get? left = some leftCell →
    layout.design.cells.get? right = some rightCell →
    leftCell.bel = some bel → rightCell.bel = some bel → left = right
  wire : ∀ {left right leftNet rightNet wire},
    layout.design.nets.get? left = some leftNet →
    layout.design.nets.get? right = some rightNet →
    leftNet.wires.contains wire = true → rightNet.wires.contains wire = true →
    left = right
  pip : ∀ {left right leftNet rightNet leftWire rightWire leftHop rightHop pip},
    layout.design.nets.get? left = some leftNet →
    layout.design.nets.get? right = some rightNet →
    leftNet.wires.get? leftWire = some leftHop →
    rightNet.wires.get? rightWire = some rightHop →
    leftHop.pip = some pip → rightHop.pip = some pip →
    left = right ∧ leftWire = rightWire
  driver : ∀ {left right leftCell rightCell leftKey rightKey leftPort rightPort net},
    layout.design.cells.get? left = some leftCell →
    layout.design.cells.get? right = some rightCell →
    leftCell.ports.get? leftKey = some leftPort →
    rightCell.ports.get? rightKey = some rightPort →
    leftPort.direction = .output → rightPort.direction = .output →
    leftPort.net = some net → rightPort.net = some net →
    left = right ∧ leftKey = rightKey

/-- The same design on the same device, occupied otherwise. -/
def occupied (layout : Layout κ) (occupancy : Occupancy) : Layout κ :=
  { layout with fabric := { layout.fabric with occupancy } }

/-- The same design on the same device, with its wires held otherwise. -/
def withWires (layout : Layout κ) (wires : Table .wire Binding) : Layout κ :=
  layout.occupied { layout.fabric.occupancy with wires }

variable {layout : Layout κ}

theorem Consistent.exclusive (consistent : layout.Consistent) :
    layout.Exclusive := by
  obtain ⟨-, routed, seated, connected⟩ := consistent
  constructor
  · exact seated.eq_of_bel
  · intro left right leftNet rightNet wire leftKnown rightKnown onLeft onRight
    obtain ⟨leftHop, leftRouted⟩ := Table.contains_iff.mp onLeft
    obtain ⟨rightHop, rightRouted⟩ := Table.contains_iff.mp onRight
    have held := routed.wire leftKnown leftRouted
    rw [routed.wire rightKnown rightRouted] at held
    exact (Option.some.inj held).symm
  · intro left right leftNet rightNet leftWire rightWire leftHop rightHop pip
      leftKnown rightKnown leftRouted rightRouted leftReached rightReached
    have held := routed.pip leftKnown leftRouted leftReached
    rw [routed.pip rightKnown rightRouted rightReached] at held
    have target := routed.target leftKnown leftRouted leftReached
    rw [routed.target rightKnown rightRouted rightReached] at target
    exact ⟨(Option.some.inj held).symm, (Except.ok.inj target).symm⟩
  · intro left right leftCell rightCell leftKey rightKey leftPort rightPort net
      leftFound rightFound leftHas rightHas leftOutput rightOutput leftJoined
      rightJoined
    obtain ⟨record, known, leftDrives, -⟩ :=
      connected.net leftFound leftHas leftJoined
    obtain ⟨same, known', rightDrives, -⟩ :=
      connected.net rightFound rightHas rightJoined
    cases known.symm.trans known'
    obtain ⟨leftCell, leftAt⟩ := NetEnd.isAt_iff.mp (leftDrives leftOutput)
    obtain ⟨rightCell, rightAt⟩ := NetEnd.isAt_iff.mp (rightDrives rightOutput)
    exact ⟨Option.some.inj (leftCell.symm.trans rightCell), leftAt.symm.trans rightAt⟩

theorem Routed.netOnWire_eq_some_iff (routed : layout.Routed) {wire : WireId}
    {key : Symbol} (enumerated : wire ∈ layout.fabric.device.wires) :
    layout.fabric.netOnWire wire = some key ↔
      ∃ net, layout.design.nets.get? key = some net ∧
        net.wires.contains wire = true := by
  constructor
  · exact routed.holder enumerated
  · intro onTree
    obtain ⟨net, known, contains⟩ := onTree
    obtain ⟨hop, found⟩ := Table.contains_iff.mp contains
    exact routed.wire known found

/-- The design alone determines who holds an enumerated wire. -/
theorem Routed.netOnWire_occupied (routed : layout.Routed)
    {occupancy : Occupancy} (rerouted : (layout.occupied occupancy).Routed)
    {wire : WireId} (enumerated : wire ∈ layout.fabric.device.wires) :
    occupancy.netOnWire wire = layout.fabric.netOnWire wire := by
  apply Option.ext
  intro key
  exact (rerouted.netOnWire_eq_some_iff enumerated).trans
    (routed.netOnWire_eq_some_iff enumerated).symm

/-! ## What the check reports once wires have changed hands -/

section Rewired

variable {wires : Table .wire Binding}

/-- Whether a wire has another holder than before. -/
def Rewired (layout : Layout κ) (wires : Table .wire Binding) (wire : WireId) :
    Prop :=
  (layout.withWires wires).fabric.netOnWire wire ≠ layout.fabric.netOnWire wire

/-- A check that ends early reports a wire that has changed hands. -/
def Blames (layout : Layout κ) (wires : Table .wire Binding) (checked : Checked) :
    Prop :=
  ∀ stop, checked = .error stop → ∃ violation wire,
    stop = .failed violation ∧ violation.misheldWire = some wire ∧
      layout.Rewired wires wire

theorem blames_of_ok {checked : Checked} (passes : checked = .ok ()) :
    layout.Blames wires checked := by
  intro stop failed
  rw [passes] at failed
  cases failed

theorem Blames.bind {first : Checked} {next : Unit → Checked}
    (start : layout.Blames wires first) (rest : layout.Blames wires (next ())) :
    layout.Blames wires (first >>= next) := by
  intro stop failed
  obtain here | ⟨-, later⟩ := checked_then_eq_error_iff.mp failed
  · exact start stop here
  · exact rest stop later

theorem Blames.forM {α : Type} {step : α → Checked} {items : List α}
    (each : ∀ item ∈ items, layout.Blames wires (step item)) :
    layout.Blames wires (items.forM step) := by
  intro stop failed
  obtain ⟨item, member, failing⟩ := checked_forM_eq_error failed
  exact each item member stop failing

/-- The only step that reads the wire table of the fabric is the first. -/
theorem blames_checkHop {key : Symbol} {name : String} {wire : WireId} {hop : Hop}
    (passes : checkHop layout.fabric key name (wire, hop) = .ok ()) :
    layout.Blames wires
      (checkHop (layout.withWires wires).fabric key name (wire, hop)) := by
  apply Blames.bind
  · intro stop failed
    refine ⟨.wireNotBound wire name, wire, ?_, rfl, ?_⟩
    · exact (ensure_eq_error_iff.mp failed).2
    · intro unchanged
      have different := (ensure_eq_error_iff.mp failed).1
      rw [unchanged, (checkHop_eq_ok_iff.mp passes).1] at different
      simp at different
  · exact blames_of_ok (checked_then_eq_ok_iff.mp passes).2

theorem blames_checkNet {key : Symbol} {net : Net}
    (passes : layout.checkNet (key, net) = .ok ()) :
    layout.Blames wires ((layout.withWires wires).checkNet (key, net)) := by
  obtain ⟨filed, hops⟩ := checked_then_eq_ok_iff.mp passes
  apply Blames.bind
  · exact blames_of_ok filed
  · apply Blames.forM
    intro entry member
    exact blames_checkHop (checked_forM_eq_ok_iff.mp hops entry member)

theorem blames_checkWire {wire : WireId}
    (passes : layout.checkWire wire = .ok ()) :
    layout.Blames wires ((layout.withWires wires).checkWire wire) := by
  by_cases rewired : layout.Rewired wires wire
  · intro stop failed
    unfold checkWire at failed
    split at failed
    · cases failed
    · split at failed
      · cases failed
        exact ⟨_, wire, rfl, rfl, rewired⟩
      · exact ⟨_, wire, (ensure_eq_error_iff.mp failed).2, rfl, rewired⟩
  · apply blames_of_ok
    rw [← passes]
    unfold checkWire
    rw [Classical.not_not.mp rewired]
    rfl

/-- Whatever the check reports after wires have changed hands is the changed
holder of a wire. -/
theorem Consistent.blames_check (consistent : layout.Consistent)
    (wires : Table .wire Binding) :
    layout.Blames wires (layout.withWires wires).check := by
  obtain ⟨nets, rest⟩ :=
    checked_then_eq_ok_iff.mp (check_eq_ok_iff.mpr consistent)
  obtain ⟨enumerated, cells⟩ := checked_then_eq_ok_iff.mp rest
  apply Blames.bind
  · apply Blames.forM
    intro entry member
    exact blames_checkNet (checked_forM_eq_ok_iff.mp nets entry member)
  · apply Blames.bind
    · apply Blames.forM
      intro wire member
      exact blames_checkWire (checked_forM_eq_ok_iff.mp enumerated wire member)
    · exact blames_of_ok cells

end Rewired

/-- The check passes exactly on the consistent layouts.  There every resource has one
holder, the design determines the holders of the enumerated wires, and a change
of one of them is reported as such. -/
theorem check_passes_exactly (layout : Layout κ) :
    (layout.check = .ok () ↔ layout.Consistent) ∧
      (layout.check = .ok () →
        layout.Exclusive ∧
        (∀ occupancy, (layout.occupied occupancy).check = .ok () →
          ∀ wire ∈ layout.fabric.device.wires,
            occupancy.netOnWire wire = layout.fabric.netOnWire wire) ∧
        (∀ wires wire, wire ∈ layout.fabric.device.wires →
          layout.Rewired wires wire →
          ∃ violation changed,
            (layout.withWires wires).check = .error (.failed violation) ∧
              violation.misheldWire = some changed ∧
              layout.Rewired wires changed)) := by
  refine ⟨check_eq_ok_iff, ?_⟩
  intro passes
  have consistent := check_eq_ok_iff.mp passes
  have determined (occupancy : Occupancy)
      (stillPasses : (layout.occupied occupancy).check = .ok ()) (wire : WireId)
      (enumerated : wire ∈ layout.fabric.device.wires) :
      occupancy.netOnWire wire = layout.fabric.netOnWire wire :=
    consistent.routed.netOnWire_occupied (check_eq_ok_iff.mp stillPasses).routed
      enumerated
  refine ⟨consistent.exclusive, determined, ?_⟩
  intro wires wire enumerated rewired
  cases ended : (layout.withWires wires).check with
  | ok => exact absurd (determined _ ended wire enumerated) rewired
  | error stop =>
      obtain ⟨violation, changed, failed, misheld, moved⟩ :=
        consistent.blames_check wires stop ended
      exact ⟨violation, changed, failed ▸ rfl, misheld, moved⟩

def pipDevice : Device Int :=
  let grid := ((Grid.empty "g").addBel "B0" "LUT" 0 0).2
  let grid := (grid.addBel "B1" "LUT" 1 0).2
  let grid := (grid.addWire "A" 1.0).2
  let grid := (grid.addWire "B" 1.0).2
  (grid.addPip ⟨0⟩ ⟨1⟩ 0.1).2.device Int

/-- One cell drives another over both wires. -/
def routedPair : Layout Int :=
  GraphCall.run
    [.createCell "a" "LUT", .createCell "b" "LUT", .addPort ⟨1⟩ "Q" .output,
      .addPort ⟨3⟩ "D" .input, .createNet "n", .connectPort ⟨6⟩ ⟨1⟩ ⟨4⟩,
      .connectPort ⟨6⟩ ⟨3⟩ ⟨5⟩, .bindBel ⟨1⟩ ⟨0⟩ .weak, .bindBel ⟨3⟩ ⟨1⟩ .weak,
      .bindWire ⟨6⟩ ⟨0⟩ .weak, .bindPip ⟨6⟩ ⟨0⟩ .weak] (.fresh pipDevice)

/-- Freeing the second wire is reported. -/
theorem check_passes_exactly_of_routedPair :
    routedPair.check = .ok () ∧ routedPair.Exclusive ∧
      ∃ violation changed,
        (routedPair.withWires (routedPair.fabric.occupancy.wires.erase ⟨1⟩)).check =
            .error (.failed violation) ∧
          violation.misheldWire = some changed ∧
          routedPair.Rewired (routedPair.fabric.occupancy.wires.erase ⟨1⟩) changed := by
  have passes : routedPair.check = .ok () := rfl
  obtain ⟨exclusive, -, noticed⟩ := (check_passes_exactly routedPair).2 passes
  have enumerated : (⟨1⟩ : WireId) ∈ routedPair.fabric.device.wires := by decide
  have freed : routedPair.Rewired (routedPair.fabric.occupancy.wires.erase ⟨1⟩) ⟨1⟩ := by
    intro unchanged
    have held : routedPair.fabric.netOnWire ⟨1⟩ = some ⟨6⟩ := rfl
    rw [held] at unchanged
    cases unchanged
  exact ⟨passes, exclusive, noticed _ ⟨1⟩ enumerated freed⟩

end Layout

end FpgaPlacer
