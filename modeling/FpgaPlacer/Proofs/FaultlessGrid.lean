import FpgaPlacer.Layout.RouteDelay
import FpgaPlacer.Proofs.SitedPlacement
import FpgaPlacer.Proofs.OverusedTypes
import FpgaPlacer.Proofs.ReportedFlow

/-!
# Layouts on a grid never fault

A grid answers every question about the handles that it handed out.  As long as
a layout keeps no other handles, neither a query nor a placer comes to ask about
any: handles are enumerated, found by name, or read from the tables, the pins
and the pips, and each of these sources holds handles of the grid only.
Placement leaves such a layout behind, whichever way it ends.
-/

namespace FpgaPlacer

variable {κ : Type}

namespace Grid

/-- The grid has been made by the calls that build one. -/
inductive Built : Grid → Prop where
  | empty (name : String) : Built (.empty name)
  | withDelayModel {grid : Grid} (built : Built grid) (baseDelay unitDelay : Float) :
      Built (grid.withDelayModel baseDelay unitDelay)
  | addBel {grid : Grid} (built : Built grid) (name typeName : String) (x y : Int) :
      Built (grid.addBel name typeName x y).2
  | addWire {grid : Grid} (built : Built grid) (name : String) (delay : Float) :
      Built (grid.addWire name delay).2
  | addPip {grid : Grid} (built : Built grid) (source target : WireId)
      (delay : Float) : Built (grid.addPip source target delay).2
  | addPin {grid next : Grid} (built : Built grid) (bel : BelId) (pin : String)
      (wire : WireId) (added : grid.addPin bel pin wire = .ok next) : Built next

theorem Built.registered {grid : Grid} (built : grid.Built) : grid.Registered := by
  induction built with
  | empty name => exact registered_empty name
  | withDelayModel _ _ _ induction => exact induction
  | addBel _ name typeName x y induction => exact induction.addBel name typeName x y
  | addWire _ _ _ induction => exact induction
  | addPip _ _ _ _ induction => exact induction
  | @addPin grid next _ bel pin wire added induction =>
      rw [Grid.addPin] at added
      split at added
      · rename_i known
        cases added
        intro record member
        obtain old | rfl := Array.mem_or_eq_of_mem_set (w := known) member
        · exact induction record old
        · exact induction grid.bels[bel.toNat] (Array.getElem_mem known)
      · cases added

/-- The grid handed out the bel. -/
def HasBel (grid : Grid) (bel : BelId) : Prop := bel.toNat < grid.bels.size

def HasWire (grid : Grid) (wire : WireId) : Prop := wire.toNat < grid.wires.size

def HasPip (grid : Grid) (pip : PipId) : Prop := pip.toNat < grid.pips.size

/-- The pips and the pins of the grid are at wires of the grid. -/
structure Closed (grid : Grid) : Prop where
  source : ∀ {pip record}, grid.pip? pip = some record → grid.HasWire record.source
  target : ∀ {pip record}, grid.pip? pip = some record → grid.HasWire record.target
  pin : ∀ {bel record pin wire}, grid.bel? bel = some record →
    record.pins.lookup pin = some wire → grid.HasWire wire

theorem HasBel.found {grid : Grid} {bel : BelId} (known : grid.HasBel bel) :
    ∃ record, grid.bel? bel = some record :=
  ⟨_, Array.getElem?_eq_getElem known⟩

theorem HasWire.found {grid : Grid} {wire : WireId} (known : grid.HasWire wire) :
    ∃ record, grid.wire? wire = some record :=
  ⟨_, Array.getElem?_eq_getElem known⟩

theorem HasPip.found {grid : Grid} {pip : PipId} (known : grid.HasPip pip) :
    ∃ record, grid.pip? pip = some record :=
  ⟨_, Array.getElem?_eq_getElem known⟩

theorem hasBel_of_found {grid : Grid} {bel : BelId} {record : GridBel}
    (found : grid.bel? bel = some record) : grid.HasBel bel :=
  (Array.getElem?_eq_some_iff.mp found).1

end Grid

theorem Grid.pipEnds_of_found (κ : Type) [Scalar κ] {grid : Grid} {pip : PipId}
    {record : GridPip} (found : grid.pip? pip = some record) :
    (grid.device κ).pipSource pip = some record.source ∧
      (grid.device κ).pipTarget pip = some record.target := by
  simp [Grid.device, found]

namespace Device

variable {device : Device κ}

theorem checkBel_eq {bel : BelId} {name typeName : String} {belType : BelType}
    (named : device.belName bel = some name) (typed : device.belType bel = some belType)
    (typeKnown : device.typeName belType = some typeName) :
    device.checkBel bel =
      if device.belNamed name ≠ some bel then .error (.failed (.belNameAmbiguous name))
      else if device.typeNamed typeName ≠ some belType then
        .error (.failed (.belTypeUnmapped typeName name))
      else .ok () := by
  simp only [checkBel, named, typed, typeKnown, Query.ofOption, Query.stop, bind, Except.bind]
  split
  · rfl
  · split <;> rfl

theorem checkPipEnd_error {pip : PipId} {pipEnd : PipEnd} {wire : WireId}
    {stop : Stop InternalError} (failed : device.checkPipEnd pip pipEnd wire = .error stop) :
    stop = .failed (.pipEndUnknown pipEnd wire pip) := by
  unfold checkPipEnd at failed
  split at failed
  · cases failed
  · cases failed
    rfl

theorem checkPip_error {pip : PipId} {source target : WireId} {stop : Stop InternalError}
    (leaves : device.pipSource pip = some source) (reaches : device.pipTarget pip = some target)
    (failed : device.checkPip pip = .error stop) :
    ∃ pipEnd wire, stop = .failed (.pipEndUnknown pipEnd wire pip) := by
  simp only [checkPip, leaves, reaches, Query.ofOption, Query.stop] at failed
  obtain first | ⟨-, second⟩ := checked_then_eq_error_iff.mp failed
  · exact ⟨_, _, checkPipEnd_error first⟩
  · exact ⟨_, _, checkPipEnd_error second⟩

end Device

namespace Layout

/-- The layout is on the grid, and all bels, wires and pips in its tables are those
of the grid.  Nothing is asked of its symbols, of the references between its records
and of the occupancy of the fabric. -/
structure OnGrid [Scalar κ] (grid : Grid) (layout : Layout κ) : Prop where
  device : layout.fabric.device = grid.device κ
  bel : ∀ {cell record bel}, layout.design.cells.get? cell = some record →
    record.bel = some bel → grid.HasBel bel
  wire : ∀ {key net wire hop}, layout.design.nets.get? key = some net →
    net.wires.get? wire = some hop → grid.HasWire wire
  pip : ∀ {key net wire hop pip}, layout.design.nets.get? key = some net →
    net.wires.get? wire = some hop → hop.pip = some pip → grid.HasPip pip

variable [Scalar κ] {grid : Grid} {layout : Layout κ}

theorem OnGrid.sited (on : layout.OnGrid grid) : layout.Sited := by
  intro cell record bel found placed
  obtain ⟨described, known⟩ := (on.bel found placed).found
  rw [on.device]
  exact ⟨described.belType, by simp [Grid.device, known]⟩

theorem OnGrid.complete (on : layout.OnGrid grid) (built : grid.Built) :
    layout.fabric.device.Complete := by
  rw [on.device]
  exact Grid.complete built.registered

/-- Whatever keeps the placed cells on bels with a type keeps them on the grid. -/
theorem OnGrid.of_keepsSited {after : Layout κ} (on : layout.OnGrid grid)
    (keeps : KeepsSited layout after) : after.OnGrid grid := by
  have device := keeps.device.trans on.device
  constructor
  · exact device
  · intro cell record bel found placed
    obtain ⟨belType, fits⟩ := keeps.sited on.sited found placed
    rw [device] at fits
    obtain ⟨described, known, -⟩ := Option.map_eq_some_iff.mp fits
    exact Grid.hasBel_of_found known
  · intro key net wire hop stored routed
    rw [keeps.nets] at stored
    exact on.wire stored routed
  · intro key net wire hop pip stored routed reached
    rw [keeps.nets] at stored
    exact on.pip stored routed reached

/-! ## The checks -/

theorem OnGrid.pipTarget_ok (on : layout.OnGrid grid) {pip : PipId}
    (known : grid.HasPip pip) : ∃ wire, layout.fabric.pipTarget pip = .ok wire := by
  obtain ⟨record, found⟩ := known.found
  refine ⟨record.target, ?_⟩
  simp [Fabric.pipTarget, on.device, Grid.device, found, Query.ofOption]

theorem OnGrid.belName_ok (on : layout.OnGrid grid) {bel : BelId}
    (known : grid.HasBel bel) : ∃ text, layout.fabric.belName bel = .ok text := by
  obtain ⟨record, found⟩ := known.found
  refine ⟨record.name, ?_⟩
  simp [Fabric.belName, on.device, Grid.device, found, Query.ofOption]

theorem ensure_ne_fault (condition : Bool) (violation : Violation) (fault : Fault) :
    ensure condition violation ≠ .error (.fault fault) := by
  cases condition <;> exact nofun

theorem OnGrid.checkHop_ne_fault (on : layout.OnGrid grid) {key : Symbol}
    {net : Net} (stored : layout.design.nets.get? key = some net)
    {entry : WireId × Hop} (routed : entry ∈ net.wires.toList) (name : String)
    (fault : Fault) :
    checkHop layout.fabric key name entry ≠ .error (.fault fault) := by
  obtain ⟨wire, hop⟩ := entry
  have found := Table.mem_toList_iff.mp routed
  intro failed
  rw [checkHop, checked_then_eq_error_iff] at failed
  obtain held | ⟨-, failed⟩ := failed
  · exact ensure_ne_fault _ _ fault held
  · cases reached : hop.pip with
    | none =>
        rw [reached] at failed
        cases failed
    | some pip =>
        obtain ⟨target, answered⟩ := on.pipTarget_ok (on.pip stored found reached)
        simp only [reached, answered, Query.stop] at failed
        rw [checked_bind_eq_error_iff] at failed
        obtain asked | ⟨value, asked, failed⟩ := failed
        · cases asked
        · rw [checked_then_eq_error_iff] at failed
          obtain driven | ⟨-, bound⟩ := failed
          · exact ensure_ne_fault _ _ fault driven
          · exact ensure_ne_fault _ _ fault bound

theorem OnGrid.checkNet_ne_fault (on : layout.OnGrid grid) {entry : Symbol × Net}
    (member : entry ∈ layout.design.nets.toList) (fault : Fault) :
    layout.checkNet entry ≠ .error (.fault fault) := by
  obtain ⟨key, net⟩ := entry
  have stored := Table.mem_toList_iff.mp member
  intro failed
  rw [checkNet, checked_then_eq_error_iff] at failed
  obtain filed | ⟨-, failed⟩ := failed
  · exact ensure_ne_fault _ _ fault filed
  · obtain ⟨hop, routed, failing⟩ := checked_forM_eq_error failed
    exact on.checkHop_ne_fault stored routed _ fault failing

omit [Scalar κ] in
theorem checkWire_ne_fault (layout : Layout κ) (wire : WireId) (fault : Fault) :
    layout.checkWire wire ≠ .error (.fault fault) := by
  unfold checkWire
  split
  · exact nofun
  · split
    · exact nofun
    · exact ensure_ne_fault _ _ fault

theorem checkPort_ne_fault (design : Design) (key : Symbol) (name : String)
    (entry : Symbol × Port) (fault : Fault) :
    checkPort design key name entry ≠ .error (.fault fault) := by
  unfold checkPort
  dsimp only
  split
  · exact nofun
  · split
    · exact nofun
    · split
      · exact ensure_ne_fault _ _ fault
      · exact ensure_ne_fault _ _ fault
      · exact nofun

theorem OnGrid.checkCell_ne_fault (on : layout.OnGrid grid) {entry : Symbol × Cell}
    (member : entry ∈ layout.design.cells.toList) (fault : Fault) :
    layout.checkCell entry ≠ .error (.fault fault) := by
  obtain ⟨key, record⟩ := entry
  have found := Table.mem_toList_iff.mp member
  intro failed
  rw [checkCell, checked_then_eq_error_iff] at failed
  obtain filed | ⟨-, failed⟩ := failed
  · exact ensure_ne_fault _ _ fault filed
  rw [checked_then_eq_error_iff] at failed
  obtain held | ⟨-, failed⟩ := failed
  · cases placed : record.bel with
    | none =>
        rw [placed] at held
        cases held
    | some bel =>
        obtain ⟨text, named⟩ := on.belName_ok (on.bel found placed)
        rw [placed, checkBel] at held
        split at held
        · cases held
        · rw [named] at held
          cases held
  · obtain ⟨port, -, failing⟩ := checked_forM_eq_error failed
    exact checkPort_ne_fault _ _ _ port fault failing

theorem OnGrid.check_ne_fault (on : layout.OnGrid grid) (fault : Fault) :
    layout.check ≠ .error (.fault fault) := by
  intro failed
  rw [check, checked_then_eq_error_iff] at failed
  obtain failed | ⟨-, failed⟩ := failed
  · obtain ⟨entry, member, failing⟩ := checked_forM_eq_error failed
    exact on.checkNet_ne_fault member fault failing
  rw [checked_then_eq_error_iff] at failed
  obtain failed | ⟨-, failed⟩ := failed
  · obtain ⟨wire, -, failing⟩ := checked_forM_eq_error failed
    exact checkWire_ne_fault layout wire fault failing
  · obtain ⟨entry, member, failing⟩ := checked_forM_eq_error failed
    exact on.checkCell_ne_fault member fault failing

theorem OnGrid.selfCheck_ne_fault (on : layout.OnGrid grid) (built : grid.Built)
    (fault : Fault) : layout.fabric.device.selfCheck ≠ .error (.fault fault) := by
  have complete := on.complete built
  intro failed
  rw [Device.selfCheck, checked_then_eq_error_iff] at failed
  obtain failed | ⟨-, failed⟩ := failed
  · obtain ⟨bel, listed, failing⟩ := checked_forM_eq_error failed
    obtain ⟨belType, typed⟩ := complete.typed listed
    obtain ⟨text, named⟩ := complete.name typed
    obtain ⟨typeName, known⟩ := complete.typeName typed
    rw [Device.checkBel_eq named typed known] at failing
    split at failing
    · cases failing
    · split at failing
      · cases failing
      · cases failing
  · obtain ⟨pip, listed, failing⟩ := checked_forM_eq_error failed
    rw [on.device] at listed failing
    have known : grid.HasPip pip := Handle.mem_range_iff.mp listed
    obtain ⟨record, found⟩ := known.found
    obtain ⟨leaves, reaches⟩ := Grid.pipEnds_of_found κ found
    obtain ⟨pipEnd, wire, reason⟩ := Device.checkPip_error leaves reaches failing
    cases reason

/-! ## Delays of connections -/

theorem OnGrid.location_ok (on : layout.OnGrid grid) {cell : Option Symbol}
    {bel : BelId} (placed : layout.design.belOf cell = some bel) :
    ∃ place, grid.location bel = .ok place := by
  obtain ⟨symbol, -, placed⟩ := Option.bind_eq_some_iff.mp placed
  obtain ⟨record, found, placed⟩ := Option.bind_eq_some_iff.mp placed
  obtain ⟨described, known⟩ := (on.bel found placed).found
  exact ⟨(described.x, described.y), by simp [Grid.location, known, Query.ofOption]⟩

theorem OnGrid.predictDelay_ok (on : layout.OnGrid grid) (driver sink : Option Symbol) :
    ∃ delay, layout.fabric.device.predictDelay (layout.design.belOf driver)
      (layout.design.belOf sink) = .ok delay := by
  have measured : ∃ steps, grid.distance (layout.design.belOf driver)
      (layout.design.belOf sink) = .ok steps := by
    cases driven : layout.design.belOf driver with
    | none => exact ⟨0, by cases layout.design.belOf sink <;> rfl⟩
    | some first =>
        cases read : layout.design.belOf sink with
        | none => exact ⟨0, rfl⟩
        | some second =>
            obtain ⟨start, located⟩ := on.location_ok driven
            obtain ⟨finish, there⟩ := on.location_ok read
            simp only [Grid.distance, located, there, bind, Except.bind]
            exact ⟨_, rfl⟩
  obtain ⟨steps, measured⟩ := measured
  rw [on.device]
  simp only [Grid.device, Grid.predictDelay, measured, bind, Except.bind]
  exact ⟨_, rfl⟩

section Delays

variable (on : layout.OnGrid grid) (closed : grid.Closed)

include on closed

theorem OnGrid.portWire_ok (cell : Option Symbol) (port : Symbol) :
    ∃ wire, layout.portWire cell port = .ok wire ∧
      ∀ known, wire = some known → grid.HasWire known := by
  unfold Layout.portWire
  dsimp only
  split
  · exact ⟨none, rfl, nofun⟩
  · rename_i bel pin resolved
    obtain ⟨symbol, -, resolved⟩ := Option.bind_eq_some_iff.mp resolved
    obtain ⟨record, found, resolved⟩ := Option.bind_eq_some_iff.mp resolved
    obtain ⟨held, placed, resolved⟩ := Option.bind_eq_some_iff.mp resolved
    obtain ⟨text, -, resolved⟩ := Option.bind_eq_some_iff.mp resolved
    cases resolved
    obtain ⟨described, known⟩ := (on.bel found placed).found
    refine ⟨described.pins.lookup pin, ?_, ?_⟩
    · simp [Fabric.pinWire, on.device, Grid.device, known, Query.ofOption]
    · exact fun wire attached => closed.pin known attached

/-- A walk goes from wire to wire of the grid, over pips of the grid. -/
theorem OnGrid.walk_ok {key : Symbol} {net : Net}
    (stored : layout.design.nets.get? key = some net) (source : WireId) (hops : Nat)
    (total : Delay) {wire : WireId} (known : grid.HasWire wire) :
    ∃ answer, Layout.walk layout.fabric net.wires source hops total wire =
      .ok answer := by
  induction hops generalizing total wire with
  | zero =>
      unfold Layout.walk
      split
      · exact ⟨_, rfl⟩
      · exact ⟨_, rfl⟩
  | succ hops induction =>
      unfold Layout.walk
      split
      · exact ⟨_, rfl⟩
      · split
        · rename_i rest pip same onwards
          cases same
          obtain ⟨hop, routed, reached⟩ := Option.bind_eq_some_iff.mp onwards
          obtain ⟨wireRecord, isWire⟩ := known.found
          obtain ⟨pipRecord, isPip⟩ := (on.pip stored routed reached).found
          simp only [Fabric.pipDelay, Fabric.wireDelay, Fabric.pipSource, on.device,
            Grid.device, isWire, isPip, Option.map_some, Query.ofOption, bind,
            Except.bind]
          exact induction _ (closed.source isPip)
        · exact ⟨_, rfl⟩

theorem OnGrid.routeDelay_ok {key : Symbol} {net : Net}
    (stored : layout.design.nets.get? key = some net) (user : NetEnd) :
    ∃ delay, layout.routeDelay net user = .ok delay := by
  obtain ⟨source, sourced, isWire⟩ :=
    on.portWire_ok closed net.driver.cell net.driver.port
  obtain ⟨sink, sunk, isSink⟩ := on.portWire_ok closed user.cell user.port
  unfold Layout.routeDelay
  rw [sourceWire, sourced]
  cases source with
  | none => exact ⟨_, rfl⟩
  | some source =>
      obtain ⟨described, found⟩ := (isWire source rfl).found
      have delayed : layout.fabric.wireDelay source = .ok described.delay := by
        simp [Fabric.wireDelay, on.device, Grid.device, found, Query.ofOption]
      obtain ⟨estimate, predicted⟩ := on.predictDelay_ok net.driver.cell user.cell
      simp only [bind, Except.bind, sinkWire, sunk]
      cases sink with
      | none => exact ⟨estimate, predicted⟩
      | some sink =>
          obtain ⟨answer, walked⟩ :=
            on.walk_ok closed stored source net.wires.size .zero (isSink sink rfl)
          simp only [walked]
          cases answer with
          | none => exact ⟨estimate, predicted⟩
          | some total =>
              simp only [delayed]
              exact ⟨_, rfl⟩

end Delays

/-! ## Placement -/

/-- The edit does not fault, and it leaves a layout on the grid, whichever way it
ends. -/
structure SafeOn {α : Type} (grid : Grid) (edit : LayoutEdit κ α)
    (layout : Layout κ) : Prop where
  faultless : ∀ fault, edit.outcome layout ≠ .error (.fault fault)
  onGrid : (edit.after layout).OnGrid grid

section Placement

variable (on : layout.OnGrid grid) (built : grid.Built)

include on built

theorem OnGrid.safeOn_constraints : SafeOn grid Constraints.place layout :=
  ⟨Constraints.faultless_place (on.complete built),
    on.of_keepsSited (Constraints.keepsSited_place layout)⟩

theorem OnGrid.safeOn_firstFit (rule : LegalityRule κ) :
    SafeOn grid (FirstFit.place rule) layout :=
  ⟨FirstFit.faultless_place (on.complete built) on.sited rule,
    on.of_keepsSited (FirstFit.keepsSited_place rule layout)⟩

theorem OnGrid.safeOn_placeCell (rule : LegalityRule κ) (options : PlaceOptions)
    (cell : Symbol) : SafeOn grid (Greedy.placeCell rule options cell) layout :=
  ⟨Greedy.faultless_placeCell (on.complete built) on.sited rule options cell,
    on.of_keepsSited (Greedy.keepsSited_placeCell rule options cell layout)⟩

theorem OnGrid.safeOn_greedy (rule : LegalityRule κ) (options : PlaceOptions) :
    SafeOn grid (Greedy.place rule options) layout :=
  ⟨Greedy.faultless_place (on.complete built) on.sited rule options,
    on.of_keepsSited (Greedy.keepsSited_place rule options layout)⟩

theorem OnGrid.safeOn_placer (config : PlaceConfig) (rule : LegalityRule κ) :
    SafeOn grid (Flow.placer config rule) layout := by
  unfold Flow.placer
  split
  · exact on.safeOn_firstFit built rule
  · exact on.safeOn_greedy built rule config.options

end Placement

end Layout

open Layout

/-! ## The flow -/

namespace Flow

variable [Scalar κ] {grid : Grid} {state : FlowState κ}

theorem deviceGate_ne_fault (on : state.layout.OnGrid grid) (built : grid.Built)
    (config : FlowConfig) (fault : Fault) :
    deviceGate config state.layout ≠ .error (.fault fault) := by
  unfold deviceGate
  split
  · exact on.selfCheck_ne_fault built fault
  · exact nofun

theorem layoutGate_ne_fault (on : state.layout.OnGrid grid) (config : FlowConfig)
    (fault : Fault) : layoutGate config state.layout ≠ .error (.fault fault) := by
  unfold layoutGate
  split
  · exact on.check_ne_fault fault
  · exact nofun

/-- A run of the flow does not fault either, and its layout stays on the grid. -/
theorem run_safe (on : state.layout.OnGrid grid) (built : grid.Built)
    (config : FlowConfig) (rule : LegalityRule κ) :
    (∀ fault, (run config rule).outcome state ≠ .error (.fault fault)) ∧
      ((run config rule).after state).layout.OnGrid grid := by
  have of_failed {error : DesignError} {reached : FlowState κ}
      (ends : run config rule state = .error (.failed error) reached)
      (stays : reached.layout.OnGrid grid) :
      (∀ fault, (run config rule).outcome state ≠ .error (.fault fault)) ∧
        ((run config rule).after state).layout.OnGrid grid := by
    rw [Edit.outcome_of_error ends, Edit.after_of_error ends]
    exact ⟨nofun, stays⟩
  have of_ok {report : FlowReport} {reached : FlowState κ}
      (ends : run config rule state = .ok report reached)
      (stays : reached.layout.OnGrid grid) :
      (∀ fault, (run config rule).outcome state ≠ .error (.fault fault)) ∧
        ((run config rule).after state).layout.OnGrid grid := by
    rw [Edit.outcome_of_ok ends, Edit.after_of_ok ends]
    exact ⟨nofun, stays⟩
  cases device : deviceGate config state.layout with
  | error stop =>
      cases stop with
      | fault fault => exact absurd device (deviceGate_ne_fault on built config fault)
      | failed error => exact of_failed (run_of_stopped (gates_of_defect device) rule) on
  | ok value =>
      have gated := gates_of_sound_device device
      cases layout : layoutGate config state.layout with
      | error stop =>
          rw [layout] at gated
          cases stop with
          | fault fault => exact absurd layout (layoutGate_ne_fault on config fault)
          | failed violation => exact of_failed (run_of_stopped gated rule) on
      | ok value =>
          rw [layout] at gated
          have free : state.layout.fabric.device.AvailableIsFree := by
            rw [on.device]
            exact Grid.availableIsFree grid
          have ends := run_of_passed free gated rule
          have reseeded : (state.layout.reseed config.place.seed).OnGrid grid :=
            on.of_keepsSited ⟨rfl, rfl, fun sited => sited⟩
          have safe := reseeded.safeOn_placer built config.place rule
          cases placed : placer config.place rule
              (state.layout.reseed config.place.seed) with
          | ok value layout =>
              rw [placed] at ends
              have stays := safe.onGrid
              rw [Edit.after_of_ok placed] at stays
              exact of_ok ends stays
          | error stop layout =>
              rw [placed] at ends
              have stays := safe.onGrid
              rw [Edit.after_of_error placed] at stays
              cases stop with
              | fault fault =>
                  exact absurd (Edit.outcome_of_error placed) (safe.faultless fault)
              | failed error =>
                  cases force : config.flow.force with
                  | false =>
                      rw [force] at ends
                      exact of_failed ends stays
                  | true =>
                      rw [force] at ends
                      exact of_ok ends stays

end Flow

namespace Layout

variable [Scalar κ] {grid : Grid} {layout : Layout κ}

/-- No query about the layout faults, and no placement of it does. -/
structure Faultless (grid : Grid) (layout : Layout κ) : Prop where
  /-- The utilisation and the placers ask for the types of all bels. -/
  enumerated : ∀ bel ∈ layout.fabric.device.bels, ∃ belType text typeName,
    layout.fabric.device.belType bel = some belType ∧
      layout.fabric.device.belName bel = some text ∧
      layout.fabric.device.typeName belType = some typeName
  selfCheck : ∀ fault, layout.fabric.device.selfCheck ≠ .error (.fault fault)
  check : ∀ fault, layout.check ≠ .error (.fault fault)
  routeDelay : ∀ {key net}, layout.design.nets.get? key = some net →
    ∀ user, ∃ delay, layout.routeDelay net user = .ok delay
  constraints : SafeOn grid Constraints.place layout
  placeCell : ∀ rule options cell,
    SafeOn grid (Greedy.placeCell rule options cell) layout
  firstFit : ∀ rule, SafeOn grid (FirstFit.place rule) layout
  greedy : ∀ rule options, SafeOn grid (Greedy.place rule options) layout
  flow : ∀ config rule sink,
    (∀ fault, (Flow.run config rule).outcome ⟨layout, sink⟩ ≠
        .error (.fault fault)) ∧
      ((Flow.run config rule).after ⟨layout, sink⟩).layout.OnGrid grid

/-- A layout that keeps handles of its grid only never comes to use another, and
stays such a layout. -/
theorem faultless_on_grid (built : grid.Built) (closed : grid.Closed)
    (on : layout.OnGrid grid) : layout.Faultless grid where
  enumerated := by
    have complete := on.complete built
    intro bel listed
    obtain ⟨belType, typed⟩ := complete.typed listed
    obtain ⟨text, named⟩ := complete.name typed
    obtain ⟨typeName, known⟩ := complete.typeName typed
    exact ⟨belType, text, typeName, typed, named, known⟩
  selfCheck := on.selfCheck_ne_fault built
  check := on.check_ne_fault
  routeDelay := fun stored user => on.routeDelay_ok closed stored user
  constraints := on.safeOn_constraints built
  placeCell := on.safeOn_placeCell built
  firstFit := on.safeOn_firstFit built
  greedy := on.safeOn_greedy built
  flow := by
    intro config rule sink
    have inside : (FlowState.mk layout sink).layout.OnGrid grid := on
    exact Flow.run_safe inside built config rule

/-- Two bels with a pin each at the two wires of a ring. -/
def ringGrid : Grid :=
  let grid := ((Grid.empty "g").addBel "B0" "LUT" 0 0).2
  let grid := (grid.addBel "B1" "LUT" 1 0).2
  let grid := (grid.addWire "A" 1.0).2
  let grid := (grid.addWire "B" 1.0).2
  let grid := (grid.addPip ⟨0⟩ ⟨1⟩ 0.1).2
  let grid := (grid.addPip ⟨1⟩ ⟨0⟩ 0.1).2
  let grid := (grid.addPin ⟨0⟩ "Q" ⟨0⟩).toOption.getD grid
  (grid.addPin ⟨1⟩ "D" ⟨1⟩).toOption.getD grid

/-- The routing goes in circles, nothing is bound to it, and a cell is made of
foreign symbols. -/
def tangled : Layout Int :=
  let layout := GraphCall.run
    [.createCell "a" "LUT", .createCell "b" "LUT", .addPort ⟨1⟩ "Q" .output,
      .addPort ⟨3⟩ "D" .input, .createNet "n", .connectPort ⟨6⟩ ⟨1⟩ ⟨4⟩,
      .connectPort ⟨6⟩ ⟨3⟩ ⟨5⟩, .bindBel ⟨1⟩ ⟨0⟩ .weak, .bindBel ⟨3⟩ ⟨1⟩ .weak,
      .bindPip ⟨6⟩ ⟨0⟩ .weak, .bindPip ⟨6⟩ ⟨1⟩ .weak] (.fresh (ringGrid.device Int))
  { layout with
    design := layout.design.setCell ⟨99⟩ (.unplaced ⟨98⟩ ⟨97⟩)
    fabric.occupancy := .empty }

theorem faultless_on_grid_of_tangled : tangled.Faultless ringGrid := by
  have built : ringGrid.Built := by
    have bels := (Grid.Built.empty "g").addBel "B0" "LUT" 0 0 |>.addBel "B1" "LUT" 1 0
    have wires := bels.addWire "A" 1.0 |>.addWire "B" 1.0
    have pips := wires.addPip ⟨0⟩ ⟨1⟩ 0.1 |>.addPip ⟨1⟩ ⟨0⟩ 0.1
    exact (pips.addPin ⟨0⟩ "Q" ⟨0⟩ rfl).addPin ⟨1⟩ "D" ⟨1⟩ rfl
  have ends : ∀ record ∈ ringGrid.pips,
      record.source.toNat < 2 ∧ record.target.toNat < 2 := by decide
  have pins : ∀ record ∈ ringGrid.bels, ∀ entry ∈ record.pins,
      entry.2.toNat < 2 := by decide
  have closed : ringGrid.Closed := by
    constructor
    · exact fun found => (ends _ (Array.mem_of_getElem? found)).1
    · exact fun found => (ends _ (Array.mem_of_getElem? found)).2
    · intro bel record pin wire found attached
      obtain ⟨before, after, here, -⟩ := List.lookup_eq_some_iff.mp attached
      apply pins _ (Array.mem_of_getElem? found) (pin, wire)
      simp [here]
  have cells : ∀ entry ∈ tangled.design.cells.toList, ∀ bel ∈ entry.2.bel,
      bel.toNat < 2 := by decide
  have routing : ∀ entry ∈ tangled.design.nets.toList, ∀ hop ∈ entry.2.wires.toList,
      hop.1.toNat < 2 ∧ ∀ pip ∈ hop.2.pip, pip.toNat < 2 := by decide
  have on : tangled.OnGrid ringGrid := by
    constructor
    · rfl
    · intro cell record bel found placed
      exact cells _ (Table.mem_toList_iff.mpr found) bel placed
    · intro key net wire hop stored routed
      exact (routing _ (Table.mem_toList_iff.mpr stored) _
        (Table.mem_toList_iff.mpr routed)).1
    · intro key net wire hop pip stored routed reached
      exact (routing _ (Table.mem_toList_iff.mpr stored) _
        (Table.mem_toList_iff.mpr routed)).2 pip reached
  exact faultless_on_grid built closed on

end Layout

end FpgaPlacer
