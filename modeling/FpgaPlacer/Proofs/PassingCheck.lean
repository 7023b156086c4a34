import FpgaPlacer.Layout.Consistency
import FpgaPlacer.Proofs.EditRuns

/-!
# What a passing check means

The check passes exactly when four independent facts hold: records are filed
under their own names, the routing of the nets agrees with the occupied wires
and pips, every placed cell is the occupant of its bel, and every connected
port is an end of an existing net.  An edit that leaves the tables of one fact
alone leaves that fact alone.
-/

namespace FpgaPlacer

/-- Every net and cell is stored under its own name. -/
structure Design.Filed (design : Design) : Prop where
  net : ∀ {key net}, design.nets.get? key = some net → net.name = key
  cell : ∀ {key cell}, design.cells.get? key = some cell → cell.name = key

/-- Every connected port names an existing net; an output drives it, and an
input is exactly one of its users. -/
structure Design.Connected (design : Design) : Prop where
  net : ∀ {key cell portKey port netKey}, design.cells.get? key = some cell →
    cell.ports.get? portKey = some port → port.net = some netKey →
    ∃ net, design.nets.get? netKey = some net ∧
      (port.direction = .output → net.driver.isAt key portKey = true) ∧
      (port.direction = .input → Layout.userCount net key portKey = 1)

namespace Layout

variable {κ : Type}

/-- The routing trees of the nets agree with the occupied wires and pips. -/
structure Routed (layout : Layout κ) : Prop where
  wire : ∀ {key net wire hop}, layout.design.nets.get? key = some net →
    net.wires.get? wire = some hop → layout.fabric.netOnWire wire = some key
  target : ∀ {key net wire hop pip}, layout.design.nets.get? key = some net →
    net.wires.get? wire = some hop → hop.pip = some pip →
    layout.fabric.pipTarget pip = .ok wire
  pip : ∀ {key net wire hop pip}, layout.design.nets.get? key = some net →
    net.wires.get? wire = some hop → hop.pip = some pip →
    layout.fabric.netOnPip pip = some key
  holder : ∀ {wire key}, wire ∈ layout.fabric.device.wires →
    layout.fabric.netOnWire wire = some key →
    ∃ net, layout.design.nets.get? key = some net ∧ net.wires.contains wire = true

/-- Every placed cell is the occupant of its bel. -/
structure Seated (layout : Layout κ) : Prop where
  occupant : ∀ {key cell bel}, layout.design.cells.get? key = some cell →
    cell.bel = some bel → layout.fabric.cellAt bel = some key

/-- All that the check tests. -/
structure Consistent (layout : Layout κ) : Prop where
  filed : layout.design.Filed
  routed : layout.Routed
  seated : layout.Seated
  connected : layout.design.Connected

/-- Two cells of a seated layout never share a bel. -/
theorem Seated.eq_of_bel {layout : Layout κ} (seated : layout.Seated)
    {left right : Symbol} {leftCell rightCell : Cell} {bel : BelId}
    (leftFound : layout.design.cells.get? left = some leftCell)
    (rightFound : layout.design.cells.get? right = some rightCell)
    (leftBel : leftCell.bel = some bel) (rightBel : rightCell.bel = some bel) :
    left = right := by
  have onLeft := seated.occupant leftFound leftBel
  have onRight := seated.occupant rightFound rightBel
  rw [onLeft] at onRight
  exact Option.some.inj onRight

/-! ## The steps of the check -/

theorem ensure_eq_ok_iff {condition : Bool} {violation : Violation} :
    ensure condition violation = .ok () ↔ condition = true := by
  cases condition <;> simp [ensure]

theorem ensure_eq_error_iff {condition : Bool} {violation : Violation}
    {stop : Stop Violation} :
    ensure condition violation = .error stop ↔
      condition = false ∧ stop = .failed violation := by
  cases condition <;> simp [ensure, eq_comm]

theorem checkHop_eq_ok_iff {fabric : Fabric κ} {key : Symbol} {name : String}
    {wire : WireId} {hop : Hop} :
    checkHop fabric key name (wire, hop) = .ok () ↔
      fabric.netOnWire wire = some key ∧
        ∀ pip, hop.pip = some pip →
          fabric.pipTarget pip = .ok wire ∧ fabric.netOnPip pip = some key := by
  cases hop with
  | mk reached strength =>
      simp only [checkHop, checked_then_eq_ok_iff, ensure_eq_ok_iff,
        decide_eq_true_eq]
      cases reached with
      | none => simp [pure, Except.pure]
      | some pip =>
          simp only [Option.some.injEq, forall_eq']
          rw [checked_bind_eq_ok_iff]
          simp only [checked_then_eq_ok_iff, ensure_eq_ok_iff,
            Query.stop_eq_ok_iff, decide_eq_true_eq]
          constructor
          · rintro ⟨bound, target, known, same, held⟩
            exact ⟨bound, same ▸ known, held⟩
          · rintro ⟨bound, known, held⟩
            exact ⟨bound, wire, known, rfl, held⟩

theorem checkNet_eq_ok_iff {layout : Layout κ} {key : Symbol} {net : Net} :
    layout.checkNet (key, net) = .ok () ↔
      net.name = key ∧ ∀ wire hop, net.wires.get? wire = some hop →
        layout.fabric.netOnWire wire = some key ∧
          ∀ pip, hop.pip = some pip →
            layout.fabric.pipTarget pip = .ok wire ∧
              layout.fabric.netOnPip pip = some key := by
  simp only [checkNet, checked_then_eq_ok_iff, ensure_eq_ok_iff,
    decide_eq_true_eq, checked_forM_eq_ok_iff, Prod.forall, checkHop_eq_ok_iff,
    Table.mem_toList_iff]

theorem checkWire_eq_ok_iff {layout : Layout κ} {wire : WireId} :
    layout.checkWire wire = .ok () ↔
      ∀ key, layout.fabric.netOnWire wire = some key →
        ∃ net, layout.design.nets.get? key = some net ∧
          net.wires.contains wire = true := by
  unfold checkWire
  cases layout.fabric.netOnWire wire with
  | none => simp
  | some holder =>
      cases found : layout.design.nets.get? holder with
      | none => simp [found]
      | some net => simp [found, ensure_eq_ok_iff]

theorem checkBel_eq_ok_iff {fabric : Fabric κ} {key : Symbol} {name : String}
    {bel : Option BelId} :
    checkBel fabric key name bel = .ok () ↔
      ∀ held, bel = some held → fabric.cellAt held = some key := by
  cases bel with
  | none => simp [checkBel]
  | some held =>
      by_cases occupant : fabric.cellAt held = some key
      · simp [checkBel, occupant]
      · simp only [checkBel, occupant, if_false, checked_bind_eq_ok_iff,
          Option.some.injEq, forall_eq', iff_false]
        rintro ⟨belName, _, reported⟩
        cases reported

theorem checkPort_eq_ok_iff {design : Design} {key : Symbol} {name : String}
    {portKey : Symbol} {port : Port} :
    checkPort design key name (portKey, port) = .ok () ↔
      ∀ netKey, port.net = some netKey →
        ∃ net, design.nets.get? netKey = some net ∧
          (port.direction = .output → net.driver.isAt key portKey = true) ∧
          (port.direction = .input → userCount net key portKey = 1) := by
  obtain ⟨portName, direction, connected⟩ := port
  cases connected with
  | none => simp [checkPort]
  | some netKey =>
      cases found : design.nets.get? netKey with
      | none => simp [checkPort, found]
      | some net => cases direction <;> simp [checkPort, found, ensure_eq_ok_iff]

theorem checkCell_eq_ok_iff {layout : Layout κ} {key : Symbol} {cell : Cell} :
    layout.checkCell (key, cell) = .ok () ↔
      cell.name = key ∧
        (∀ bel, cell.bel = some bel → layout.fabric.cellAt bel = some key) ∧
        ∀ portKey port, cell.ports.get? portKey = some port →
          ∀ netKey, port.net = some netKey →
            ∃ net, layout.design.nets.get? netKey = some net ∧
              (port.direction = .output → net.driver.isAt key portKey = true) ∧
              (port.direction = .input → userCount net key portKey = 1) := by
  simp only [checkCell, checked_then_eq_ok_iff, ensure_eq_ok_iff,
    decide_eq_true_eq, checked_forM_eq_ok_iff, Prod.forall, checkBel_eq_ok_iff,
    checkPort_eq_ok_iff, Table.mem_toList_iff]

/-- The check passes exactly on the consistent layouts. -/
theorem check_eq_ok_iff {layout : Layout κ} :
    layout.check = .ok () ↔ layout.Consistent := by
  simp only [check, checked_then_eq_ok_iff, checked_forM_eq_ok_iff,
    Prod.forall, Table.mem_toList_iff, checkNet_eq_ok_iff, checkWire_eq_ok_iff,
    checkCell_eq_ok_iff]
  constructor
  · rintro ⟨nets, wires, cells⟩
    refine ⟨⟨?_, ?_⟩, ⟨?_, ?_, ?_, ?_⟩, ⟨?_⟩, ⟨?_⟩⟩
    · exact fun found => (nets _ _ found).1
    · exact fun found => (cells _ _ found).1
    · exact fun found routed => ((nets _ _ found).2 _ _ routed).1
    · exact fun found routed reached =>
        (((nets _ _ found).2 _ _ routed).2 _ reached).1
    · exact fun found routed reached =>
        (((nets _ _ found).2 _ _ routed).2 _ reached).2
    · exact fun enumerated held => wires _ enumerated _ held
    · exact fun found placed => (cells _ _ found).2.1 _ placed
    · exact fun found port connected => (cells _ _ found).2.2 _ _ port _ connected
  · rintro ⟨filed, routed, seated, connected⟩
    refine ⟨?_, ?_, ?_⟩
    · intro key net found
      refine ⟨filed.net found, fun wire hop onTree => ⟨routed.wire found onTree, ?_⟩⟩
      exact fun pip reached =>
        ⟨routed.target found onTree reached, routed.pip found onTree reached⟩
    · exact fun wire enumerated key held => routed.holder enumerated held
    · intro key cell found
      exact ⟨filed.cell found, fun bel placed => seated.occupant found placed,
        fun portKey port has netKey joined => connected.net found has joined⟩

end Layout

end FpgaPlacer
