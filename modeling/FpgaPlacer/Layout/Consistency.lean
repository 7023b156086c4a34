import FpgaPlacer.Layout.Basic

/-!
# Consistency of a layout

The check compares the tables of the design with each other and with the
occupancy of the fabric.  It visits the nets, then the wires of the fabric,
then the cells, and reports the first broken rule.
-/

namespace FpgaPlacer.Layout

variable {κ : Type}

/-- The outcome of checking one object. -/
abbrev Checked := Except (Stop Violation) Unit

/-- Passes when a condition holds and reports a violation otherwise. -/
def ensure (condition : Bool) (violation : Violation) : Checked :=
  if condition then .ok () else .error (.failed violation)

/-- A wire of a routing tree is bound to its net, and a pip that reaches it
drives it and is bound to the same net. -/
def checkHop (fabric : Fabric κ) (key : Symbol) (name : String)
    (entry : WireId × Hop) : Checked := do
  let (wire, hop) := entry
  ensure (fabric.netOnWire wire = some key) (.wireNotBound wire name)
  match hop.pip with
  | none => return
  | some pip =>
      let target ← (fabric.pipTarget pip).stop
      ensure (target = wire) (.pipElsewhere pip name wire)
      ensure (fabric.netOnPip pip = some key) (.pipNotBound pip name)

/-- A net is stored under its own name and its routing is bound to it. -/
def checkNet (layout : Layout κ) (entry : Symbol × Net) : Checked := do
  let (key, net) := entry
  let name := layout.design.display key
  ensure (net.name = key) (.netMisfiled name (layout.design.display net.name))
  net.wires.toList.forM (checkHop layout.fabric key name)

/-- A bound wire of the fabric is in the routing tree of the net it is bound
to. -/
def checkWire (layout : Layout κ) (wire : WireId) : Checked :=
  match layout.fabric.netOnWire wire with
  | none => .ok ()
  | some holder =>
    match layout.design.nets.get? holder with
    | none => .error (.failed (.wireNetUnknown wire (layout.design.display holder)))
    | some net =>
        ensure (net.wires.contains wire)
          (.wireUnrouted wire (layout.design.display holder))

/-- A placed cell is reported as the occupant of its bel. -/
def checkBel (fabric : Fabric κ) (key : Symbol) (name : String) :
    Option BelId → Checked
  | none => .ok ()
  | some bel =>
      if fabric.cellAt bel = some key then .ok ()
      else do
        let belName ← (fabric.belName bel).stop
        throw (.failed (.belNotHeld name belName))

/-- The number of users of a net that are at a port. -/
def userCount (net : Net) (cell port : Symbol) : Nat :=
  net.users.countP (·.isAt cell port)

/-- A connected port names an existing net; an output drives it, and an input
is exactly one of its users. -/
def checkPort (design : Design) (key : Symbol) (name : String)
    (entry : Symbol × Port) : Checked :=
  let (portKey, port) := entry
  match port.net with
  | none => .ok ()
  | some netKey =>
    let portName := design.display portKey
    let netName := design.display netKey
    match design.nets.get? netKey with
    | none => .error (.failed (.portNetUnknown portName name netName))
    | some net =>
      match port.direction with
      | .output =>
          ensure (net.driver.isAt key portKey) (.portNotDriver portName name netName)
      | .input =>
          let count := userCount net key portKey
          ensure (count = 1) (.portUserCount portName name count netName)
      | .bidirectional => .ok ()

/-- A cell is stored under its own name, and its bel and ports are in order. -/
def checkCell (layout : Layout κ) (entry : Symbol × Cell) : Checked := do
  let (key, cell) := entry
  let name := layout.design.display key
  ensure (cell.name = key) (.cellMisfiled name (layout.design.display cell.name))
  checkBel layout.fabric key name cell.bel
  cell.ports.toList.forM (checkPort layout.design key name)

/-- Checks a layout; the first broken rule is reported. -/
def check (layout : Layout κ) : Checked := do
  layout.design.nets.toList.forM layout.checkNet
  layout.fabric.device.wires.forM layout.checkWire
  layout.design.cells.toList.forM layout.checkCell

end FpgaPlacer.Layout
