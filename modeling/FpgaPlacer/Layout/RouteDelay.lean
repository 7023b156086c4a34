import FpgaPlacer.Layout.Basic

/-!
# Delay of a connection

The delay from the driver of a net to one of its users is summed along the
routing tree when the tree connects the two, and estimated by the device
otherwise.
-/

namespace FpgaPlacer.Layout

variable {κ : Type}

/-- The wire at a port of a placed cell, after pin renames. -/
def portWire (layout : Layout κ) (cell : Option Symbol) (port : Symbol) :
    Query (Option WireId) :=
  let resolved := do
    let record ← layout.design.cells.get? (← cell)
    let bel ← record.bel
    let pin ← layout.design.names.resolve? (record.pinFor port)
    some (bel, pin)
  match resolved with
  | none => .ok none
  | some (bel, pin) => layout.fabric.pinWire bel pin

/-- The wire that the driver of a net drives, if the driver is placed. -/
def sourceWire (layout : Layout κ) (net : Net) : Query (Option WireId) :=
  layout.portWire net.driver.cell net.driver.port

/-- The wire that a user of a net reads, if the user is placed. -/
def sinkWire (layout : Layout κ) (user : NetEnd) : Query (Option WireId) :=
  layout.portWire user.cell user.port

/-- Walks a routing tree from a wire towards the source and sums the delays of
the pips and wires that are left behind.  The answer is `none` when the walk
ends elsewhere or takes more than the given number of hops. -/
def walk (fabric : Fabric κ) (wires : Table .wire Hop) (source : WireId) :
    Nat → Delay → WireId → Query (Option Delay)
  | hops, total, wire =>
    if wire = source then .ok (some total)
    else
      match hops, (wires.get? wire).bind Hop.pip with
      | hops + 1, some pip => do
          let pipDelay ← fabric.pipDelay pip
          let wireDelay ← fabric.wireDelay wire
          let next ← fabric.pipSource pip
          walk fabric wires source hops (total + pipDelay + wireDelay) next
      | _, _ => .ok none

/-- The delay in nanoseconds from the driver of a net to a user.  Without a
source wire it is zero.  A tree reaches its source in at most one hop per
entry, so a walk of that many hops is enough. -/
def routeDelay (layout : Layout κ) (net : Net) (user : NetEnd) : Query Float := do
  match ← layout.sourceWire net with
  | none => return 0.0
  | some source =>
      let routed ← match ← layout.sinkWire user with
        | none => pure none
        | some sink => walk layout.fabric net.wires source net.wires.size .zero sink
      match routed with
      | some total => do
          let sourceDelay ← layout.fabric.wireDelay source
          return (total + sourceDelay).max
      | none =>
          layout.fabric.device.predictDelay (layout.design.belOf net.driver.cell)
            (layout.design.belOf user.cell)

end FpgaPlacer.Layout
