import FpgaPlacer.Handle

/-!
# Broken rules of the design graph

One alternative per rule that the consistency check tests, with the objects
involved.  Each is reported with a message and with the condition that does
not hold.  Where in the program the condition is tested is not recorded, so no
text made from a violation ends with that place.
-/

namespace FpgaPlacer

/-- A broken rule of the design graph, with the names and numbers involved. -/
inductive Violation where
  | netMisfiled (net stored : String)
  | wireNotBound (wire : WireId) (net : String)
  | pipElsewhere (pip : PipId) (net : String) (wire : WireId)
  | pipNotBound (pip : PipId) (net : String)
  | wireNetUnknown (wire : WireId) (net : String)
  | wireUnrouted (wire : WireId) (net : String)
  | cellMisfiled (cell stored : String)
  | belNotHeld (cell bel : String)
  | portNetUnknown (port cell net : String)
  | portNotDriver (port cell net : String)
  | portUserCount (port cell : String) (count : Nat) (net : String)
  deriving DecidableEq

namespace Violation

/-- What is wrong. -/
def description : Violation → String
  | netMisfiled net stored => s!"net '{net}' stored under the name '{stored}'"
  | wireNotBound wire net =>
      s!"wire {wire.toNat} of net '{net}' is not bound to it in the fabric"
  | pipElsewhere pip net wire =>
      s!"pip {pip.toNat} of net '{net}' does not drive wire {wire.toNat}"
  | pipNotBound pip net =>
      s!"pip {pip.toNat} of net '{net}' is not bound to it in the fabric"
  | wireNetUnknown wire net => s!"wire {wire.toNat} is bound to unknown net '{net}'"
  | wireUnrouted wire net =>
      s!"wire {wire.toNat} is bound to net '{net}' but missing from its routing"
  | cellMisfiled cell stored => s!"cell '{cell}' stored under the name '{stored}'"
  | belNotHeld cell bel =>
      s!"cell '{cell}' is placed at bel '{bel}' but the fabric does not report it there"
  | portNetUnknown port cell net =>
      s!"port '{port}' of cell '{cell}' is connected to unknown net '{net}'"
  | portNotDriver port cell net =>
      s!"output port '{port}' of cell '{cell}' does not drive its net '{net}'"
  | portUserCount port cell count net =>
      s!"input port '{port}' of cell '{cell}' appears {count} times among the users of net '{net}'"

/-- The condition that does not hold, as it is reported. -/
def condition : Violation → String
  | netMisfiled .. => "net.name == key"
  | wireNotBound .. => "arch.bound_wire_net(wire) == Some(key)"
  | pipElsewhere .. => "arch.pip_dst_wire(pip) == wire"
  | pipNotBound .. => "arch.bound_pip_net(pip) == Some(key)"
  | wireNetUnknown .. => "ctx.net(net_name).is_some()"
  | wireUnrouted .. => "ctx.net(net_name).is_some_and(|net| net.wires.contains_key(&wire))"
  | cellMisfiled .. => "cell.name == key"
  | belNotHeld .. => "arch.bound_bel_cell(bel) == Some(key)"
  | portNetUnknown .. => "net.is_some()"
  | portNotDriver .. => "net.driver.is(key, port_key)"
  | portUserCount .. => "count == 1"

end Violation

end FpgaPlacer
