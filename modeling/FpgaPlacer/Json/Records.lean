import FpgaPlacer.Delay
import FpgaPlacer.Diagnostic.Basic
import FpgaPlacer.Json.Codec
import FpgaPlacer.Netlist

/-!
# Records as JSON

The fields of delays, net ends, ports, hops, nets, cells and diagnostics, in
the order in which an array lists them.
-/

namespace FpgaPlacer

open JsonCodec (encode field?)

instance : JsonCodec Strength := .ofLabel

instance : JsonCodec Direction := .ofLabel

instance : JsonCodec Severity := .ofLabel

instance : JsonCodec Category := .ofLabel

/-- The field names of a delay. -/
def Delay.fieldNames : List String := ["min_ns", "typ_ns", "max_ns"]

instance : JsonCodec Delay where
  encode delay :=
    .record Delay.fieldNames [encode delay.min, encode delay.typ, encode delay.max]
  decode? value := do
    match ← value.fields? Delay.fieldNames with
    | [min, typ, max] =>
        return { min := ← field? min, typ := ← field? typ, max := ← field? max }
    | _ => none

/-- The field names of a net end. -/
def NetEnd.fieldNames : List String := ["cell", "port", "budget"]

instance : JsonCodec NetEnd where
  encode netEnd :=
    .record NetEnd.fieldNames
      [encode netEnd.cell, encode netEnd.port, encode netEnd.budget]
  decode? value := do
    match ← value.fields? NetEnd.fieldNames with
    | [cell, port, budget] =>
        return { cell := ← field? cell, port := ← field? port, budget := ← field? budget }
    | _ => none

/-- The field names of a port. -/
def Port.fieldNames : List String := ["name", "port_type", "net"]

instance : JsonCodec Port where
  encode port :=
    .record Port.fieldNames [encode port.name, encode port.direction, encode port.net]
  decode? value := do
    match ← value.fields? Port.fieldNames with
    | [name, direction, net] =>
        return {
          name := ← field? name
          direction := ← field? direction
          net := ← field? net }
    | _ => none

/-- The field names of a hop. -/
def Hop.fieldNames : List String := ["pip", "strength"]

instance : JsonCodec Hop where
  encode hop := .record Hop.fieldNames [encode hop.pip, encode hop.strength]
  decode? value := do
    match ← value.fields? Hop.fieldNames with
    | [pip, strength] => return { pip := ← field? pip, strength := ← field? strength }
    | _ => none

/-- The field names of a net. -/
def Net.fieldNames : List String := ["name", "driver", "users", "attrs", "wires"]

instance : JsonCodec Net where
  encode net :=
    .record Net.fieldNames
      [encode net.name, encode net.driver, encode net.users, encode net.attrs,
        encode net.wires]
  decode? value := do
    match ← value.fields? Net.fieldNames with
    | [name, driver, users, attrs, wires] =>
        return {
          name := ← field? name
          driver := ← field? driver
          users := ← field? users
          attrs := ← field? attrs
          wires := ← field? wires }
    | _ => none

/-- The field names of a cell. -/
def Cell.fieldNames : List String :=
  ["name", "cell_type", "bel", "bel_strength", "ports", "pins", "attrs", "params"]

instance : JsonCodec Cell where
  encode cell :=
    .record Cell.fieldNames
      [encode cell.name, encode cell.cellType, encode cell.bel, encode cell.strength,
        encode cell.ports, encode cell.pins, encode cell.attrs, encode cell.params]
  decode? value := do
    match ← value.fields? Cell.fieldNames with
    | [name, cellType, bel, strength, ports, pins, attrs, params] =>
        return {
          name := ← field? name
          cellType := ← field? cellType
          bel := ← field? bel
          strength := ← field? strength
          ports := ← field? ports
          pins := ← field? pins
          attrs := ← field? attrs
          params := ← field? params }
    | _ => none

/-- The field names of a diagnostic code. -/
def DiagnosticCode.fieldNames : List String := ["category", "number"]

instance : JsonCodec DiagnosticCode where
  encode code :=
    .record DiagnosticCode.fieldNames [encode code.category, encode code.number]
  decode? value := do
    match ← value.fields? DiagnosticCode.fieldNames with
    | [category, number] =>
        return { category := ← field? category, number := ← field? number }
    | _ => none

/-- The field names of a diagnostic. -/
def Diagnostic.fieldNames : List String :=
  ["severity", "code", "message", "subject", "notes", "help"]

instance : JsonCodec Diagnostic where
  encode diagnostic :=
    .record Diagnostic.fieldNames
      [encode diagnostic.severity, encode diagnostic.code, encode diagnostic.message,
        encode diagnostic.subject, encode diagnostic.notes, encode diagnostic.help]
  decode? value := do
    match ← value.fields? Diagnostic.fieldNames with
    | [severity, code, message, subject, notes, help] =>
        return {
          severity := ← field? severity
          code := ← field? code
          message := ← field? message
          subject := ← field? subject
          notes := ← field? notes
          help := ← field? help }
    | _ => none

end FpgaPlacer
