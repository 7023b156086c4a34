import FpgaPlacer.Json.Records
import FpgaPlacer.Proofs.JsonTexts
import FpgaPlacer.Proofs.NamedEntries

/-!
# Records read back as themselves

Placed designs and diagnostics travel as JSON.  Every record is read back from what
is written for it, provided that its floats are finite; and what is read from any
JSON value is such a record.  A record is written as an object with all its fields;
an object with the fields in another order, with further members, or without the
absent options is read like the array of the fields.
-/

namespace FpgaPlacer

open JsonCodec

/-! ## Fields -/

namespace Json

variable {names optional : List String} {values : List Json}
  {members : List (String × Json)}

/-- The value of a member of an object. -/
def member? (name : String) : Json → Option Json
  | .object members => members.lookup name
  | _ => none

/-- An object that gives the fields of a record: in any order, among any other
members, and without those optional fields that would be `null`. -/
structure ObjectForm (names optional : List String) (values : List Json)
    (members : List (String × Json)) : Prop where
  complete : values.length = names.length
  distinct : (members.map Prod.fst).Nodup
  given : ∀ name value, (name, value) ∈ names.zip values →
    (name, value) ∈ members ∨
      name ∈ optional ∧ value = .null ∧ name ∉ members.map Prod.fst

theorem ObjectForm.required (form : ObjectForm names optional values members)
    (name : String) (value : Json) (listed : (name, value) ∈ names.zip values)
    (needed : name ∉ optional) : members.lookup name = some value := by
  cases form.given name value listed with
  | inl member => exact NamedEntries.lookup_of_mem form.distinct member
  | inr omitted => exact absurd omitted.1 needed

/-- An option that is missing is read like `null`. -/
theorem ObjectForm.omissible {α : Type} [JsonCodec α]
    (form : ObjectForm names optional values members) (name : String) (value : Json)
    (listed : (name, value) ∈ names.zip values) :
    (field? (members.lookup name) : Option (Option α)) = field? (some value) := by
  cases form.given name value listed with
  | inl member => rw [NamedEntries.lookup_of_mem form.distinct member]
  | inr omitted =>
      obtain ⟨-, isNull, absent⟩ := omitted
      rw [NamedEntries.lookup_eq_none_iff.mpr absent, isNull]
      rfl

theorem fields?_array (complete : values.length = names.length) :
    (Json.array values).fields? names = some (values.map some) :=
  if_pos complete

theorem fields?_record (distinct : names.Nodup) (complete : values.length = names.length) :
    (record names values).fields? names = some (values.map some) := by
  refine congrArg some (List.ext_getElem (by simp [complete]) ?_)
  intro index inNames inValues
  simp only [List.length_map] at inNames inValues
  simp only [List.getElem_map]
  refine NamedEntries.lookup_zip distinct (List.mem_iff_getElem.mpr ⟨index, ?_, ?_⟩)
  · simp [complete, inNames]
  · simp

theorem member?_record_eq_null {α : Type} [JsonCodec α] (visible : Visible α)
    (distinct : names.Nodup) {name : String} {value : Option α}
    (listed : (name, encode value) ∈ names.zip values) :
    (record names values).member? name = some .null ↔ value = none := by
  have written : (record names values).member? name = some (encode value) :=
    NamedEntries.lookup_zip distinct listed
  rw [written, Option.some_inj, JsonCodec.encode_option_eq_null visible]

theorem Plain.of_fields? {json : Json} {fields : List (Option Json)} (plain : json.Plain)
    (found : json.fields? names = some fields) {field : Option Json}
    (listed : field ∈ fields) {value : Json} (given : field = some value) : value.Plain := by
  subst given
  cases plain with
  | object plain =>
      cases found
      obtain ⟨name, -, isMember⟩ := List.mem_map.mp listed
      exact plain (name, value) (NamedEntries.mem_of_lookup isMember)
  | array plain =>
      simp only [fields?, Option.ite_none_right_eq_some, Option.some.injEq] at found
      obtain ⟨-, same⟩ := found
      subst same
      obtain ⟨item, inItems, same⟩ := List.mem_map.mp listed
      cases same
      exact plain value inItems
  | _ => cases found

end Json

namespace JsonCodec

theorem Faithful.field?_encode {α : Type} [JsonCodec α] {sound : α → Prop}
    (faithful : Faithful α sound) {value : α} (isSound : sound value) :
    field? (some (encode value)) = some value :=
  faithful.decode_encode isSound

theorem Total.field?_encode {α : Type} [JsonCodec α] (total : Total α) (value : α) :
    field? (some (encode value)) = some value :=
  total value

theorem Faithful.sound_of_field {α : Type} [JsonCodec α] {sound : α → Prop}
    (faithful : Faithful α sound) {names : List String} {json : Json}
    {fields : List (Option Json)} (plain : json.Plain)
    (found : json.fields? names = some fields) {field : Option Json}
    (listed : field ∈ fields) {value : α} (read : field? field = some value) :
    sound value := by
  cases field with
  | none => exact faithful.sound_of_missing read
  | some given => exact faithful.sound_of_decode (plain.of_fields? found listed rfl) read

/-- A codec writes records as the objects of all their fields, and reads the objects
that give the fields like the arrays of the fields. -/
structure RecordForms (α : Type) [JsonCodec α] (names optional : List String) : Prop where
  written : ∀ value : α, ∃ values, values.length = names.length ∧
    encode value = .record names values
  alike : ∀ values members, Json.ObjectForm names optional values members →
    (decode? (.object members) : Option α) = decode? (.array values)

/-! ## Choices -/

theorem total_strength : Total Strength :=
  total_ofLabel (fun value => by cases value <;> rfl)

theorem total_direction : Total Direction :=
  total_ofLabel (fun value => by cases value <;> rfl)

theorem total_severity : Total Severity :=
  total_ofLabel (fun value => by cases value <;> rfl)

theorem total_category : Total Category :=
  total_ofLabel (fun value => by cases value <;> rfl)

end JsonCodec

/-! ## Delays -/

structure Delay.Finite (delay : Delay) : Prop where
  min : delay.min.isFinite = true
  typ : delay.typ.isFinite = true
  max : delay.max.isFinite = true

theorem Delay.decode?_of_fields {json : Json} {min typ max : Option Json}
    (fields : json.fields? Delay.fieldNames = some [min, typ, max]) :
    (decode? json : Option Delay) = (do return {
      min := ← field? min
      typ := ← field? typ
      max := ← field? max }) := by
  change json.fields? Delay.fieldNames >>= _ = _
  rw [fields]
  rfl

theorem Delay.faithful : Faithful Delay Delay.Finite where
  decode_encode := by
    intro delay finite
    refine (decode?_of_fields (Json.fields?_record (by simp [fieldNames]) rfl)).trans ?_
    simp [faithful_float.field?_encode finite.min, faithful_float.field?_encode finite.typ,
      faithful_float.field?_encode finite.max]
  sound_of_decode := by
    intro json delay plain read
    obtain ⟨fields, found, chosen⟩ := Option.bind_eq_some_iff.mp read
    split at chosen
    · rename_i min typ max
      simp only [Option.bind_eq_bind, Option.bind_eq_some_iff, Option.pure_def] at chosen
      obtain ⟨_, readMin, _, readTyp, _, readMax, same⟩ := chosen
      cases same
      exact ⟨faithful_float.sound_of_field plain found (by simp) readMin,
        faithful_float.sound_of_field plain found (by simp) readTyp,
        faithful_float.sound_of_field plain found (by simp) readMax⟩
    · cases chosen
  sound_of_missing := fun missing => by cases missing

theorem Delay.recordForms : RecordForms Delay Delay.fieldNames [] where
  written delay := ⟨_, rfl, rfl⟩
  alike := by
    intro values members form
    match values, form.complete with
    | [min, typ, max], _ =>
        refine (decode?_of_fields rfl).trans ?_
        rw [decode?_of_fields (Json.fields?_array form.complete)]
        simp only [form.required "min_ns" min (by simp [fieldNames]) (by simp),
          form.required "typ_ns" typ (by simp [fieldNames]) (by simp),
          form.required "max_ns" max (by simp [fieldNames]) (by simp)]

/-! ## Ports -/

theorem Port.decode?_of_fields {json : Json} {name direction net : Option Json}
    (fields : json.fields? Port.fieldNames = some [name, direction, net]) :
    (decode? json : Option Port) = (do return {
      name := ← field? name
      direction := ← field? direction
      net := ← field? net }) := by
  change json.fields? Port.fieldNames >>= _ = _
  rw [fields]
  rfl

theorem Port.total : Total Port := by
  intro port
  refine (decode?_of_fields (Json.fields?_record (by simp [fieldNames]) rfl)).trans ?_
  simp [total_handle.field?_encode, total_direction.field?_encode,
    (total_handle.option visible_handle).field?_encode]

theorem Port.recordForms : RecordForms Port Port.fieldNames ["net"] where
  written port := ⟨_, rfl, rfl⟩
  alike := by
    intro values members form
    match values, form.complete with
    | [name, direction, net], _ =>
        refine (decode?_of_fields rfl).trans ?_
        rw [decode?_of_fields (Json.fields?_array form.complete)]
        simp only [form.required "name" name (by simp [fieldNames]) (by simp),
          form.required "port_type" direction (by simp [fieldNames]) (by simp),
          form.omissible "net" net (by simp [fieldNames])]

example : (decode? (.object [("port_type", .string "In"), ("colour", .null),
    ("name", .integer 7)]) : Option Port) = some ⟨.ofNat 7, .input, none⟩ := by
  rfl

/-! ## Net ends -/

def NetEnd.Finite (netEnd : NetEnd) : Prop :=
  netEnd.budget.isFinite = true

theorem NetEnd.decode?_of_fields {json : Json} {cell port budget : Option Json}
    (fields : json.fields? NetEnd.fieldNames = some [cell, port, budget]) :
    (decode? json : Option NetEnd) = (do return {
      cell := ← field? cell
      port := ← field? port
      budget := ← field? budget }) := by
  change json.fields? NetEnd.fieldNames >>= _ = _
  rw [fields]
  rfl

theorem NetEnd.faithful : Faithful NetEnd NetEnd.Finite where
  decode_encode := by
    intro netEnd finite
    refine (decode?_of_fields (Json.fields?_record (by simp [fieldNames]) rfl)).trans ?_
    simp [(total_handle.option visible_handle).field?_encode, total_handle.field?_encode,
      faithful_float.field?_encode finite]
  sound_of_decode := by
    intro json netEnd plain read
    obtain ⟨fields, found, chosen⟩ := Option.bind_eq_some_iff.mp read
    split at chosen
    · rename_i cell port budget
      simp only [Option.bind_eq_bind, Option.bind_eq_some_iff, Option.pure_def] at chosen
      obtain ⟨_, _, _, _, _, readBudget, same⟩ := chosen
      cases same
      exact faithful_float.sound_of_field plain found (by simp) readBudget
    · cases chosen
  sound_of_missing := fun missing => by cases missing

theorem NetEnd.recordForms : RecordForms NetEnd NetEnd.fieldNames ["cell"] where
  written netEnd := ⟨_, rfl, rfl⟩
  alike := by
    intro values members form
    match values, form.complete with
    | [cell, port, budget], _ =>
        refine (decode?_of_fields rfl).trans ?_
        rw [decode?_of_fields (Json.fields?_array form.complete)]
        simp only [
          form.omissible "cell" cell (by simp [fieldNames]),
          form.required "port" port (by simp [fieldNames]) (by simp),
          form.required "budget" budget (by simp [fieldNames]) (by simp)]

/-! ## Nets -/

theorem Hop.decode?_of_fields {json : Json} {pip strength : Option Json}
    (fields : json.fields? Hop.fieldNames = some [pip, strength]) :
    (decode? json : Option Hop) = (do return {
      pip := ← field? pip
      strength := ← field? strength }) := by
  change json.fields? Hop.fieldNames >>= _ = _
  rw [fields]
  rfl

theorem Hop.total : Total Hop := by
  intro hop
  refine (decode?_of_fields (Json.fields?_record (by simp [fieldNames]) rfl)).trans ?_
  simp [(total_handle.option visible_handle).field?_encode,
    total_strength.field?_encode]

theorem Hop.recordForms : RecordForms Hop Hop.fieldNames ["pip"] where
  written hop := ⟨_, rfl, rfl⟩
  alike := by
    intro values members form
    match values, form.complete with
    | [pip, strength], _ =>
        refine (decode?_of_fields rfl).trans ?_
        rw [decode?_of_fields (Json.fields?_array form.complete)]
        simp only [
          form.omissible "pip" pip (by simp [fieldNames]),
          form.required "strength" strength (by simp [fieldNames]) (by simp)]

structure Net.Finite (net : Net) : Prop where
  driver : net.driver.Finite
  users : ∀ user ∈ net.users, user.Finite

theorem Net.decode?_of_fields {json : Json} {name driver users attrs wires : Option Json}
    (fields : json.fields? Net.fieldNames = some [name, driver, users, attrs, wires]) :
    (decode? json : Option Net) = (do return {
      name := ← field? name
      driver := ← field? driver
      users := ← field? users
      attrs := ← field? attrs
      wires := ← field? wires }) := by
  change json.fields? Net.fieldNames >>= _ = _
  rw [fields]
  rfl

theorem Net.faithful : Faithful Net Net.Finite where
  decode_encode := by
    intro net finite
    refine (decode?_of_fields (Json.fields?_record (by simp [fieldNames]) rfl)).trans ?_
    simp [total_handle.field?_encode, NetEnd.faithful.field?_encode finite.driver,
      NetEnd.faithful.list.field?_encode finite.users, total_string.table.field?_encode,
      Hop.total.table.field?_encode]
  sound_of_decode := by
    intro json net plain read
    obtain ⟨fields, found, chosen⟩ := Option.bind_eq_some_iff.mp read
    split at chosen
    · rename_i name driver users attrs wires
      simp only [Option.bind_eq_bind, Option.bind_eq_some_iff, Option.pure_def] at chosen
      obtain ⟨_, _, _, readDriver, _, readUsers, _, _, _, _, same⟩ := chosen
      cases same
      exact ⟨NetEnd.faithful.sound_of_field plain found (by simp) readDriver,
        NetEnd.faithful.list.sound_of_field plain found (by simp) readUsers⟩
    · cases chosen
  sound_of_missing := fun missing => by cases missing

theorem Net.recordForms : RecordForms Net Net.fieldNames [] where
  written net := ⟨_, rfl, rfl⟩
  alike := by
    intro values members form
    match values, form.complete with
    | [name, driver, users, attrs, wires], _ =>
        refine (decode?_of_fields rfl).trans ?_
        rw [decode?_of_fields (Json.fields?_array form.complete)]
        simp only [
          form.required "name" name (by simp [fieldNames]) (by simp),
          form.required "driver" driver (by simp [fieldNames]) (by simp),
          form.required "users" users (by simp [fieldNames]) (by simp),
          form.required "attrs" attrs (by simp [fieldNames]) (by simp),
          form.required "wires" wires (by simp [fieldNames]) (by simp)]

/-! ## Cells -/

theorem Cell.decode?_of_fields {json : Json}
    {name cellType bel strength ports pins attrs params : Option Json}
    (fields : json.fields? Cell.fieldNames =
      some [name, cellType, bel, strength, ports, pins, attrs, params]) :
    (decode? json : Option Cell) = (do return {
      name := ← field? name
      cellType := ← field? cellType
      bel := ← field? bel
      strength := ← field? strength
      ports := ← field? ports
      pins := ← field? pins
      attrs := ← field? attrs
      params := ← field? params }) := by
  change json.fields? Cell.fieldNames >>= _ = _
  rw [fields]
  rfl

theorem Cell.total : Total Cell := by
  intro cell
  refine (decode?_of_fields (Json.fields?_record (by simp [fieldNames]) rfl)).trans ?_
  simp [total_handle.field?_encode,
    (total_handle.option visible_handle).field?_encode,
    total_strength.field?_encode,
    Port.total.table.field?_encode,
    total_handle.table.field?_encode,
    total_string.table.field?_encode]

theorem Cell.recordForms : RecordForms Cell Cell.fieldNames ["bel"] where
  written cell := ⟨_, rfl, rfl⟩
  alike := by
    intro values members form
    match values, form.complete with
    | [name, cellType, bel, strength, ports, pins, attrs, params], _ =>
        refine (decode?_of_fields rfl).trans ?_
        rw [decode?_of_fields (Json.fields?_array form.complete)]
        simp only [
          form.required "name" name (by simp [fieldNames]) (by simp),
          form.required "cell_type" cellType (by simp [fieldNames]) (by simp),
          form.omissible "bel" bel (by simp [fieldNames]),
          form.required "bel_strength" strength (by simp [fieldNames]) (by simp),
          form.required "ports" ports (by simp [fieldNames]) (by simp),
          form.required "pins" pins (by simp [fieldNames]) (by simp),
          form.required "attrs" attrs (by simp [fieldNames]) (by simp),
          form.required "params" params (by simp [fieldNames]) (by simp)]

/-! ## Diagnostics -/

theorem DiagnosticCode.decode?_of_fields {json : Json} {category number : Option Json}
    (fields : json.fields? DiagnosticCode.fieldNames = some [category, number]) :
    (decode? json : Option DiagnosticCode) = (do return {
      category := ← field? category
      number := ← field? number }) := by
  change json.fields? DiagnosticCode.fieldNames >>= _ = _
  rw [fields]
  rfl

theorem DiagnosticCode.total : Total DiagnosticCode := by
  intro code
  refine (decode?_of_fields (Json.fields?_record (by simp [fieldNames]) rfl)).trans ?_
  simp [total_category.field?_encode,
    total_uint16.field?_encode]

theorem DiagnosticCode.recordForms :
    RecordForms DiagnosticCode DiagnosticCode.fieldNames [] where
  written code := ⟨_, rfl, rfl⟩
  alike := by
    intro values members form
    match values, form.complete with
    | [category, number], _ =>
        refine (decode?_of_fields rfl).trans ?_
        rw [decode?_of_fields (Json.fields?_array form.complete)]
        simp only [
          form.required "category" category (by simp [fieldNames]) (by simp),
          form.required "number" number (by simp [fieldNames]) (by simp)]

theorem Diagnostic.decode?_of_fields {json : Json}
    {severity code message subject notes help : Option Json}
    (fields : json.fields? Diagnostic.fieldNames =
      some [severity, code, message, subject, notes, help]) :
    (decode? json : Option Diagnostic) = (do return {
      severity := ← field? severity
      code := ← field? code
      message := ← field? message
      subject := ← field? subject
      notes := ← field? notes
      help := ← field? help }) := by
  change json.fields? Diagnostic.fieldNames >>= _ = _
  rw [fields]
  rfl

theorem Diagnostic.total : Total Diagnostic := by
  intro diagnostic
  refine (decode?_of_fields (Json.fields?_record (by simp [fieldNames]) rfl)).trans ?_
  simp [total_severity.field?_encode,
    DiagnosticCode.total.field?_encode,
    total_string.field?_encode,
    (total_string.option visible_string).field?_encode,
    total_string.list.field?_encode]

theorem Diagnostic.recordForms :
    RecordForms Diagnostic Diagnostic.fieldNames ["subject"] where
  written diagnostic := ⟨_, rfl, rfl⟩
  alike := by
    intro values members form
    match values, form.complete with
    | [severity, code, message, subject, notes, help], _ =>
        refine (decode?_of_fields rfl).trans ?_
        rw [decode?_of_fields (Json.fields?_array form.complete)]
        simp only [
          form.required "severity" severity (by simp [fieldNames]) (by simp),
          form.required "code" code (by simp [fieldNames]) (by simp),
          form.required "message" message (by simp [fieldNames]) (by simp),
          form.omissible "subject" subject (by simp [fieldNames]),
          form.required "notes" notes (by simp [fieldNames]) (by simp),
          form.required "help" help (by simp [fieldNames]) (by simp)]

/-! ## All of them -/

namespace JsonCodec

/-- Every finite value is read back from what is written for it, and so is every
value that is read from some JSON value. -/
structure RoundTrips (α : Type) [JsonCodec α] (finite : α → Prop) : Prop where
  written : ∀ value : α, finite value → decode? (encode value) = some value
  read : ∀ (json : Json) (value : α), json.Plain → decode? json = some value →
    decode? (encode value) = some value

theorem Faithful.roundTrips {α : Type} [JsonCodec α] {finite : α → Prop}
    (faithful : Faithful α finite) : RoundTrips α finite where
  written _ isFinite := faithful.decode_encode isFinite
  read _ _ plain found := faithful.decode_encode (faithful.sound_of_decode plain found)

theorem Total.roundTrips {α : Type} [JsonCodec α] (total : Total α) :
    RoundTrips α (fun _ => True) :=
  total.faithful.roundTrips

/-- Records are read back from what is written for them and from whatever they are
read from, in every form, where JSON values are those that a text can hold. -/
theorem records_roundTrip :
    (RoundTrips Symbol (fun _ => True) ∧
      RoundTrips BelId (fun _ => True) ∧
      RoundTrips Delay Delay.Finite ∧
      RoundTrips Strength (fun _ => True) ∧
      RoundTrips Direction (fun _ => True) ∧
      RoundTrips NetEnd NetEnd.Finite ∧
      RoundTrips Port (fun _ => True) ∧
      RoundTrips Hop (fun _ => True) ∧
      RoundTrips Net Net.Finite ∧
      RoundTrips Cell (fun _ => True) ∧
      RoundTrips Severity (fun _ => True) ∧
      RoundTrips Category (fun _ => True) ∧
      RoundTrips DiagnosticCode (fun _ => True) ∧
      RoundTrips Diagnostic (fun _ => True)) ∧
    (RecordForms Delay Delay.fieldNames [] ∧
      RecordForms NetEnd NetEnd.fieldNames ["cell"] ∧
      RecordForms Port Port.fieldNames ["net"] ∧
      RecordForms Hop Hop.fieldNames ["pip"] ∧
      RecordForms Net Net.fieldNames [] ∧
      RecordForms Cell Cell.fieldNames ["bel"] ∧
      RecordForms DiagnosticCode DiagnosticCode.fieldNames [] ∧
      RecordForms Diagnostic Diagnostic.fieldNames ["subject"]) ∧
    (∀ netEnd : NetEnd, (encode netEnd).member? "cell" = some .null ↔ netEnd.cell = none) ∧
    (∀ port : Port, (encode port).member? "net" = some .null ↔ port.net = none) ∧
    (∀ hop : Hop, (encode hop).member? "pip" = some .null ↔ hop.pip = none) ∧
    (∀ cell : Cell, (encode cell).member? "bel" = some .null ↔ cell.bel = none) ∧
    (∀ diagnostic : Diagnostic,
      (encode diagnostic).member? "subject" = some .null ↔ diagnostic.subject = none) ∧
    ∀ source json, Json.parse? source = some json → json.Plain := by
  refine ⟨⟨total_handle.roundTrips, total_handle.roundTrips, Delay.faithful.roundTrips,
      total_strength.roundTrips, total_direction.roundTrips, NetEnd.faithful.roundTrips,
      Port.total.roundTrips, Hop.total.roundTrips, Net.faithful.roundTrips,
      Cell.total.roundTrips, total_severity.roundTrips, total_category.roundTrips,
      DiagnosticCode.total.roundTrips, Diagnostic.total.roundTrips⟩,
    ⟨Delay.recordForms, NetEnd.recordForms, Port.recordForms, Hop.recordForms,
      Net.recordForms, Cell.recordForms, DiagnosticCode.recordForms,
      Diagnostic.recordForms⟩, ?_, ?_, ?_, ?_, ?_, fun _ _ => Json.plain_of_parse?⟩
  · exact fun netEnd => Json.member?_record_eq_null visible_handle
      (by simp [NetEnd.fieldNames]) (by simp [NetEnd.fieldNames])
  · exact fun port => Json.member?_record_eq_null visible_handle
      (by simp [Port.fieldNames]) (by simp [Port.fieldNames])
  · exact fun hop => Json.member?_record_eq_null visible_handle
      (by simp [Hop.fieldNames]) (by simp [Hop.fieldNames])
  · exact fun cell => Json.member?_record_eq_null visible_handle
      (by simp [Cell.fieldNames]) (by simp [Cell.fieldNames])
  · exact fun diagnostic => Json.member?_record_eq_null visible_string
      (by simp [Diagnostic.fieldNames]) (by simp [Diagnostic.fieldNames])

/-- A net with a driver, two users, one of them without a cell, an attribute, a root wire and
a wire behind a pip. -/
def clockNet : Net where
  name := .ofNat 4
  driver := ⟨some (.ofNat 1), .ofNat 5, 0.25⟩
  users := [⟨some (.ofNat 2), .ofNat 6, 1.5⟩, ⟨none, .ofNat 0, 0.0⟩]
  attrs := Table.empty.insert (.ofNat 7) "clock"
  wires := (Table.empty.insert (.ofNat 8) ⟨none, .strong⟩).insert (.ofNat 3)
    ⟨some (.ofNat 2), .weak⟩

theorem records_roundTrip_of_clockNet :
    clockNet.Finite ∧ decode? (encode clockNet) = some clockNet ∧
      decode? (.object [("port", .integer 6), ("note", .null), ("budget", .float 1.5)]) =
        some (⟨none, .ofNat 6, 1.5⟩ : NetEnd) := by
  obtain ⟨⟨-, -, -, -, -, -, -, -, nets, -⟩, ⟨-, ends, -⟩, -⟩ := records_roundTrip
  have finite : clockNet.Finite := by
    constructor
    · exact (by decide : (0.25 : Float).isFinite = true)
    · intro user listed
      obtain rfl | listed := List.mem_cons.mp listed
      · exact (by decide : (1.5 : Float).isFinite = true)
      · obtain rfl := List.mem_singleton.mp listed
        exact (by decide : (0.0 : Float).isFinite = true)
  have form : Json.ObjectForm NetEnd.fieldNames ["cell"]
      [.null, .integer 6, .float 1.5]
      [("port", .integer 6), ("note", .null), ("budget", .float 1.5)] := by
    refine ⟨rfl, by decide, ?_⟩
    intro name value listed
    simp only [NetEnd.fieldNames, List.zip_cons_cons, List.zip_nil_left, List.mem_cons,
      List.not_mem_nil, or_false, Prod.mk.injEq] at listed
    obtain ⟨rfl, rfl⟩ | ⟨rfl, rfl⟩ | ⟨rfl, rfl⟩ := listed
    · exact .inr ⟨by decide, rfl, by decide⟩
    · exact .inl (by simp)
    · exact .inl (by simp)
  exact ⟨finite, nets.written clockNet finite, (ends.alike _ _ form).trans rfl⟩

end JsonCodec

end FpgaPlacer
