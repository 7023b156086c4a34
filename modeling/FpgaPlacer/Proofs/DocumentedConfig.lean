import FpgaPlacer.Proofs.DocumentedSettings

/-!
# Configurations as they are documented

A configuration has the optional sections `place` and `flow`, each a table of named
fields or an array of the fields in their order, and what is not given has its default.
A document is loaded exactly when all that it gives is of this form and the limit of the
fanout is positive; it is refused for the limit only when everything else is in order.
-/

namespace FpgaPlacer

/-- The configuration that a document describes: its keys are those of sections, a section
gives values that describe its settings, and without the section these have their
defaults. -/
structure FlowConfig.Described (document : Toml.Document) (config : FlowConfig) : Prop where
  known : ∀ entry ∈ document, entry.1 ∈ ["place", "flow"]
  place : Setting document "place"
    (fun written place => ∃ given, SectionGives PlaceConfig.keys written given ∧
      PlaceConfig.Described given place) .default config.place
  flow : Setting document "flow"
    (fun written flow => ∃ given, SectionGives FlowPolicy.keys written given ∧
      FlowPolicy.Described given flow) .default config.flow

/-- Documents that differ in the order of their keys and in the form of their sections,
in any number of places. -/
inductive FlowConfig.SameSettings : Toml.Document → Toml.Document → Prop where
  | reordered {document other : Toml.Document} (reordered : document.Perm other) :
      SameSettings document other
  | place {before after : Toml.Document} {written other : Toml.Value}
      (same : SameSection PlaceConfig.keys written other) :
      SameSettings (before ++ ("place", written) :: after) (before ++ ("place", other) :: after)
  | flow {before after : Toml.Document} {written other : Toml.Value}
      (same : SameSection FlowPolicy.keys written other) :
      SameSettings (before ++ ("flow", written) :: after) (before ++ ("flow", other) :: after)
  | symm {document other : Toml.Document} (same : SameSettings document other) :
      SameSettings other document
  | trans {document middle other : Toml.Document} (first : SameSettings document middle)
      (second : SameSettings middle other) : SameSettings document other

/-- The slot that holds the settings of a section. -/
def Slot.settings {σ τ : Type} {slots : List (Slot τ)} (complete : Complete slots)
    (standard : τ) {Described : List (String × Toml.Value) → τ → Prop}
    (described_iff : ∀ {given settings}, Described given settings ↔ ∀ slot ∈ slots,
      Setting given slot.key slot.Writes (slot.content standard) (slot.content settings))
    (key : String) (content : σ → τ) (store : τ → σ → σ) : Slot σ where
  key
  Content := τ
  read? := Field.putSection? (slots.map field) standard
  Writes written settings :=
    ∃ given, SectionGives (slots.map Slot.key) written given ∧ Described given settings
  reads := by
    intro written proper settings
    rw [complete.putSection?_iff_settings proper]
    exact exists_congr (fun given => and_congr_right (fun _ => described_iff.symm))
  content
  store

namespace FlowConfig

def slots : List (Slot FlowConfig) :=
  [.settings PlaceConfig.slots_complete .default PlaceConfig.described_iff "place" place
      (fun content config => { config with place := content }),
    .settings FlowPolicy.slots_complete .default FlowPolicy.described_iff "flow" flow
      (fun content config => { config with flow := content })]

theorem sections_eq : sections = slots.map Slot.field := by
  simp [sections, slots, Slot.field, Slot.settings, PlaceConfig.fields_eq, FlowPolicy.fields_eq]

theorem slots_complete : Slot.Complete slots where
  distinct := by decide
  content_store := by simp [slots, Slot.settings]
  content_store_of_ne := by simp [slots, Slot.settings]
  ext settings others same := by
    simp only [slots, List.forall_mem_cons] at same
    cases settings
    simp_all [Slot.settings]

theorem described_iff {document : Toml.Document} {config : FlowConfig} :
    Described document config ↔ (∀ entry ∈ document, entry.1 ∈ slots.map Slot.key) ∧
      ∀ slot ∈ slots, Setting document slot.key slot.Writes (slot.content .default)
        (slot.content config) := by
  simp only [slots, List.forall_mem_cons]
  constructor
  · intro ⟨known, place, flow⟩
    exact ⟨known, place, flow, by simp⟩
  · intro ⟨known, place, flow, _⟩
    exact ⟨known, place, flow⟩

theorem ofDocument?_eq_some_iff {document : Toml.Document} (proper : document.Proper)
    {config : FlowConfig} : ofDocument? document = some config ↔ Described document config := by
  rw [ofDocument?, sections_eq, slots_complete.putAllNamed?_iff_settings proper, described_iff]

/-! ## The order of keys and the form of sections -/

/-- A document in which no key occurs twice, at the top or in a section. -/
structure Keyed (document : Toml.Document) : Prop where
  distinct : (document.map Prod.fst).Nodup
  sections : ∀ entry ∈ document, entry.2.Keyed

theorem keyed_of_proper {document : Toml.Document} (proper : document.Proper) :
    Keyed document := by
  refine ⟨proper.distinct, fun entry listed => ?_⟩
  obtain ⟨key, value⟩ := entry
  cases proper.inner _ listed with
  | table distinct _ => exact distinct
  | _ => trivial

theorem Keyed.of_perm {document other : Toml.Document} (keyed : Keyed document)
    (reordered : document.Perm other) : Keyed other :=
  ⟨(reordered.map Prod.fst).nodup keyed.distinct,
    fun entry listed => keyed.sections entry (reordered.mem_iff.mpr listed)⟩

theorem keyed_replace {before after : Toml.Document} {key : String} {written other : Toml.Value}
    (same : written.Keyed ↔ other.Keyed) :
    Keyed (before ++ (key, written) :: after) ↔ Keyed (before ++ (key, other) :: after) := by
  have parts : ∀ value : Toml.Value, Keyed (before ++ (key, value) :: after) ↔
      (before.map Prod.fst ++ key :: after.map Prod.fst).Nodup ∧
        (∀ entry ∈ before, entry.2.Keyed) ∧ value.Keyed ∧ ∀ entry ∈ after, entry.2.Keyed := by
    intro value
    constructor
    · intro ⟨distinct, sections⟩
      rw [List.forall_mem_append, List.forall_mem_cons] at sections
      exact ⟨by simpa using distinct, sections⟩
    · intro ⟨distinct, early, here, late⟩
      refine ⟨by simpa using distinct, ?_⟩
      exact List.forall_mem_append.mpr ⟨early, List.forall_mem_cons.mpr ⟨here, late⟩⟩
  rw [parts written, parts other, same]

theorem SameSection.keyed_iff {keys : List String} (distinct : keys.Nodup)
    {written other : Toml.Value} (same : SameSection keys written other) :
    written.Keyed ↔ other.Keyed := by
  cases same with
  | reordered reordered => exact (reordered.map Prod.fst).nodup_iff
  | named items => exact iff_of_true trivial (NamedEntries.nodup_zip distinct)

theorem SameSettings.keyed_iff {document other : Toml.Document}
    (same : SameSettings document other) : Keyed document ↔ Keyed other := by
  induction same with
  | reordered reordered =>
      exact ⟨fun keyed => keyed.of_perm reordered, fun keyed => keyed.of_perm reordered.symm⟩
  | place same => exact keyed_replace (SameSection.keyed_iff (by decide) same)
  | flow same => exact keyed_replace (SameSection.keyed_iff (by decide) same)
  | symm _ induction => exact induction.symm
  | trans _ _ first second => exact first.trans second

/-- Only what is put for the replaced section matters. -/
theorem ofDocument?_replace {before after : Toml.Document} {key : String}
    {written other : Toml.Value}
    (same : ∀ config, Field.putNamed? sections config (key, written) =
      Field.putNamed? sections config (key, other)) :
    ofDocument? (before ++ (key, written) :: after) =
      ofDocument? (before ++ (key, other) :: after) := by
  simp only [ofDocument?, Field.putAllNamed?, List.foldlM_append, List.foldlM_cons, same]

theorem SameSettings.ofDocument?_eq {document other : Toml.Document}
    (same : SameSettings document other) (keyed : Keyed document) :
    ofDocument? document = ofDocument? other := by
  induction same with
  | reordered reordered =>
      rw [ofDocument?, ofDocument?, sections_eq]
      exact slots_complete.putAllNamed?_perm keyed.distinct reordered
  | @place before after written other same =>
      have read : Field.putSection? PlaceConfig.fields .default written =
          Field.putSection? PlaceConfig.fields .default other := by
        rw [PlaceConfig.fields_eq]
        exact PlaceConfig.slots_complete.putSection?_of_sameSection same
          (keyed.sections _ (List.mem_append_right _ List.mem_cons_self))
      exact ofDocument?_replace (fun config => by simp [Field.putNamed?, sections, read])
  | @flow before after written other same =>
      have read : Field.putSection? FlowPolicy.fields .default written =
          Field.putSection? FlowPolicy.fields .default other := by
        rw [FlowPolicy.fields_eq]
        exact FlowPolicy.slots_complete.putSection?_of_sameSection same
          (keyed.sections _ (List.mem_append_right _ List.mem_cons_self))
      exact ofDocument?_replace (fun config => by simp [Field.putNamed?, sections, read])
  | symm same induction => exact (induction (same.keyed_iff.mpr keyed)).symm
  | trans first _ fromFirst fromSecond =>
      exact (fromFirst keyed).trans (fromSecond (first.keyed_iff.mp keyed))

/-! ## Loading -/

theorem validated_eq_ok_iff {config other : FlowConfig} :
    config.validated = .ok other ↔ config = other ∧ 0 < config.place.fanoutLimit := by
  unfold validated
  split <;> simp_all [Nat.pos_iff_ne_zero]

theorem validated_eq_error_iff {config : FlowConfig} {error : ConfigError} :
    config.validated = .error error ↔
      error = .fanoutLimitZero ∧ config.place.fanoutLimit = 0 := by
  unfold validated
  split <;> simp_all [eq_comm]

variable {document : Toml.Document}

theorem ofDocument_eq_ok_iff (proper : document.Proper) {config : FlowConfig} :
    ofDocument document = .ok config ↔
      Described document config ∧ 0 < config.place.fanoutLimit := by
  rw [← ofDocument?_eq_some_iff proper, ofDocument]
  cases ofDocument? document with
  | none => simp
  | some read =>
      dsimp only
      rw [validated_eq_ok_iff, Option.some_inj]
      exact and_congr_right (fun same => same ▸ Iff.rfl)

theorem ofDocument_eq_fanoutLimitZero_iff (proper : document.Proper) :
    ofDocument document = .error .fanoutLimitZero ↔
      ∃ config, Described document config ∧ config.place.fanoutLimit = 0 := by
  simp only [← ofDocument?_eq_some_iff proper]
  rw [ofDocument]
  cases ofDocument? document with
  | none => simp
  | some read => simp [validated_eq_error_iff]

theorem ofDocument_eq_malformed_iff (proper : document.Proper) :
    ofDocument document = .error .malformed ↔ ¬∃ config, Described document config := by
  simp only [← ofDocument?_eq_some_iff proper]
  rw [ofDocument]
  cases ofDocument? document with
  | none => simp
  | some read => simp [validated_eq_error_iff]

/-- A document is loaded exactly when it describes a configuration whose limit of the
fanout is positive, and gives this configuration.  It is refused for the limit when the
limit it describes is zero, and as malformed when it describes no configuration.  The
order of its keys and the form of its sections do not matter.  The document of a text is
always of the kind for which this holds. -/
theorem loads_as_documented (document : Toml.Document) (proper : document.Proper) :
    (∀ config, ofDocument document = .ok config ↔
        Described document config ∧ 0 < config.place.fanoutLimit) ∧
      (ofDocument document = .error .fanoutLimitZero ↔
        ∃ config, Described document config ∧ config.place.fanoutLimit = 0) ∧
      (ofDocument document = .error .malformed ↔ ¬∃ config, Described document config) ∧
      (∀ other, SameSettings document other → ofDocument other = ofDocument document) ∧
      ∀ text, (Toml.Document.parse? text = none → load text = .error .malformed) ∧
        ∀ read, Toml.Document.parse? text = some read →
          read.Proper ∧ load text = ofDocument read := by
  refine ⟨fun config => ofDocument_eq_ok_iff proper, ofDocument_eq_fanoutLimitZero_iff proper,
    ofDocument_eq_malformed_iff proper, fun other same => ?_, fun text => ⟨fun unread => ?_,
      fun read isRead => ⟨Toml.Document.proper_of_parse? isRead, ?_⟩⟩⟩
  · rw [ofDocument, ofDocument, same.ofDocument?_eq (keyed_of_proper proper)]
  · rw [load, unread]
  · rw [load, isRead]

/-- Some placement settings by name, one choice being written as a table. -/
def namedPlace : List (String × Toml.Value) :=
  [("tie_break", .table [("prefer-first", .array [])]), ("fanout_limit", .integer 12),
    ("strategy", .string "bucket")]

/-- A document that lists the first field of one section and names those of the other. -/
def bothForms : Toml.Document :=
  [("flow", .array [.boolean true]), ("place", .table namedPlace)]

def bothFormsConfig : FlowConfig where
  place :=
    { PlaceConfig.default with strategy := .bucket, fanoutLimit := 12, tieBreak := .preferFirst }
  flow := { FlowPolicy.default with force := true }

theorem loads_as_documented_of_bothForms :
    bothForms.Proper ∧ Described bothForms bothFormsConfig ∧
      ofDocument bothForms.reverse = .ok bothFormsConfig := by
  have listed : (Toml.Value.array [.boolean true]).Proper :=
    .array (List.forall_mem_singleton.mpr (.boolean true))
  have choice : (Toml.Value.table [("prefer-first", .array [])]).Proper :=
    .table (by decide) (List.forall_mem_singleton.mpr (.array (by simp)))
  have named : (Toml.Value.table namedPlace).Proper := by
    refine .table (by decide) ?_
    simp only [namedPlace, List.forall_mem_cons]
    exact ⟨choice, .integer (by decide) (by decide), .string _, by simp⟩
  have proper : bothForms.Proper :=
    ⟨by decide, List.forall_mem_cons.mpr ⟨listed, List.forall_mem_singleton.mpr named⟩⟩
  have loaded : ofDocument bothForms = .ok bothFormsConfig := by rfl
  obtain ⟨accepts, -, -, sameSettings, -⟩ := loads_as_documented bothForms proper
  refine ⟨proper, ((accepts _).mp loaded).1, ?_⟩
  rw [sameSettings _ (.reordered (List.reverse_perm _).symm), loaded]

end FlowConfig

end FpgaPlacer
