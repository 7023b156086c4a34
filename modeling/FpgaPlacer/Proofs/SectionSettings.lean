import FpgaPlacer.Config.Section
import FpgaPlacer.Proofs.ProperDocuments

/-!
# Settings that are read apart from each other

Every field of a section is kept in a slot of its own, so a value that is put
changes this slot and no other.  After a section has been put, a slot holds what
was read for its key, or what it held before when its key was not given: the order
of the keys does not matter, and an array is read like the table that gives its
items under the keys of the fields.
-/

namespace FpgaPlacer

/-- If the value is a table, none of its keys occurs twice. -/
def Toml.Value.Keyed (value : Toml.Value) : Prop :=
  match value with
  | .table entries => (entries.map Prod.fst).Nodup
  | _ => True

/-- A part of some settings with a key of its own: how it is read off a value, which
values write it, and where it is kept. -/
structure Slot (σ : Type) where
  key : String
  Content : Type
  read? : Toml.Value → Option Content
  Writes : Toml.Value → Content → Prop
  reads : ∀ {value}, value.Proper →
    ∀ {content}, read? value = some content ↔ Writes value content
  content : σ → Content
  store : Content → σ → σ

namespace Slot

variable {σ : Type}

/-- The field that stores in a slot what it reads. -/
def field (slot : Slot σ) : Field σ where
  key := slot.key
  put? value settings := do return slot.store (← slot.read? value) settings

/-- Slots that make up some settings: what is stored in one of them is found there
and changes no other, and nothing else is kept. -/
structure Complete (slots : List (Slot σ)) : Prop where
  distinct : (slots.map Slot.key).Nodup
  content_store : ∀ slot ∈ slots, ∀ content settings,
    slot.content (slot.store content settings) = content
  content_store_of_ne : ∀ slot ∈ slots, ∀ other ∈ slots, other.key ≠ slot.key →
    ∀ content settings, other.content (slot.store content settings) = other.content settings
  ext : ∀ settings others, (∀ slot ∈ slots, slot.content settings = slot.content others) →
    settings = others

/-- Afterwards a slot holds what the value given for it says, or what it held before
when there is no such value. -/
def Holds (slot : Slot σ) (found : Option Toml.Value) (before after : σ) : Prop :=
  match found with
  | some value => slot.read? value = some (slot.content after)
  | none => slot.content after = slot.content before

variable {slots : List (Slot σ)} {slot : Slot σ} {before after : σ}

theorem Complete.eq_of_key (complete : Complete slots) {other : Slot σ}
    (listed : slot ∈ slots) (otherListed : other ∈ slots) (same : other.key = slot.key) :
    other = slot :=
  List.inj_on_of_nodup_map complete.distinct otherListed listed same

theorem Complete.find?_field (complete : Complete slots) (listed : slot ∈ slots) :
    (slots.map field).find? (fun field => field.key == slot.key) = some slot.field := by
  rw [List.find?_map]
  cases found : slots.find? ((fun field : Field σ => field.key == slot.key) ∘ field) with
  | none => simpa [field] using List.find?_eq_none.mp found slot listed
  | some other =>
      have same : other.key = slot.key := by simpa [field] using List.find?_some found
      rw [complete.eq_of_key listed (List.mem_of_find?_eq_some found) same]
      rfl

variable {key : String} {value : Toml.Value} {rest : List (String × Toml.Value)}

theorem find?_field_eq_none (unknown : key ∉ slots.map Slot.key) :
    (slots.map field).find? (fun field => field.key == key) = none := by
  rw [List.find?_map, Option.map_eq_none_iff, List.find?_eq_none]
  intro slot listed same
  have isKey : slot.key = key := by simpa [field] using same
  exact unknown (isKey ▸ List.mem_map_of_mem listed)

theorem Complete.putNamed?_of_mem (complete : Complete slots) (listed : slot ∈ slots) :
    Field.putNamed? (slots.map field) before (slot.key, value) =
      (slot.read? value).map (fun content => slot.store content before) := by
  unfold Field.putNamed?
  rw [complete.find?_field listed]
  cases read : slot.read? value with
  | none => simp [field, read]
  | some content => simp [field, read]

theorem putNamed?_of_not_mem (unknown : key ∉ slots.map Slot.key) :
    Field.putNamed? (slots.map field) before (key, value) = none := by
  unfold Field.putNamed?
  rw [find?_field_eq_none unknown]
  rfl

/-- What a first entry and the others say: the slot of its key holds its value, and the
other slots hold what the others say. -/
theorem Complete.holds_cons_iff (complete : Complete slots) (listed : slot ∈ slots) :
    (∀ other ∈ slots, other.Holds (((slot.key, value) :: rest).lookup other.key) before after) ↔
      slot.read? value = some (slot.content after) ∧
        ∀ other ∈ slots, other.key ≠ slot.key →
          other.Holds (rest.lookup other.key) before after := by
  have atFirst : ((slot.key, value) :: rest).lookup slot.key = some value := by simp
  constructor
  · intro holds
    refine ⟨?_, fun other otherListed different => ?_⟩
    · have atSlot := holds slot listed
      rwa [atFirst] at atSlot
    · have atOther := holds other otherListed
      rwa [List.lookup_cons, beq_eq_false_iff_ne.mpr different] at atOther
  · intro ⟨read, holds⟩ other otherListed
    by_cases same : other.key = slot.key
    · cases complete.eq_of_key listed otherListed same
      rw [atFirst]
      exact read
    · rw [List.lookup_cons, beq_eq_false_iff_ne.mpr same]
      exact holds other otherListed same

/-- Entries without the key of a slot leave there what was stored before them. -/
theorem Complete.holds_store_iff (complete : Complete slots) (listed : slot ∈ slots)
    (fresh : slot.key ∉ rest.map Prod.fst) (content : slot.Content) :
    (∀ other ∈ slots, other.Holds (rest.lookup other.key) (slot.store content before) after) ↔
      slot.content after = content ∧
        ∀ other ∈ slots, other.key ≠ slot.key →
          other.Holds (rest.lookup other.key) before after := by
  have apart : ∀ other ∈ slots, other.key ≠ slot.key →
      (other.Holds (rest.lookup other.key) (slot.store content before) after ↔
        other.Holds (rest.lookup other.key) before after) := by
    intro other otherListed different
    cases rest.lookup other.key with
    | some value => exact Iff.rfl
    | none =>
        unfold Holds
        rw [complete.content_store_of_ne slot listed other otherListed different]
  have atSlot : slot.Holds (rest.lookup slot.key) (slot.store content before) after ↔
      slot.content after = content := by
    rw [NamedEntries.lookup_eq_none_iff.mpr fresh]
    unfold Holds
    rw [complete.content_store slot listed]
  constructor
  · intro holds
    exact ⟨atSlot.mp (holds slot listed),
      fun other otherListed different => (apart other otherListed different).mp
        (holds other otherListed)⟩
  · intro ⟨kept, holds⟩ other otherListed
    by_cases same : other.key = slot.key
    · cases complete.eq_of_key listed otherListed same
      exact atSlot.mpr kept
    · exact (apart other otherListed same).mpr (holds other otherListed same)

/-- The run over the entries of a table: all keys are known, and every slot holds what
the entries say about its key. -/
theorem Complete.putAllNamed?_eq_some_iff (complete : Complete slots)
    {entries : List (String × Toml.Value)} (distinct : (entries.map Prod.fst).Nodup) :
    Field.putAllNamed? (slots.map field) before entries = some after ↔
      (∀ entry ∈ entries, entry.1 ∈ slots.map Slot.key) ∧
        ∀ slot ∈ slots, slot.Holds (entries.lookup slot.key) before after := by
  induction entries generalizing before with
  | nil =>
      constructor
      · intro put
        cases put
        exact ⟨by simp, fun _ _ => rfl⟩
      · rintro ⟨-, holds⟩
        exact congrArg some
          (complete.ext before after (fun slot listed => (holds slot listed).symm))
  | cons first rest induction =>
      obtain ⟨key, value⟩ := first
      obtain ⟨fresh, restDistinct⟩ := List.nodup_cons.mp distinct
      by_cases known : key ∈ slots.map Slot.key
      case neg =>
        rw [Field.putAllNamed?, List.foldlM_cons, putNamed?_of_not_mem known]
        constructor
        · intro put
          cases put
        · rintro ⟨allKnown, -⟩
          exact absurd (allKnown _ List.mem_cons_self) known
      case pos =>
        obtain ⟨slot, listed, rfl⟩ := List.mem_map.mp known
        rw [Field.putAllNamed?, List.foldlM_cons, complete.putNamed?_of_mem listed,
          complete.holds_cons_iff listed]
        constructor
        · intro put
          obtain ⟨middle, stored, putRest⟩ := Option.bind_eq_some_iff.mp put
          obtain ⟨content, read, rfl⟩ := Option.map_eq_some_iff.mp stored
          obtain ⟨restKnown, holds⟩ := (induction restDistinct).mp putRest
          obtain ⟨kept, others⟩ := (complete.holds_store_iff listed fresh content).mp holds
          exact ⟨List.forall_mem_cons.mpr ⟨known, restKnown⟩, kept ▸ read, others⟩
        · intro ⟨allKnown, read, others⟩
          rw [read]
          exact (induction restDistinct).mpr ⟨(List.forall_mem_cons.mp allKnown).2,
            (complete.holds_store_iff listed fresh _).mpr ⟨rfl, others⟩⟩

/-- An array is read like the table of its items under the keys of the fields. -/
theorem Complete.putItems?_eq (complete : Complete slots) {listed : List (Slot σ)}
    (among : listed ⊆ slots) (items : List Toml.Value) :
    Field.putItems? (listed.map field) before items =
      Field.putAllNamed? (slots.map field) before ((listed.map Slot.key).zip items) := by
  induction listed generalizing before items with
  | nil => rfl
  | cons slot rest induction =>
      cases items with
      | nil => rfl
      | cons item items =>
          obtain ⟨first, others⟩ := List.cons_subset.mp among
          simp only [List.map_cons, List.zip_cons_cons, Field.putItems?, Field.putAllNamed?,
            List.foldlM_cons, complete.putNamed?_of_mem first]
          cases read : slot.read? item with
          | none => simp [field, read]
          | some content =>
              simpa [field, read, Field.putAllNamed?] using induction others items

end Slot

/-! ## What a section gives -/

/-- The values that a section gives, each with its key: those of a table whose keys are
all known, or the items of an array under the keys in their order. -/
inductive SectionGives (keys : List String) :
    Toml.Value → List (String × Toml.Value) → Prop where
  | named {entries : List (String × Toml.Value)} (known : ∀ entry ∈ entries, entry.1 ∈ keys) :
      SectionGives keys (.table entries) entries
  | listed (items : List Toml.Value) : SectionGives keys (.array items) (keys.zip items)

/-- Two sections that differ in the order of their keys, or of which one names the
values that the other lists. -/
inductive SameSection (keys : List String) : Toml.Value → Toml.Value → Prop where
  | reordered {entries others : List (String × Toml.Value)} (reordered : entries.Perm others) :
      SameSection keys (.table entries) (.table others)
  | named (items : List Toml.Value) :
      SameSection keys (.array items) (.table (keys.zip items))

/-- A setting is what its key was given as, or its default when the key was not given. -/
inductive Setting {α : Type} (given : List (String × Toml.Value)) (key : String)
    (Writes : Toml.Value → α → Prop) (standard : α) : α → Prop where
  | given {value : Toml.Value} {setting : α} (member : (key, value) ∈ given)
      (writes : Writes value setting) : Setting given key Writes standard setting
  | absent (missing : key ∉ given.map Prod.fst) : Setting given key Writes standard standard

namespace Setting

variable {α : Type} {given : List (String × Toml.Value)} {key : String}
  {Writes : Toml.Value → α → Prop} {standard setting : α}

theorem iff_writes (distinct : (given.map Prod.fst).Nodup) {value : Toml.Value}
    (member : (key, value) ∈ given) :
    Setting given key Writes standard setting ↔ Writes value setting := by
  refine ⟨fun isSetting => ?_, .given member⟩
  cases isSetting with
  | given otherMember writes =>
      have found := NamedEntries.lookup_of_mem distinct member
      rw [NamedEntries.lookup_of_mem distinct otherMember, Option.some_inj] at found
      exact found ▸ writes
  | absent missing => exact absurd (List.mem_map_of_mem member) missing

theorem iff_standard (missing : key ∉ given.map Prod.fst) :
    Setting given key Writes standard setting ↔ setting = standard := by
  constructor
  · intro isSetting
    cases isSetting with
    | given member _ => exact absurd (List.mem_map_of_mem member) missing
    | absent _ => rfl
  · rintro rfl
    exact .absent missing

end Setting

namespace Slot

variable {σ : Type} {slots : List (Slot σ)} {before after : σ}

theorem holds_iff (slot : Slot σ) {given : List (String × Toml.Value)}
    (tidy : Toml.Tidy Toml.Value.Proper given) :
    slot.Holds (given.lookup slot.key) before after ↔
      Setting given slot.key slot.Writes (slot.content before) (slot.content after) := by
  cases found : given.lookup slot.key with
  | some value =>
      rw [Setting.iff_writes tidy.distinct (NamedEntries.mem_of_lookup found)]
      exact slot.reads (tidy.lookup found)
  | none =>
      rw [Setting.iff_standard (NamedEntries.lookup_eq_none_iff.mp found)]
      exact Iff.rfl

theorem Complete.putAllNamed?_iff_settings (complete : Complete slots)
    {given : List (String × Toml.Value)} (tidy : Toml.Tidy Toml.Value.Proper given) :
    Field.putAllNamed? (slots.map field) before given = some after ↔
      (∀ entry ∈ given, entry.1 ∈ slots.map Slot.key) ∧
        ∀ slot ∈ slots,
          Setting given slot.key slot.Writes (slot.content before) (slot.content after) := by
  rw [complete.putAllNamed?_eq_some_iff tidy.distinct]
  exact and_congr_right (fun _ => forall₂_congr (fun slot _ => slot.holds_iff tidy))

/-- A section is put when it gives values under known keys, and every slot becomes the
setting that these give. -/
theorem Complete.putSection?_iff_settings (complete : Complete slots) {written : Toml.Value}
    (proper : written.Proper) :
    Field.putSection? (slots.map field) before written = some after ↔
      ∃ given, SectionGives (slots.map Slot.key) written given ∧
        ∀ slot ∈ slots,
          Setting given slot.key slot.Writes (slot.content before) (slot.content after) := by
  have named : ∀ {entries}, written = .table entries → Toml.Tidy Toml.Value.Proper entries := by
    rintro entries rfl
    cases proper with
    | table distinct inner => exact ⟨distinct, inner⟩
  have listed : ∀ {items}, written = .array items →
      Toml.Tidy Toml.Value.Proper ((slots.map Slot.key).zip items) := by
    rintro items rfl
    cases proper with
    | array inner =>
        exact ⟨NamedEntries.nodup_zip complete.distinct,
          fun entry isEntry => inner entry.2 (List.of_mem_zip isEntry).2⟩
  constructor
  · intro put
    cases written with
    | table entries =>
        obtain ⟨known, settings⟩ := (complete.putAllNamed?_iff_settings (named rfl)).mp put
        exact ⟨entries, .named known, settings⟩
    | array items =>
        rw [Field.putSection?, complete.putItems?_eq (List.Subset.refl slots)] at put
        obtain ⟨-, settings⟩ := (complete.putAllNamed?_iff_settings (listed rfl)).mp put
        exact ⟨_, .listed items, settings⟩
    | _ => cases put
  · intro ⟨given, gives, settings⟩
    cases gives with
    | named known => exact (complete.putAllNamed?_iff_settings (named rfl)).mpr ⟨known, settings⟩
    | listed items =>
        rw [Field.putSection?, complete.putItems?_eq (List.Subset.refl slots)]
        refine (complete.putAllNamed?_iff_settings (listed rfl)).mpr
          ⟨fun entry isEntry => ?_, settings⟩
        exact NamedEntries.map_fst_zip_sublist.mem (List.mem_map_of_mem isEntry)

/-- The order of the keys does not matter. -/
theorem Complete.putAllNamed?_perm (complete : Complete slots)
    {entries others : List (String × Toml.Value)} (distinct : (entries.map Prod.fst).Nodup)
    (reordered : entries.Perm others) :
    Field.putAllNamed? (slots.map field) before entries =
      Field.putAllNamed? (slots.map field) before others := by
  refine Option.ext (fun after => ?_)
  rw [complete.putAllNamed?_eq_some_iff distinct,
    complete.putAllNamed?_eq_some_iff ((reordered.map Prod.fst).nodup distinct)]
  simp only [NamedEntries.lookup_perm distinct reordered, reordered.mem_iff]

/-- Neither does the form of a section. -/
theorem Complete.putSection?_of_sameSection (complete : Complete slots)
    {written other : Toml.Value} (same : SameSection (slots.map Slot.key) written other)
    (keyed : written.Keyed) :
    Field.putSection? (slots.map field) before written =
      Field.putSection? (slots.map field) before other := by
  cases same with
  | reordered reordered => exact complete.putAllNamed?_perm keyed reordered
  | named items => exact complete.putItems?_eq (List.Subset.refl slots) items

end Slot

end FpgaPlacer
