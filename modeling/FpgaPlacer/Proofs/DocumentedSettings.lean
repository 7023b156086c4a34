import FpgaPlacer.Config.Load
import FpgaPlacer.Proofs.SectionSettings

/-!
# Settings as they are documented

Each field of a section has values of its own kind, and is kept in a slot of its own.
A value is read as a setting exactly when it writes this setting: no float or string is
taken for an integer, and a choice is written as its label or as a table with this key.
-/

namespace FpgaPlacer

namespace Toml.Value

/-- How a choice is written: as its label, or as the only key of a table that holds an
empty array or table. -/
inductive Chooses {α : Type} [Labelled α] : Value → α → Prop where
  | label (choice : α) : Chooses (.string (Labelled.label choice)) choice
  | keyOfArray (choice : α) : Chooses (.table [(Labelled.label choice, .array [])]) choice
  | keyOfTable (choice : α) : Chooses (.table [(Labelled.label choice, .table [])]) choice

theorem toNatBelow?_eq_some_iff {bound number : Nat} {value : Value} :
    value.toNatBelow? bound = some number ↔ value = .integer number ∧ number < bound := by
  cases value with
  | integer written =>
      simp only [toNatBelow?, Option.ite_none_right_eq_some, Option.some.injEq, integer.injEq]
      omega
  | _ => simp [toNatBelow?]

theorem toUInt64_eq_some_iff {number : UInt64} {value : Value} :
    (do return UInt64.ofNat (← value.toNatBelow? UInt64.size)) = some number ↔
      value = .integer number.toNat := by
  constructor
  · intro read
    obtain ⟨written, isWritten, same⟩ := Option.bind_eq_some_iff.mp read
    obtain ⟨isInteger, below⟩ := toNatBelow?_eq_some_iff.mp isWritten
    cases same
    rw [UInt64.toNat_ofNat_of_lt' below]
    exact isInteger
  · intro isInteger
    rw [toNatBelow?_eq_some_iff.mpr ⟨isInteger, number.toNat_lt_size⟩]
    exact congrArg some UInt64.ofNat_toNat

/-- No integer of a document is too great for 64 bits without sign. -/
theorem Proper.toNatBelow?_eq_some_iff {value : Value} (proper : value.Proper) {number : Nat} :
    value.toNatBelow? UInt64.size = some number ↔ value = .integer number := by
  rw [Value.toNatBelow?_eq_some_iff]
  refine and_iff_left_of_imp (fun isInteger => ?_)
  subst isInteger
  cases proper with
  | integer _ greatest =>
      have small : Int64.maxValue.toInt < UInt64.size := by decide
      omega

theorem toBool?_eq_some_iff {truth : Bool} {value : Value} :
    value.toBool? = some truth ↔ value = .boolean truth := by
  cases value <;> simp [toBool?]

theorem isEmptyCollection_iff {value : Value} :
    value.isEmptyCollection = true ↔ value = .array [] ∨ value = .table [] := by
  unfold isEmptyCollection
  split
  · simp
  · simp
  · rename_i noArray noTable
    simp only [Bool.false_eq_true, false_iff, not_or]
    exact ⟨noArray, noTable⟩

variable {α : Type} [Labelled α]

theorem toChoice?_eq_some_iff
    (known : ∀ choice : α, Labelled.ofLabel? (Labelled.label choice) = some choice)
    {choice : α} {value : Value} : value.toChoice? = some choice ↔ value.Chooses choice := by
  have labelled : ∀ {label : String}, Labelled.ofLabel? label = some choice →
      Labelled.label choice = label := by
    intro label found
    simpa using List.find?_some found
  constructor
  · intro chosen
    unfold toChoice? at chosen
    split at chosen
    · rw [← labelled chosen]
      exact .label choice
    · rename_i label content
      obtain ⟨isEmpty, found⟩ := Option.ite_none_right_eq_some.mp chosen
      rw [← labelled found]
      cases isEmptyCollection_iff.mp isEmpty with
      | inl isArray => exact isArray ▸ .keyOfArray choice
      | inr isTable => exact isTable ▸ .keyOfTable choice
    · cases chosen
  · intro chooses
    cases chooses <;> exact known choice

end Toml.Value

/-! ## The documented form -/

def PlaceConfig.keys : List String :=
  ["strategy", "seed", "improvement_passes", "stop_when_stable", "fanout_limit", "tie_break"]

def FlowPolicy.keys : List String := ["force", "arch_check", "check"]

/-- The placement settings that the values of a section describe: choices, truth values,
and integers that are not negative, of which the number of passes has 32 bits. -/
structure PlaceConfig.Described (given : List (String × Toml.Value)) (config : PlaceConfig) :
    Prop where
  strategy : Setting given "strategy" Toml.Value.Chooses default.strategy config.strategy
  seed : Setting given "seed" (fun value seed => value = .integer seed.toNat)
    default.seed config.seed
  improvementPasses : Setting given "improvement_passes"
    (fun value (passes : Nat) => value = .integer passes ∧ passes < UInt32.size)
    default.improvementPasses config.improvementPasses
  stopWhenStable : Setting given "stop_when_stable" (fun value stops => value = .boolean stops)
    default.stopWhenStable config.stopWhenStable
  fanoutLimit : Setting given "fanout_limit" (fun value (limit : Nat) => value = .integer limit)
    default.fanoutLimit config.fanoutLimit
  tieBreak : Setting given "tie_break" Toml.Value.Chooses default.tieBreak config.tieBreak

/-- The policy of the flow that the values of a section describe. -/
structure FlowPolicy.Described (given : List (String × Toml.Value)) (policy : FlowPolicy) :
    Prop where
  force : Setting given "force" (fun value force => value = .boolean force)
    default.force policy.force
  archCheck : Setting given "arch_check" (fun value checks => value = .boolean checks)
    default.archCheck policy.archCheck
  check : Setting given "check" (fun value checks => value = .boolean checks)
    default.check policy.check

/-! ## The slots of the settings -/

theorem PlaceStrategy.ofLabel?_label (choice : PlaceStrategy) :
    Labelled.ofLabel? (Labelled.label choice) = some choice := by
  cases choice <;> rfl

theorem TieBreak.ofLabel?_label (choice : TieBreak) :
    Labelled.ofLabel? (Labelled.label choice) = some choice := by
  cases choice <;> rfl

def Slot.choice {σ α : Type} [Labelled α]
    (known : ∀ choice : α, Labelled.ofLabel? (Labelled.label choice) = some choice)
    (key : String) (content : σ → α) (store : α → σ → σ) : Slot σ where
  key
  Content := α
  read? := Toml.Value.toChoice?
  Writes := Toml.Value.Chooses
  reads _ := Toml.Value.toChoice?_eq_some_iff known
  content
  store

def Slot.truth {σ : Type} (key : String) (content : σ → Bool) (store : Bool → σ → σ) :
    Slot σ where
  key
  Content := Bool
  read? := Toml.Value.toBool?
  Writes value truth := value = .boolean truth
  reads _ := Toml.Value.toBool?_eq_some_iff
  content
  store

def PlaceConfig.slots : List (Slot PlaceConfig) :=
  [.choice PlaceStrategy.ofLabel?_label "strategy" strategy
      (fun content config => { config with strategy := content }),
    { key := "seed"
      Content := UInt64
      read? value := do return .ofNat (← value.toNatBelow? UInt64.size)
      Writes value seed := value = .integer seed.toNat
      reads _ := Toml.Value.toUInt64_eq_some_iff
      content := seed
      store content config := { config with seed := content } },
    { key := "improvement_passes"
      Content := Nat
      read? := Toml.Value.toNatBelow? UInt32.size
      Writes value passes := value = .integer passes ∧ passes < UInt32.size
      reads _ := Toml.Value.toNatBelow?_eq_some_iff
      content := improvementPasses
      store content config := { config with improvementPasses := content } },
    .truth "stop_when_stable" stopWhenStable
      (fun content config => { config with stopWhenStable := content }),
    { key := "fanout_limit"
      Content := Nat
      read? := Toml.Value.toNatBelow? UInt64.size
      Writes value limit := value = .integer limit
      reads := Toml.Value.Proper.toNatBelow?_eq_some_iff
      content := fanoutLimit
      store content config := { config with fanoutLimit := content } },
    .choice TieBreak.ofLabel?_label "tie_break" tieBreak
      (fun content config => { config with tieBreak := content })]

def FlowPolicy.slots : List (Slot FlowPolicy) :=
  [.truth "force" force (fun content policy => { policy with force := content }),
    .truth "arch_check" archCheck (fun content policy => { policy with archCheck := content }),
    .truth "check" check (fun content policy => { policy with check := content })]

theorem PlaceConfig.fields_eq : fields = slots.map Slot.field := by
  simp [fields, slots, Slot.field, Slot.choice, Slot.truth, Option.bind_assoc]

theorem FlowPolicy.fields_eq : fields = slots.map Slot.field := rfl

theorem PlaceConfig.slots_complete : Slot.Complete slots where
  distinct := by decide
  content_store := by simp [slots, Slot.choice, Slot.truth]
  content_store_of_ne := by simp [slots, Slot.choice, Slot.truth]
  ext settings others same := by
    simp only [slots, List.forall_mem_cons] at same
    cases settings
    simp_all [Slot.choice, Slot.truth]

theorem FlowPolicy.slots_complete : Slot.Complete slots where
  distinct := by decide
  content_store := by simp [slots, Slot.truth]
  content_store_of_ne := by simp [slots, Slot.truth]
  ext settings others same := by
    simp only [slots, List.forall_mem_cons] at same
    cases settings
    simp_all [Slot.truth]

theorem PlaceConfig.described_iff {given : List (String × Toml.Value)} {config : PlaceConfig} :
    Described given config ↔ ∀ slot ∈ slots,
      Setting given slot.key slot.Writes (slot.content .default) (slot.content config) := by
  simp only [slots, List.forall_mem_cons]
  constructor
  · intro ⟨strategy, seed, passes, stops, limit, tieBreak⟩
    exact ⟨strategy, seed, passes, stops, limit, tieBreak, by simp⟩
  · intro ⟨strategy, seed, passes, stops, limit, tieBreak, _⟩
    exact ⟨strategy, seed, passes, stops, limit, tieBreak⟩

theorem FlowPolicy.described_iff {given : List (String × Toml.Value)} {policy : FlowPolicy} :
    Described given policy ↔ ∀ slot ∈ slots,
      Setting given slot.key slot.Writes (slot.content .default) (slot.content policy) := by
  simp only [slots, List.forall_mem_cons]
  constructor
  · intro ⟨force, archCheck, check⟩
    exact ⟨force, archCheck, check, by simp⟩
  · intro ⟨force, archCheck, check, _⟩
    exact ⟨force, archCheck, check⟩

end FpgaPlacer
