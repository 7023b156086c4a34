import FpgaPlacer.Json.Codec
import FpgaPlacer.Proofs.FiniteFloats

/-!
# Codecs that read back what they write

A codec is faithful on a class of values when every value of the class is read
back as itself and nothing outside the class is ever read.  The class is needed for
floats only: an infinite float is written as `null`.  Numbers, texts and choices are
faithful; options, lists and tables are as faithful as what they hold.
-/

namespace FpgaPlacer

/-- A value that a JSON text can hold: its integers are those kept as integers, and
none of its floats is infinite or undefined. -/
inductive Json.Plain : Json → Prop where
  | null : Plain .null
  | boolean (value : Bool) : Plain (.boolean value)
  | integer {value : Int} (kept : Text.keepsInteger value = true) : Plain (.integer value)
  | float {value : Float} (finite : value.isFinite = true) : Plain (.float value)
  | string (text : String) : Plain (.string text)
  | array {items : List Json} (plain : ∀ item ∈ items, Plain item) : Plain (.array items)
  | object {members : List (String × Json)}
      (plain : ∀ member ∈ members, Plain member.2) : Plain (.object members)

namespace JsonCodec

variable {α β : Type} {kind : HandleKind}

/-- A codec reads the sound values back as themselves, and reads nothing else. -/
structure Faithful (α : Type) [JsonCodec α] (sound : α → Prop) : Prop where
  decode_encode : ∀ {value : α}, sound value → decode? (encode value) = some value
  sound_of_decode : ∀ {json : Json} {value : α},
    json.Plain → decode? json = some value → sound value
  sound_of_missing : ∀ {value : α}, missing? = some value → sound value

/-- A codec reads every value back as itself. -/
def Total (α : Type) [JsonCodec α] : Prop :=
  ∀ value : α, decode? (encode value) = some value

theorem Total.faithful [JsonCodec α] (total : Total α) : Faithful α (fun _ => True) where
  decode_encode := fun _ => total _
  sound_of_decode := fun _ _ => trivial
  sound_of_missing := fun _ => trivial

/-! ## Numbers and choices -/

private theorem natBelow?_integer {bound number : Nat} (below : number < bound) :
    natBelow? bound (.integer number) = some number := by
  simp [natBelow?, below]

theorem total_uint16 : Total UInt16 := by
  intro number
  simp [decode?, encode, natBelow?_integer number.toNat_lt]

theorem total_handle : Total (Handle kind) := by
  intro handle
  have below : handle.toNat < UInt32.size := handle.raw.toNat_lt
  change (natBelow? UInt32.size (.integer handle.toNat)).map Handle.ofNat = some handle
  simp [natBelow?_integer below]

theorem total_string : Total String :=
  fun _ => rfl

theorem faithful_float : Faithful Float (fun value => value.isFinite = true) where
  decode_encode := by
    intro value finite
    simp [decode?, encode, finite]
  sound_of_decode := by
    intro json value plain read
    cases plain with
    | float finite =>
        cases read
        exact finite
    | integer kept =>
        cases read
        exact Binary64.isFinite_ofInt kept
    | _ => cases read
  sound_of_missing := fun missing => by cases missing

theorem total_ofLabel [Labelled α]
    (known : ∀ value : α, Labelled.ofLabel? (Labelled.label value) = some value) :
    @Total α .ofLabel :=
  known

/-! ## Options -/

/-- A codec never writes `null`. -/
def Visible (α : Type) [JsonCodec α] : Prop :=
  ∀ value : α, encode value ≠ .null

theorem visible_handle : Visible (Handle kind) := by
  intro handle same
  cases same

theorem visible_string : Visible String := by
  intro text same
  cases same

theorem encode_option_eq_null [JsonCodec α] (visible : Visible α) {value : Option α} :
    encode value = .null ↔ value = none := by
  cases value with
  | none => exact ⟨fun _ => rfl, fun _ => rfl⟩
  | some value => simp [encode, visible value]

private theorem decode?_option [JsonCodec α] {json : Json} (visible : json ≠ .null) :
    (decode? json : Option (Option α)) = (decode? json).map some := by
  cases json with
  | null => exact absurd rfl visible
  | _ => rfl

theorem Total.option [JsonCodec α] (total : Total α) (visible : Visible α) :
    Total (Option α) := by
  intro value
  cases value with
  | none => rfl
  | some value =>
      change (decode? (encode value) : Option (Option α)) = some (some value)
      rw [decode?_option (visible value), total value]
      rfl

/-! ## Lists -/

private theorem mapM_map_eq_some {read : β → Option α} {write : α → β} {items : List α}
    (back : ∀ item ∈ items, read (write item) = some item) :
    (items.map write).mapM read = some items := by
  induction items with
  | nil => rfl
  | cons first rest ih =>
      have firstBack := back first List.mem_cons_self
      have restBack := ih (fun item member => back item (List.mem_cons_of_mem _ member))
      simp [List.mapM_cons, firstBack, restBack]

private theorem exists_mem_of_mapM_eq_some {read : α → Option β} {items : List α}
    {values : List β} (readAll : items.mapM read = some values) {value : β}
    (member : value ∈ values) : ∃ item ∈ items, read item = some value := by
  induction items generalizing values with
  | nil =>
      cases readAll
      cases member
  | cons first rest ih =>
      simp only [List.mapM_cons, Option.bind_eq_bind, Option.bind_eq_some_iff,
        Option.pure_def] at readAll
      obtain ⟨head, readHead, tail, readTail, whole⟩ := readAll
      cases whole
      cases List.mem_cons.mp member with
      | inl isHead => exact ⟨first, List.mem_cons_self, isHead ▸ readHead⟩
      | inr inTail =>
          obtain ⟨item, inRest, readItem⟩ := ih readTail inTail
          exact ⟨item, List.mem_cons_of_mem _ inRest, readItem⟩

theorem Faithful.list [JsonCodec α] {sound : α → Prop} (faithful : Faithful α sound) :
    Faithful (List α) (fun values => ∀ value ∈ values, sound value) where
  decode_encode := by
    intro values allSound
    change (values.map encode).mapM decode? = some values
    exact mapM_map_eq_some
      (fun value member => faithful.decode_encode (allSound value member))
  sound_of_decode := by
    intro json values plain read value member
    cases plain with
    | array plain =>
        obtain ⟨item, inItems, readItem⟩ := exists_mem_of_mapM_eq_some read member
        exact faithful.sound_of_decode (plain item inItems) readItem
    | _ => cases read
  sound_of_missing := fun missing => by cases missing

theorem Total.list [JsonCodec α] (total : Total α) : Total (List α) :=
  fun _ => total.faithful.list.decode_encode (fun _ _ => trivial)

/-! ## Tables -/

/-- The texts that are read as handles are those that are written for them. -/
theorem handleOfText?_eq_some_iff {text : String} {handle : Handle kind} :
    handleOfText? text = some handle ↔ text = handleText handle := by
  constructor
  · intro read
    simp only [handleOfText?, Option.bind_eq_bind, Option.bind_eq_some_iff] at read
    obtain ⟨number, -, chosen⟩ := read
    split at chosen
    · rename_i canonical
      obtain ⟨below, written⟩ := canonical
      cases chosen
      have kept : (Handle.ofNat number : Handle kind).toNat = number :=
        UInt32.toNat_ofNat_of_lt below
      rw [handleText, kept, written]
    · cases chosen
  · intro written
    have below : handle.toNat < UInt32.size := handle.raw.toNat_lt
    have parsed : (handleText handle).toNat? = some handle.toNat :=
      Nat.toNat?_repr handle.toNat
    rw [written, handleOfText?, parsed]
    simp [handleText, below]

@[simp] theorem handleOfText?_handleText (handle : Handle kind) :
    handleOfText? (handleText handle) = some handle :=
  handleOfText?_eq_some_iff.mpr rfl

end JsonCodec

namespace Table

variable {α : Type} {kind : HandleKind}

private theorem get?_foldl_insert {entries : List (Handle kind × α)}
    (sorted : Entries.Sorted entries) (table : Table kind α) (key : Handle kind) :
    (entries.foldl (fun table entry => table.insert entry.1 entry.2) table).get? key =
      (Entries.get? key entries).or (table.get? key) := by
  induction entries generalizing table with
  | nil => rfl
  | cons first rest ih =>
      obtain ⟨above, restSorted⟩ := List.pairwise_cons.mp sorted
      rw [List.foldl_cons, ih restSorted, Table.get?_insert]
      by_cases same : first.1 = key
      · subst same
        have absent : Entries.get? first.1 rest = none :=
          Entries.get?_eq_none_of_forall_ne (fun entry member =>
            (Handle.ne_of_lt (above entry member)).symm)
        simp [Entries.get?, absent]
      · simp [Entries.get?, same, Ne.symm same]

theorem ofList_toList (table : Table kind α) : ofList table.toList = table := by
  refine ext_get? (fun key => ?_)
  rw [ofList, get?_foldl_insert table.sorted]
  simp [Table.get?, Table.empty, Entries.get?]

theorem mem_of_mem_ofList {entries : List (Handle kind × α)} {entry : Handle kind × α}
    (member : entry ∈ (ofList entries).toList) : entry ∈ entries := by
  suffices ∀ table : Table kind α,
      entry ∈ (entries.foldl (fun table entry => table.insert entry.1 entry.2) table).toList →
        entry ∈ table.toList ∨ entry ∈ entries from
    (this empty member).resolve_left List.not_mem_nil
  clear member
  induction entries with
  | nil => exact fun _ inTable => .inl inTable
  | cons first rest ih =>
      intro table inTable
      cases ih _ inTable with
      | inr later => exact .inr (List.mem_cons_of_mem _ later)
      | inl inserted =>
          cases Entries.mem_insert inserted with
          | inl isFirst => exact .inr (isFirst ▸ List.mem_cons_self)
          | inr old => exact .inl old

end Table

namespace JsonCodec

variable {α : Type} {kind : HandleKind}

theorem Faithful.table [JsonCodec α] {sound : α → Prop} (faithful : Faithful α sound) :
    Faithful (Table kind α) (fun table => ∀ entry ∈ table.toList, sound entry.2) where
  decode_encode := by
    intro table allSound
    have back : ∀ entry ∈ table.toList,
        keyed? (handleText entry.1, encode entry.2) = some entry := by
      intro entry member
      simp [keyed?, faithful.decode_encode (allSound entry member)]
    change ((table.toList.map (fun entry => (handleText entry.1, encode entry.2))).mapM
      keyed?).map Table.ofList = some table
    rw [mapM_map_eq_some back]
    simp [Table.ofList_toList]
  sound_of_decode := by
    intro json table plain read entry member
    cases plain with
    | object plain =>
        change (List.mapM keyed? _).map Table.ofList = some table at read
        obtain ⟨entries, readEntries, whole⟩ := Option.map_eq_some_iff.mp read
        obtain ⟨item, inMembers, readItem⟩ :=
          exists_mem_of_mapM_eq_some readEntries (Table.mem_of_mem_ofList (whole ▸ member))
        simp only [keyed?, Option.bind_eq_bind, Option.bind_eq_some_iff,
          Option.pure_def] at readItem
        obtain ⟨handle, -, value, readValue, same⟩ := readItem
        cases same
        exact faithful.sound_of_decode (plain item inMembers) readValue
    | _ => cases read
  sound_of_missing := fun missing => by cases missing

theorem Total.table [JsonCodec α] (total : Total α) : Total (Table kind α) :=
  fun _ => total.faithful.table.decode_encode (fun _ _ => trivial)

end JsonCodec

end FpgaPlacer
