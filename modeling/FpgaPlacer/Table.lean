import FpgaPlacer.Handle

/-!
# Tables keyed by handles

A table is a finite map whose entries are kept strictly sorted by handle, so
iteration is deterministic and two tables with the same lookups are equal
(`Table.ext_get?`).
-/

namespace FpgaPlacer

namespace Entries

variable {kind : HandleKind} {α : Type}

/-- The value stored under a handle. -/
def get? (key : Handle kind) : List (Handle kind × α) → Option α
  | [] => none
  | (handle, value) :: rest => if handle = key then some value else get? key rest

/-- Stores a value, replacing the one already under the same handle. -/
def insert (key : Handle kind) (value : α) :
    List (Handle kind × α) → List (Handle kind × α)
  | [] => [(key, value)]
  | (handle, old) :: rest =>
      if key < handle then (key, value) :: (handle, old) :: rest
      else if key = handle then (key, value) :: rest
      else (handle, old) :: insert key value rest

/-- Removes the entry of a handle. -/
def erase (key : Handle kind) : List (Handle kind × α) → List (Handle kind × α)
  | [] => []
  | (handle, old) :: rest =>
      if handle = key then erase key rest else (handle, old) :: erase key rest

/-- Entries strictly sorted by handle. -/
def Sorted (entries : List (Handle kind × α)) : Prop :=
  entries.Pairwise (fun left right => left.1 < right.1)

theorem mem_insert {key : Handle kind} {value : α}
    {entries : List (Handle kind × α)} {entry : Handle kind × α}
    (member : entry ∈ insert key value entries) :
    entry = (key, value) ∨ entry ∈ entries := by
  induction entries with
  | nil => simpa [insert] using member
  | cons head rest ih =>
      obtain ⟨handle, old⟩ := head
      simp only [insert] at member
      split at member
      · simpa using member
      · split at member
        · rcases List.mem_cons.mp member with first | later
          · exact .inl first
          · exact .inr (List.mem_cons_of_mem _ later)
        · rcases List.mem_cons.mp member with first | later
          · exact .inr (first ▸ List.mem_cons_self)
          · exact (ih later).imp id (List.mem_cons_of_mem _)

theorem Sorted.insert {entries : List (Handle kind × α)}
    (sorted : Sorted entries) (key : Handle kind) (value : α) :
    Sorted (Entries.insert key value entries) := by
  induction entries with
  | nil => simp [Entries.insert, Sorted]
  | cons head rest ih =>
      obtain ⟨handle, old⟩ := head
      obtain ⟨above, restSorted⟩ := List.pairwise_cons.mp sorted
      simp only [Entries.insert]
      split
      · rename_i less
        refine List.pairwise_cons.mpr ⟨fun entry member => ?_, sorted⟩
        rcases List.mem_cons.mp member with first | later
        · exact first ▸ less
        · exact Handle.lt_trans less (above entry later)
      · rename_i notLess
        split
        · rename_i same
          subst same
          exact List.pairwise_cons.mpr ⟨above, restSorted⟩
        · rename_i different
          refine List.pairwise_cons.mpr ⟨fun entry member => ?_, ih restSorted⟩
          rcases mem_insert member with new | old
          · exact new ▸ Handle.lt_of_not_lt_of_ne notLess different
          · exact above entry old

theorem mem_of_mem_erase {key : Handle kind}
    {entries : List (Handle kind × α)} {entry : Handle kind × α}
    (member : entry ∈ erase key entries) : entry ∈ entries := by
  induction entries with
  | nil => simp [erase] at member
  | cons head rest ih =>
      simp only [erase] at member
      split at member
      · exact List.mem_cons_of_mem _ (ih member)
      · rcases List.mem_cons.mp member with first | later
        · exact first ▸ List.mem_cons_self
        · exact List.mem_cons_of_mem _ (ih later)

theorem Sorted.erase {entries : List (Handle kind × α)}
    (sorted : Sorted entries) (key : Handle kind) :
    Sorted (Entries.erase key entries) := by
  induction entries with
  | nil => exact .nil
  | cons head rest ih =>
      obtain ⟨above, restSorted⟩ := List.pairwise_cons.mp sorted
      simp only [Entries.erase]
      split
      · exact ih restSorted
      · exact List.pairwise_cons.mpr
          ⟨fun entry member => above entry (mem_of_mem_erase member), ih restSorted⟩

theorem get?_insert (key query : Handle kind) (value : α)
    (entries : List (Handle kind × α)) :
    get? query (insert key value entries) =
      if query = key then some value else get? query entries := by
  induction entries with
  | nil => simp [insert, get?, eq_comm]
  | cons head rest ih =>
      obtain ⟨handle, old⟩ := head
      simp only [insert]
      split
      · simp [get?, eq_comm]
      · split
        · rename_i same
          subst same
          by_cases equal : key = query <;> simp [get?, equal, eq_comm]
        · rename_i different
          simp only [get?, ih]
          by_cases equal : handle = query
          · subst equal
            simp [Ne.symm different]
          · simp [equal]

theorem get?_erase (key query : Handle kind)
    (entries : List (Handle kind × α)) :
    get? query (erase key entries) =
      if query = key then none else get? query entries := by
  induction entries with
  | nil => simp [erase, get?]
  | cons head rest ih =>
      obtain ⟨handle, old⟩ := head
      simp only [erase]
      split
      · rename_i same
        subst same
        rw [ih]
        by_cases equal : query = handle
        · simp [equal]
        · simp [get?, equal, Ne.symm equal]
      · rename_i different
        by_cases equal : handle = query
        · subst equal
          simp [get?, different]
        · simp [get?, equal, ih]

theorem get?_eq_none_of_forall_ne {query : Handle kind}
    {entries : List (Handle kind × α)}
    (absent : ∀ entry ∈ entries, entry.1 ≠ query) :
    get? query entries = none := by
  induction entries with
  | nil => rfl
  | cons head rest ih =>
      simp [get?, absent head List.mem_cons_self,
        ih (fun entry member => absent entry (List.mem_cons_of_mem _ member))]

theorem mem_of_get?_eq_some {query : Handle kind} {value : α}
    {entries : List (Handle kind × α)}
    (found : get? query entries = some value) : (query, value) ∈ entries := by
  induction entries with
  | nil => simp [get?] at found
  | cons head rest ih =>
      obtain ⟨handle, old⟩ := head
      simp only [get?] at found
      split at found
      · rename_i same
        cases same
        cases found
        exact List.mem_cons_self
      · exact List.mem_cons_of_mem _ (ih found)

theorem Sorted.get?_eq_some_iff {entries : List (Handle kind × α)}
    (sorted : Sorted entries) {query : Handle kind} {value : α} :
    get? query entries = some value ↔ (query, value) ∈ entries := by
  refine ⟨mem_of_get?_eq_some, fun member => ?_⟩
  induction entries with
  | nil => simp at member
  | cons head rest ih =>
      obtain ⟨handle, old⟩ := head
      obtain ⟨above, restSorted⟩ := List.pairwise_cons.mp sorted
      rcases List.mem_cons.mp member with first | later
      · cases first
        simp [get?]
      · have different := Handle.ne_of_lt (above _ later)
        simp [get?, different, ih restSorted later]

theorem Sorted.ext {left right : List (Handle kind × α)}
    (leftSorted : Sorted left) (rightSorted : Sorted right)
    (agree : ∀ query, get? query left = get? query right) : left = right := by
  induction left generalizing right with
  | nil =>
      cases right with
      | nil => rfl
      | cons head rest =>
          have := agree head.1
          simp [get?] at this
  | cons leftHead leftRest ih =>
      cases right with
      | nil =>
          have := agree leftHead.1
          simp [get?] at this
      | cons rightHead rightRest =>
          obtain ⟨leftKey, leftValue⟩ := leftHead
          obtain ⟨rightKey, rightValue⟩ := rightHead
          obtain ⟨leftAbove, leftRestSorted⟩ := List.pairwise_cons.mp leftSorted
          obtain ⟨rightAbove, rightRestSorted⟩ := List.pairwise_cons.mp rightSorted
          have sameKey : leftKey = rightKey := by
            by_cases same : leftKey = rightKey
            · exact same
            · have inRight : (leftKey, leftValue) ∈
                  (rightKey, rightValue) :: rightRest :=
                mem_of_get?_eq_some ((agree leftKey).symm.trans (by simp [get?]))
              have inLeft : (rightKey, rightValue) ∈
                  (leftKey, leftValue) :: leftRest :=
                mem_of_get?_eq_some ((agree rightKey).trans (by simp [get?]))
              rcases List.mem_cons.mp inRight with first | later
              · exact absurd (congrArg Prod.fst first) same
              · rcases List.mem_cons.mp inLeft with first' | later'
                · exact absurd (congrArg Prod.fst first').symm same
                · exact absurd (leftAbove _ later')
                    (Handle.lt_asymm (rightAbove _ later))
          subst sameKey
          have sameValue : leftValue = rightValue := by
            simpa [get?] using agree leftKey
          subst sameValue
          congr 1
          refine ih leftRestSorted rightRestSorted (fun query => ?_)
          by_cases same : leftKey = query
          · subst same
            rw [get?_eq_none_of_forall_ne
                (fun entry member => (Handle.ne_of_lt (leftAbove entry member)).symm),
              get?_eq_none_of_forall_ne
                (fun entry member => (Handle.ne_of_lt (rightAbove entry member)).symm)]
          · simpa [get?, same] using agree query

end Entries

/-- A finite map from handles, its entries strictly sorted by handle. -/
structure Table (kind : HandleKind) (α : Type) where
  toList : List (Handle kind × α)
  sorted : Entries.Sorted toList

namespace Table

variable {kind : HandleKind} {α : Type}

/-- The table without entries. -/
def empty : Table kind α := ⟨[], .nil⟩

instance : EmptyCollection (Table kind α) := ⟨empty⟩

instance : Inhabited (Table kind α) := ⟨empty⟩

/-- The value stored under a handle. -/
def get? (table : Table kind α) (key : Handle kind) : Option α :=
  Entries.get? key table.toList

/-- Whether a handle has an entry. -/
def contains (table : Table kind α) (key : Handle kind) : Bool :=
  (table.get? key).isSome

/-- Stores a value, replacing the one already under the same handle. -/
def insert (table : Table kind α) (key : Handle kind) (value : α) :
    Table kind α :=
  ⟨Entries.insert key value table.toList, table.sorted.insert key value⟩

/-- Removes the entry of a handle, if there is one. -/
def erase (table : Table kind α) (key : Handle kind) : Table kind α :=
  ⟨Entries.erase key table.toList, table.sorted.erase key⟩

/-- Stores a value, or removes the entry when there is none to store. -/
def set (table : Table kind α) (key : Handle kind) : Option α → Table kind α
  | some value => table.insert key value
  | none => table.erase key

/-- The handles with an entry, in order. -/
def keys (table : Table kind α) : List (Handle kind) :=
  table.toList.map Prod.fst

/-- The stored values, in handle order. -/
def values (table : Table kind α) : List α :=
  table.toList.map Prod.snd

/-- The number of entries. -/
def size (table : Table kind α) : Nat := table.toList.length

/-- The table holding the given entries; of two for one handle the later wins. -/
def ofList (entries : List (Handle kind × α)) : Table kind α :=
  entries.foldl (fun table entry => table.insert entry.1 entry.2) empty

/-- Tables with the same lookups are equal. -/
theorem ext_get? {left right : Table kind α}
    (agree : ∀ key, left.get? key = right.get? key) : left = right := by
  cases left with
  | mk leftList leftSorted =>
      cases right with
      | mk rightList rightSorted =>
          have := Entries.Sorted.ext leftSorted rightSorted agree
          subst this
          rfl

@[simp] theorem get?_empty (key : Handle kind) :
    (empty : Table kind α).get? key = none := rfl

@[simp] theorem get?_insert (table : Table kind α) (key query : Handle kind)
    (value : α) :
    (table.insert key value).get? query =
      if query = key then some value else table.get? query :=
  Entries.get?_insert key query value table.toList

@[simp] theorem get?_erase (table : Table kind α) (key query : Handle kind) :
    (table.erase key).get? query =
      if query = key then none else table.get? query :=
  Entries.get?_erase key query table.toList

theorem mem_toList_iff {table : Table kind α} {key : Handle kind} {value : α} :
    (key, value) ∈ table.toList ↔ table.get? key = some value :=
  (Entries.Sorted.get?_eq_some_iff table.sorted).symm

theorem contains_iff {table : Table kind α} {key : Handle kind} :
    table.contains key = true ↔ ∃ value, table.get? key = some value :=
  Option.isSome_iff_exists

theorem insert_get? {table : Table kind α} {key : Handle kind} {value : α}
    (stored : table.get? key = some value) : table.insert key value = table :=
  ext_get? (fun query => by
    by_cases same : query = key <;> simp [same, stored])

theorem erase_insert {table : Table kind α} {key : Handle kind} {value : α}
    (absent : table.get? key = none) :
    (table.insert key value).erase key = table :=
  ext_get? (fun query => by
    by_cases same : query = key <;> simp [same, absent])

theorem insert_comm (table : Table kind α) {first second : Handle kind}
    (different : first ≠ second) (firstValue secondValue : α) :
    (table.insert first firstValue).insert second secondValue =
      (table.insert second secondValue).insert first firstValue :=
  ext_get? (fun query => by
    by_cases isFirst : query = first
    · subst isFirst
      simp [different]
    · simp [isFirst])

end Table

end FpgaPlacer
