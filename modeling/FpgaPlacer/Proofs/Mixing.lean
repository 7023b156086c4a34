import Mathlib.Data.UInt
import FpgaPlacer.Layout.Checksum

/-!
# Mixing loses no difference

The scrambling of a word is injective, so mixing is injective in each of its
two arguments.  Hence replacing one term of a chain changes the value of the
chain, however long the chain goes on, and replacing one entry of an unordered
collection by one of another hash changes its sum.
-/

namespace FpgaPlacer

/-! ## Replacing one item of a list -/

/-- Exactly one item has been replaced, and the step relates the two items. -/
inductive Replaced {α : Type} (step : α → α → Prop) : List α → List α → Prop where
  | here {old new : α} (differs : step old new) (rest : List α) :
      Replaced step (old :: rest) (new :: rest)
  | later {before after : List α} (item : α) (rest : Replaced step before after) :
      Replaced step (item :: before) (item :: after)

namespace Replaced

variable {α β : Type} {step : α → α → Prop} {other : β → β → Prop}
  {before after : List α}

theorem append_left (replaced : Replaced step before after) (front : List α) :
    Replaced step (front ++ before) (front ++ after) := by
  induction front with
  | nil => exact replaced
  | cons item front induction => exact .later item induction

theorem append_right (replaced : Replaced step before after) (back : List α) :
    Replaced step (before ++ back) (after ++ back) := by
  induction replaced with
  | here differs rest => exact .here differs (rest ++ back)
  | later item rest induction => exact .later item induction

theorem mono {weaker : α → α → Prop} (replaced : Replaced step before after)
    (implies : ∀ old new, step old new → weaker old new) :
    Replaced weaker before after := by
  induction replaced with
  | here differs rest => exact .here (implies _ _ differs) rest
  | later item rest induction => exact .later item induction

theorem map {change : α → β} (replaced : Replaced step before after)
    (respects : ∀ old new, step old new → other (change old) (change new)) :
    Replaced other (before.map change) (after.map change) := by
  induction replaced with
  | here differs rest => exact .here (respects _ _ differs) (rest.map change)
  | later item rest induction => exact .later (change item) induction

theorem flatMap {spread : α → List β} (replaced : Replaced step before after)
    (respects : ∀ old new, step old new →
      Replaced other (spread old) (spread new)) :
    Replaced other (before.flatMap spread) (after.flatMap spread) := by
  induction replaced with
  | here differs rest =>
      exact (respects _ _ differs).append_right (rest.flatMap spread)
  | later item rest induction => exact induction.append_left (spread item)

end Replaced

/-- One stored value has been replaced, and the step relates the two values. -/
def Table.Alters {kind : HandleKind} {α : Type} (step : α → α → Prop)
    (old new : Table kind α) : Prop :=
  ∃ key before after, old.get? key = some before ∧ step before after ∧
    new = old.insert key after

private theorem Entries.replaced_insert {kind : HandleKind} {α : Type}
    {step : α → α → Prop} {key : Handle kind} {before after : α}
    {entries : List (Handle kind × α)} (sorted : Entries.Sorted entries)
    (stored : (key, before) ∈ entries) (differs : step before after) :
    Replaced (fun old new => old.1 = new.1 ∧ step old.2 new.2) entries
      (Entries.insert key after entries) := by
  induction entries with
  | nil => cases stored
  | cons entry rest induction =>
      obtain ⟨handle, value⟩ := entry
      obtain ⟨above, restSorted⟩ := List.pairwise_cons.mp sorted
      rcases List.mem_cons.mp stored with first | later
      · cases first
        rw [Entries.insert, if_neg (Handle.lt_irrefl key), if_pos rfl]
        exact .here ⟨rfl, differs⟩ rest
      · have less : handle < key := above _ later
        have different : key ≠ handle := (Handle.ne_of_lt less).symm
        rw [Entries.insert, if_neg (Handle.lt_asymm less), if_neg different]
        exact .later (handle, value) (induction restSorted later)

theorem Table.Alters.replaced {kind : HandleKind} {α : Type}
    {step : α → α → Prop} {old new : Table kind α} (alters : Alters step old new) :
    Replaced (fun left right => left.1 = right.1 ∧ step left.2 right.2)
      old.toList new.toList := by
  obtain ⟨key, before, after, stored, differs, rfl⟩ := alters
  have member : (key, before) ∈ old.toList := mem_toList_iff.mpr stored
  exact Entries.replaced_insert old.sorted member differs

namespace Checksum

/-! ## Scrambling a word -/

private theorem xorShiftLeft_injective {width : Nat} (amount : Nat)
    (positive : 0 < amount) {left right : BitVec width}
    (same : left ^^^ left <<< amount = right ^^^ right <<< amount) :
    left = right := by
  -- From the lowest bit upwards: the shifted word only brings in bits below.
  have bits : ∀ place, left.getLsbD place = right.getLsbD place := by
    intro place
    induction place using Nat.strongRecOn with
    | ind place below =>
        have here := congrArg (fun word => word.getLsbD place) same
        simp only [BitVec.getLsbD_xor, BitVec.getLsbD_shiftLeft] at here
        by_cases low : place < amount
        · simpa [low] using here
        · have earlier := below (place - amount) (by omega)
          rw [earlier] at here
          exact Bool.xor_left_inj.mp here
  exact BitVec.eq_of_getLsbD_eq (fun place _ => bits place)

private theorem xorShiftRight_injective {width : Nat} (amount : Nat)
    (positive : 0 < amount) {left right : BitVec width}
    (same : left ^^^ left >>> amount = right ^^^ right >>> amount) :
    left = right := by
  -- From the highest bit downwards, by the number of bits above the place.
  have bits : ∀ above place, width - place = above →
      left.getLsbD place = right.getLsbD place := by
    intro above
    induction above using Nat.strongRecOn with
    | ind above closer =>
        intro place position
        by_cases inside : place < width
        · have later := closer (width - (amount + place)) (by omega)
            (amount + place) rfl
          have here := congrArg (fun word => word.getLsbD place) same
          simp only [BitVec.getLsbD_xor, BitVec.getLsbD_ushiftRight] at here
          rw [later] at here
          exact Bool.xor_left_inj.mp here
        · have outside : width ≤ place := Nat.le_of_not_lt inside
          rw [BitVec.getLsbD_of_ge left place outside,
            BitVec.getLsbD_of_ge right place outside]
  exact BitVec.eq_of_getLsbD_eq (fun place _ => bits _ place rfl)

theorem scramble_injective {left right : UInt32}
    (same : scramble left = scramble right) : left = right := by
  apply UInt32.toBitVec_inj.mp
  apply xorShiftLeft_injective 13 (by decide)
  apply xorShiftRight_injective 17 (by decide)
  apply xorShiftLeft_injective 5 (by decide)
  exact congrArg UInt32.toBitVec same

theorem mix_left_injective {left right term : UInt32}
    (same : mix left term = mix right term) : left = right :=
  (UInt32.add_left_inj _).mp (scramble_injective same)

theorem mix_right_injective {chain left right : UInt32}
    (same : mix chain left = mix chain right) : left = right :=
  scramble_injective ((UInt32.add_right_inj _).mp (scramble_injective same))

/-! ## Chains and sums -/

theorem mixAll_left_injective (terms : List UInt32) {left right : UInt32}
    (same : mixAll left terms = mixAll right terms) : left = right := by
  induction terms generalizing left right with
  | nil => exact same
  | cons term rest induction => exact mix_left_injective (induction same)

theorem mixAll_ne_of_replaced {start : UInt32} {before after : List UInt32}
    (replaced : Replaced (· ≠ ·) before after) :
    mixAll start before ≠ mixAll start after := by
  induction replaced generalizing start with
  | @here old new differs rest =>
      intro same
      have mixed : mix start old = mix start new :=
        mixAll_left_injective rest same
      exact differs (mix_right_injective mixed)
  | later item rest induction => exact induction

theorem unordered_eq_sum {α : Type} (hash : α → UInt32) (entries : List α) :
    unordered hash entries = (entries.map hash).sum := by
  rw [unordered, ← List.foldl_map, List.sum_eq_foldl]

/-- Replacing one entry by one of another hash changes the sum of the hashes. -/
theorem unordered_ne_of_replaced {α : Type} {hash : α → UInt32}
    {before after : List α}
    (replaced : Replaced (fun old new => hash old ≠ hash new) before after) :
    unordered hash before ≠ unordered hash after := by
  rw [unordered_eq_sum, unordered_eq_sum]
  induction replaced with
  | here differs rest =>
      intro same
      rw [List.map_cons, List.map_cons, List.sum_cons, List.sum_cons] at same
      exact differs ((UInt32.add_left_inj _).mp same)
  | later item rest induction =>
      intro same
      rw [List.map_cons, List.map_cons, List.sum_cons, List.sum_cons] at same
      exact induction ((UInt32.add_right_inj _).mp same)

/-- Altering one value of a table, so that the hash of its entry changes, changes
the sum of the hashes of the entries. -/
theorem unordered_ne_of_alters {kind : HandleKind} {α : Type}
    {step : α → α → Prop} {hash : Handle kind × α → UInt32}
    {old new : Table kind α} (alters : Table.Alters step old new)
    (detects : ∀ key before after, step before after →
      hash (key, before) ≠ hash (key, after)) :
    unordered hash old.toList ≠ unordered hash new.toList := by
  apply unordered_ne_of_replaced
  apply alters.replaced.mono
  rintro ⟨key, before⟩ ⟨_, after⟩ ⟨rfl, differs⟩
  exact detects key before after differs

end Checksum

end FpgaPlacer
