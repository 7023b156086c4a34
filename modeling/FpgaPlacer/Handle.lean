/-!
# Handles

Names, bels, wires, pips and bel types are referred to by opaque 32-bit
handles.  A handle means something only to the table or device that handed it
out; an absent resource is always `none`, never a reserved number.
-/

namespace FpgaPlacer

/-- What a handle stands for. -/
inductive HandleKind where
  | name
  | bel
  | wire
  | pip
  | belType
  deriving DecidableEq

/-- An opaque handle; handles of different kinds are different types. -/
structure Handle (kind : HandleKind) where
  raw : UInt32
  deriving DecidableEq

/-- The handle of an interned name. -/
abbrev Symbol := Handle .name

/-- A typed site that a cell can be bound to. -/
abbrev BelId := Handle .bel

/-- A routing wire of a device. -/
abbrev WireId := Handle .wire

/-- A fixed link from one wire to another. -/
abbrev PipId := Handle .pip

/-- The type of a bel. -/
abbrev BelType := Handle .belType

namespace Handle

variable {kind : HandleKind}

/-- The handle with the given index; indices are taken modulo `2 ^ 32`. -/
def ofNat (index : Nat) : Handle kind := ⟨UInt32.ofNat index⟩

/-- The index of a handle. -/
def toNat (handle : Handle kind) : Nat := handle.raw.toNat

/-- The first `count` handles in order.  The `count` is to be below `2 ^ 32`; of a greater
number of things not each has a handle of its own, and handles would be listed again. -/
def range (kind : HandleKind) (count : Nat) : List (Handle kind) :=
  (List.range count).map ofNat

instance : LT (Handle kind) := ⟨fun left right => left.toNat < right.toNat⟩

instance (left right : Handle kind) : Decidable (left < right) :=
  inferInstanceAs (Decidable (left.toNat < right.toNat))

theorem toNat_injective {left right : Handle kind}
    (same : left.toNat = right.toNat) : left = right := by
  cases left
  cases right
  exact congrArg Handle.mk (UInt32.toNat_inj.mp same)

@[simp] theorem ofNat_toNat (handle : Handle kind) : ofNat handle.toNat = handle := by
  simp [ofNat, toNat]

theorem toNat_ofNat_of_lt {index : Nat} (small : index < UInt32.size) :
    (ofNat index : Handle kind).toNat = index := by
  simp only [ofNat, toNat]
  exact UInt32.toNat_ofNat_of_lt' small

theorem toNat_ofNat_le (index : Nat) : (ofNat index : Handle kind).toNat ≤ index := by
  simp only [ofNat, toNat, UInt32.toNat_ofNat']
  exact Nat.mod_le ..

theorem mem_range_iff {count : Nat} {handle : Handle kind} :
    handle ∈ range kind count ↔ handle.toNat < count := by
  constructor
  · intro member
    obtain ⟨index, inside, rfl⟩ := List.mem_map.mp member
    exact Nat.lt_of_le_of_lt (toNat_ofNat_le index) (List.mem_range.mp inside)
  · intro inside
    exact List.mem_map.mpr ⟨handle.toNat, List.mem_range.mpr inside, ofNat_toNat handle⟩

theorem nodup_range {count : Nat} (small : count < UInt32.size) : (range kind count).Nodup := by
  rw [range, List.Nodup, List.pairwise_map]
  refine List.Pairwise.imp_of_mem ?_ List.nodup_range
  intro left right leftInside rightInside different same
  apply different
  have leftSmall := Nat.lt_trans (List.mem_range.mp leftInside) small
  have rightSmall := Nat.lt_trans (List.mem_range.mp rightInside) small
  rw [← toNat_ofNat_of_lt leftSmall, same, toNat_ofNat_of_lt rightSmall]

theorem lt_irrefl (handle : Handle kind) : ¬ handle < handle :=
  Nat.lt_irrefl _

theorem lt_trans {first second third : Handle kind}
    (left : first < second) (right : second < third) : first < third :=
  Nat.lt_trans left right

theorem lt_asymm {left right : Handle kind} (less : left < right) :
    ¬ right < left :=
  Nat.lt_asymm less

theorem ne_of_lt {left right : Handle kind} (less : left < right) :
    left ≠ right := by
  rintro rfl
  exact lt_irrefl _ less

theorem lt_of_not_lt_of_ne {left right : Handle kind}
    (notLess : ¬ left < right) (different : left ≠ right) : right < left :=
  Nat.lt_of_le_of_ne (Nat.le_of_not_lt notLess)
    (fun same => different (toNat_injective same.symm))

end Handle

end FpgaPlacer
