import FpgaPlacer.Proofs.PlacementErrors
import FpgaPlacer.Proofs.SuccessfulRuns

/-!
# Types without bels

First fit looks up the type of every unplaced cell before it hands out a bel.
Neither the fixed locations nor the walks over the bels can report an unknown
type, so that error always comes from the look-up: it names the first cell
whose type the device lacks, and only the fixed locations have been bound.
-/

namespace FpgaPlacer

variable {κ : Type}

namespace Layout

/-- No bel type of the device goes by the type of the cell. -/
def Untyped (layout : Layout κ) (record : Cell) : Prop :=
  layout.fabric.device.typeNamed (layout.design.display record.cellType) = none

instance (layout : Layout κ) (record : Cell) : Decidable (layout.Untyped record) :=
  inferInstanceAs (Decidable (_ = none))

end Layout

theorem DesignError.OfLocation.ne_unknownBelType {error : DesignError}
    (located : error.OfLocation) (cellType : String) :
    error ≠ .unknownBelType cellType := by
  rintro rfl
  cases located with
  | cell missing => cases missing

theorem DesignError.OfRoom.ne_unknownBelType {error : DesignError}
    (crowded : error.OfRoom) (cellType : String) :
    error ≠ .unknownBelType cellType := by
  rintro rfl
  cases crowded with
  | cell missing => cases missing

namespace FirstFit

/-- The unplaced cells of unknown types, in table order. -/
def untyped (layout : Layout κ) : List (Symbol × Cell) :=
  (unplaced layout.design).filter (fun entry => layout.Untyped entry.2)

theorem mem_untyped_iff {layout : Layout κ} {cell : Symbol} {record : Cell} :
    (cell, record) ∈ untyped layout ↔
      layout.design.cells.get? cell = some record ∧ record.bel = none ∧
        layout.Untyped record := by
  rw [untyped, List.mem_filter, mem_unplaced_iff, decide_eq_true_eq, and_assoc]

/-- The look-up fails over the first entry of an unknown type. -/
theorem checkTypes_eq_error_iff {layout : Layout κ}
    {entries : List (Symbol × Cell)} {error : DesignError} :
    checkTypes layout entries = .error error ↔
      ∃ cell record rest,
        entries.filter (fun entry => layout.Untyped entry.2) =
          (cell, record) :: rest ∧
        error = .unknownBelType (layout.design.display record.cellType) := by
  induction entries with
  | nil => simp [checkTypes]
  | cons entry rest induction =>
      obtain ⟨cell, record⟩ := entry
      cases known : layout.fabric.device.typeNamed
          (layout.design.display record.cellType) with
      | none =>
          have absent : layout.Untyped record := known
          have stops : checkTypes layout ((cell, record) :: rest) =
              .error (.unknownBelType (layout.design.display record.cellType)) := by
            simp [checkTypes, Layout.typeFor, known, bind, Except.bind]
          rw [stops, List.filter_cons_of_pos (by simpa using absent)]
          constructor
          · intro same
            exact ⟨cell, record, _, rfl, (Except.error.inj same).symm⟩
          · rintro ⟨_, _, _, first, rfl⟩
            cases first
            rfl
      | some belType =>
          have present : ¬ layout.Untyped record := by simp [Layout.Untyped, known]
          have passes : checkTypes layout ((cell, record) :: rest) =
              checkTypes layout rest := by
            simp [checkTypes, Layout.typeFor, known, bind, Except.bind]
          rw [passes, List.filter_cons_of_neg (by simpa using present)]
          exact induction

theorem buckets_eq_error_iff {layout : Layout κ} {error : DesignError} :
    buckets layout = .error error ↔
      ∃ cell record rest, untyped layout = (cell, record) :: rest ∧
        error = .unknownBelType (layout.design.display record.cellType) := by
  refine Iff.trans ?_ checkTypes_eq_error_iff
  constructor
  · intro failed
    rcases checked_bind_eq_error_iff.mp failed with checked | ⟨_, -, grouped⟩
    · exact checked
    · cases grouped
  · intro checked
    exact checked_bind_eq_error_iff.mpr (.inl checked)

/-- Once the fixed locations are bound, an unknown type is reported exactly if
some unplaced cell has one; the first of them is named, and nothing has moved. -/
theorem place_eq_unknownBelType_iff {rule : LegalityRule κ}
    {layout reached : Layout κ} {cellType : String} :
    place rule layout = .error (.failed (.unknownBelType cellType)) reached ↔
      ∃ located cell record rest,
        Constraints.place layout = .ok located reached ∧
        untyped reached = (cell, record) :: rest ∧
        cellType = reached.design.display record.cellType := by
  cases pass : Constraints.place layout with
  | error stop middle =>
      have whole : place rule layout = .error stop middle :=
        Edit.bind_of_error pass
      rw [whole]
      constructor
      · intro failed
        cases failed
        have located := Constraints.place_ofLocation.error pass
        exact absurd rfl (located.ne_unknownBelType cellType)
      · rintro ⟨_, _, _, _, success, -⟩
        cases success
  | ok located middle =>
      rw [place, Edit.bind_of_ok pass, Edit.bind_get]
      cases grouped : buckets middle with
      | error error =>
          obtain ⟨cell, record, rest, first, same⟩ :=
            buckets_eq_error_iff.mp grouped
          constructor
          · intro failed
            cases failed
            cases same
            exact ⟨located, cell, record, rest, rfl, first, rfl⟩
          · rintro ⟨_, other, stored, _, success, again, named⟩
            cases success
            rw [first] at again
            cases again
            rw [same, named]
            rfl
      | ok groups =>
          constructor
          · intro failed
            have crowded := (placeBuckets_ofRoom rule
              middle.fabric.device.bels groups).error failed
            exact absurd rfl (crowded.ne_unknownBelType cellType)
          · rintro ⟨_, cell, record, rest, success, first, -⟩
            cases success
            have failed := buckets_eq_error_iff.mpr
              ⟨cell, record, rest, first, rfl⟩
            rw [grouped] at failed
            cases failed

/-- First fit reports an unknown type if and only if the fixed locations can be
bound and leave an unplaced cell of such a type.  It then names the first such
cell's type, and the layout is the one that the fixed locations lead to,
whatever rule is asked. -/
theorem place_rejects_unknownTypes (rule : LegalityRule κ) (layout : Layout κ) :
    ((∃ cellType reached, place rule layout =
        .error (.failed (.unknownBelType cellType)) reached) ↔
      ∃ located middle, Constraints.place layout = .ok located middle ∧
        ∃ cell record, middle.design.cells.get? cell = some record ∧
          record.bel = none ∧ middle.Untyped record) ∧
    ∀ cellType reached,
      place rule layout = .error (.failed (.unknownBelType cellType)) reached ↔
        ∃ located cell record rest,
          Constraints.place layout = .ok located reached ∧
          untyped reached = (cell, record) :: rest ∧
          cellType = reached.design.display record.cellType := by
  refine ⟨?_, fun _ _ => place_eq_unknownBelType_iff⟩
  constructor
  · rintro ⟨cellType, reached, failed⟩
    obtain ⟨located, cell, record, rest, pass, first, -⟩ :=
      place_eq_unknownBelType_iff.mp failed
    have member : (cell, record) ∈ untyped reached :=
      first ▸ List.mem_cons_self
    exact ⟨located, reached, pass, cell, record, mem_untyped_iff.mp member⟩
  · rintro ⟨located, middle, pass, cell, record, waiting⟩
    have member := mem_untyped_iff.mpr waiting
    obtain ⟨⟨other, stored⟩, rest, first⟩ :=
      List.exists_cons_of_ne_nil (List.ne_nil_of_mem member)
    exact ⟨_, middle, place_eq_unknownBelType_iff.mpr
      ⟨located, other, stored, rest, pass, first, rfl⟩⟩

end FirstFit

end FpgaPlacer
