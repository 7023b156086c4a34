import FpgaPlacer.Placement.FirstFit
import FpgaPlacer.Placement.Greedy
import FpgaPlacer.Proofs.EditRuns

/-!
# The errors of the placers

A placer fails over the design it is given: over a location, a type or a lack
of bels.  It never reports a broken rule or a defect of its caller, which are
the errors that a flow run may not carry on after.
-/

namespace FpgaPlacer

variable {κ : Type}

namespace DesignError

/-- An error that is neither a broken rule nor an internal one. -/
structure Ordinary (error : DesignError) : Prop where
  invariant : error.isInvariant = false
  internal : error.isInternal = false

/-- The error over a cell that is not there. -/
inductive OfCell : DesignError → Prop where
  | unknownCell (cell : String) : OfCell (.unknownCell cell)

/-- The errors over a fixed location. -/
inductive OfLocation : DesignError → Prop where
  | cell {error : DesignError} (missing : error.OfCell) : OfLocation error
  | noSuchBel (cell bel : String) : OfLocation (.noSuchBel cell bel)
  | belTypeMismatch (cell cellType bel belType : String) :
      OfLocation (.belTypeMismatch cell cellType bel belType)
  | belOccupied (cell bel occupant : String) :
      OfLocation (.belOccupied cell bel occupant)

/-- The errors over a lack of bels for the cells of a type. -/
inductive OfRoom : DesignError → Prop where
  | cell {error : DesignError} (missing : error.OfCell) : OfRoom error
  | tooManyCells (cellType : String) : OfRoom (.tooManyCells cellType)

variable {error : DesignError}

theorem OfCell.ordinary (missing : error.OfCell) : error.Ordinary := by
  cases missing
  exact ⟨rfl, rfl⟩

theorem OfLocation.ordinary (located : error.OfLocation) : error.Ordinary := by
  cases located with
  | cell missing => exact missing.ordinary
  | noSuchBel | belTypeMismatch | belOccupied => exact ⟨rfl, rfl⟩

theorem OfRoom.ordinary (crowded : error.OfRoom) : error.Ordinary := by
  cases crowded with
  | cell missing => exact missing.ordinary
  | tooManyCells => exact ⟨rfl, rfl⟩

end DesignError

namespace Edit

variable {ε σ α β : Type}

/-- Every error that an edit can end with, from any state, is allowed. -/
structure FailsOnly (allowed : ε → Prop) (edit : Edit ε σ α) : Prop where
  error : ∀ {state error reached}, edit state = .error (.failed error) reached →
    allowed error

section FailsOnly

variable {allowed : ε → Prop}

theorem failsOnly_pure (value : α) :
    FailsOnly allowed (pure value : Edit ε σ α) :=
  ⟨fun failed => nomatch failed⟩

theorem failsOnly_get : FailsOnly allowed (get : Edit ε σ σ) :=
  ⟨fun failed => nomatch failed⟩

theorem failsOnly_modifyGet (change : σ → α × σ) :
    FailsOnly allowed (modifyGet change : Edit ε σ α) :=
  ⟨fun failed => nomatch failed⟩

theorem failsOnly_fail {error : ε} (allows : allowed error) :
    FailsOnly allowed (fail error : Edit ε σ α) := by
  constructor
  intro state other reached failed
  cases failed
  exact allows

theorem failsOnly_reading {step : σ → Except (Stop ε) α}
    (allows : ∀ state error, step state = .error (.failed error) →
      allowed error) : FailsOnly allowed (reading step) := by
  constructor
  intro state error reached failed
  cases read : step state with
  | ok value =>
      rw [reading_of_ok read] at failed
      cases failed
  | error stop =>
      rw [reading_of_error read] at failed
      cases failed
      exact allows state error read

theorem failsOnly_bind {first : Edit ε σ α} {next : α → Edit ε σ β}
    (start : FailsOnly allowed first)
    (rest : ∀ value, FailsOnly allowed (next value)) :
    FailsOnly allowed (first >>= next) := by
  constructor
  intro state error reached failed
  cases run : first state with
  | ok value middle =>
      rw [bind_of_ok run] at failed
      exact (rest value).error failed
  | error stop middle =>
      rw [bind_of_error run] at failed
      cases failed
      exact start.error run

theorem FailsOnly.mono {wider : ε → Prop} {edit : Edit ε σ α}
    (fails : FailsOnly allowed edit)
    (widens : ∀ {error}, allowed error → wider error) : FailsOnly wider edit :=
  ⟨fun failed => widens (fails.error failed)⟩

end FailsOnly

end Edit

open Edit

abbrev LayoutEdit.Ordinary {α : Type} (edit : LayoutEdit κ α) : Prop :=
  FailsOnly DesignError.Ordinary edit

namespace Layout

theorem typeFor_ordinary {layout : Layout κ} {cellType : Symbol}
    {error : DesignError} (failed : layout.typeFor cellType = .error error) :
    error.Ordinary := by
  simp only [typeFor] at failed
  split at failed
  · cases failed
  · cases failed
    exact ⟨rfl, rfl⟩

theorem bindBel_ofCell (cell : Symbol) (bel : BelId) (strength : Strength) :
    FailsOnly DesignError.OfCell (bindBel cell bel strength : LayoutEdit κ Unit) := by
  constructor
  intro layout error reached failed
  unfold bindBel at failed
  split at failed
  · cases failed
    exact .unknownCell _
  · cases failed

theorem unbindBel_ofCell (cell : Symbol) :
    FailsOnly DesignError.OfCell (unbindBel cell : LayoutEdit κ Unit) := by
  constructor
  intro layout error reached failed
  unfold unbindBel at failed
  split at failed
  · cases failed
    exact .unknownCell _
  · cases failed

theorem bindAndAnnotate_ofCell (cell : Symbol) (bel : BelId)
    (strength : Strength) :
    FailsOnly DesignError.OfCell
      (bindAndAnnotate cell bel strength : LayoutEdit κ Unit) := by
  apply failsOnly_bind (bindBel_ofCell cell bel strength)
  intro _
  apply failsOnly_bind (failsOnly_modifyGet _)
  intro key
  apply failsOnly_bind
  · apply failsOnly_reading
    intro layout error failed
    exact absurd failed (Query.stop_ne_failed _ error)
  · exact fun _ => failsOnly_modifyGet _

end Layout

namespace Constraints

theorem target_ofLocation {layout : Layout κ} {cellName location : String}
    {record : Cell} {error : DesignError}
    (failed : target layout cellName record location = .error (.failed error)) :
    error.OfLocation := by
  unfold target at failed
  split at failed
  · cases failed
    exact .noSuchBel cellName location
  · rcases checked_bind_eq_error_iff.mp failed with asked | ⟨belType, _, rest⟩
    · exact absurd asked (Query.stop_ne_failed _ error)
    · split at rest
      · cases rest
      · rcases checked_bind_eq_error_iff.mp rest with asked | ⟨_, _, thrown⟩
        · exact absurd asked (Query.stop_ne_failed _ error)
        · cases thrown
          exact .belTypeMismatch _ _ _ _

theorem placeCell_ofLocation (key cell : Symbol) :
    FailsOnly DesignError.OfLocation
      (placeCell key cell : LayoutEdit κ Bool) := by
  apply failsOnly_bind failsOnly_get
  intro layout
  split
  · exact failsOnly_fail (.cell (.unknownCell _))
  · split
    · exact failsOnly_pure false
    · apply failsOnly_bind
      · apply failsOnly_reading
        exact fun _ _ failed => target_ofLocation failed
      · intro bel
        split
        · exact failsOnly_pure true
        · split
          · exact failsOnly_fail (.belOccupied _ _ _)
          · apply failsOnly_bind ((Layout.unbindBel_ofCell cell).mono .cell)
            intro _
            apply failsOnly_bind
              ((Layout.bindBel_ofCell cell bel .user).mono .cell)
            exact fun _ => failsOnly_pure true

theorem placeCells_ofLocation (key : Symbol) (cells : List Symbol) :
    FailsOnly DesignError.OfLocation
      (placeCells key cells : LayoutEdit κ (List Symbol)) := by
  induction cells with
  | nil => exact failsOnly_pure []
  | cons cell rest induction =>
      apply failsOnly_bind (placeCell_ofLocation key cell)
      intro placed
      apply failsOnly_bind induction
      exact fun others => failsOnly_pure _

/-- The constraint pass fails over locations only. -/
theorem place_ofLocation :
    FailsOnly DesignError.OfLocation (place : LayoutEdit κ (List Symbol)) := by
  apply failsOnly_bind (failsOnly_modifyGet _)
  intro key
  apply failsOnly_bind failsOnly_get
  exact fun layout => placeCells_ofLocation key layout.design.cells.keys

theorem place_ordinary : (place : LayoutEdit κ (List Symbol)).Ordinary :=
  place_ofLocation.mono DesignError.OfLocation.ordinary

end Constraints

namespace FirstFit

theorem checkTypes_ordinary {layout : Layout κ} {entries : List (Symbol × Cell)}
    {error : DesignError} (failed : checkTypes layout entries = .error error) :
    error.Ordinary := by
  induction entries with
  | nil => cases failed
  | cons entry rest induction =>
      rcases checked_bind_eq_error_iff.mp failed with here | ⟨_, _, later⟩
      · exact Layout.typeFor_ordinary here
      · exact induction later

theorem buckets_ordinary {layout : Layout κ} {error : DesignError}
    (failed : buckets layout = .error error) : error.Ordinary := by
  rcases checked_bind_eq_error_iff.mp failed with checked | ⟨_, _, grouped⟩
  · exact checkTypes_ordinary checked
  · cases grouped

variable (rule : LegalityRule κ)

theorem placeCells_ofRoom (typeName : String) (belType : BelType)
    (cells : List Symbol) (bels : List BelId) :
    FailsOnly DesignError.OfRoom
      (placeCells rule typeName belType cells bels) := by
  induction cells generalizing bels with
  | nil => exact failsOnly_pure ()
  | cons cell rest induction =>
      apply failsOnly_bind failsOnly_get
      intro layout
      split
      · exact failsOnly_fail (.tooManyCells typeName)
      · apply failsOnly_bind
          ((Layout.bindAndAnnotate_ofCell cell _ .weak).mono .cell)
        exact fun _ => induction _

theorem placeBuckets_ofRoom (bels : List BelId) (buckets : List Bucket) :
    FailsOnly DesignError.OfRoom (placeBuckets rule bels buckets) := by
  induction buckets with
  | nil => exact failsOnly_pure ()
  | cons bucket rest induction =>
      apply failsOnly_bind
      · exact placeCells_ofRoom rule bucket.typeName bucket.belType
          bucket.cells bels
      · exact fun _ => induction

theorem place_ordinary : (place rule).Ordinary := by
  apply failsOnly_bind Constraints.place_ordinary
  intro placed
  apply failsOnly_bind failsOnly_get
  intro layout
  split
  · rename_i error failed
    exact failsOnly_fail (buckets_ordinary failed)
  · exact (placeBuckets_ofRoom rule layout.fabric.device.bels _).mono
      DesignError.OfRoom.ordinary

end FirstFit

namespace Greedy

variable [Scalar κ] (rule : LegalityRule κ) (options : PlaceOptions)

theorem choose_ordinary {cell : Symbol} {record : Cell} {layout : Layout κ}
    {error : DesignError}
    (failed : choose rule options cell record layout = .error (.failed error)) :
    error.Ordinary := by
  unfold choose at failed
  split at failed
  · rename_i refused typed
    cases failed
    exact Layout.typeFor_ordinary typed
  · rcases checked_bind_eq_error_iff.mp failed with asked | ⟨priced, _, answer⟩
    · exact absurd asked (Query.stop_ne_failed _ error)
    · split at answer
      · cases answer
      · cases answer
        exact ⟨rfl, rfl⟩

theorem placeCell_ordinary (cell : Symbol) :
    (placeCell rule options cell).Ordinary := by
  apply failsOnly_bind failsOnly_get
  intro before
  split
  · exact failsOnly_fail ⟨rfl, rfl⟩
  · apply failsOnly_bind
      ((Layout.unbindBel_ofCell cell).mono DesignError.OfCell.ordinary)
    intro _
    apply failsOnly_bind
    · apply failsOnly_reading
      exact fun _ _ failed => choose_ordinary rule options failed
    · intro bel
      apply failsOnly_bind
        ((Layout.bindAndAnnotate_ofCell cell bel .weak).mono
          DesignError.OfCell.ordinary)
      exact fun _ => failsOnly_pure _

theorem placeUnplaced_ordinary (cells : List Symbol) :
    (placeUnplaced rule options cells).Ordinary := by
  induction cells with
  | nil => exact failsOnly_pure []
  | cons cell rest induction =>
      apply failsOnly_bind failsOnly_get
      intro layout
      split
      · exact induction
      · apply failsOnly_bind (placeCell_ordinary rule options cell)
        intro _
        apply failsOnly_bind induction
        exact fun _ => failsOnly_pure _

theorem replaceAll_ordinary (cells : List Symbol) :
    (replaceAll rule options cells).Ordinary := by
  induction cells with
  | nil => exact failsOnly_pure 0
  | cons cell rest induction =>
      apply failsOnly_bind (placeCell_ordinary rule options cell)
      intro _
      apply failsOnly_bind induction
      exact fun _ => failsOnly_pure _

theorem improve_ordinary (passes : Nat) (cells : List Symbol) :
    (improve rule options passes cells).Ordinary := by
  induction passes generalizing cells with
  | zero => exact failsOnly_pure ()
  | succ passes induction =>
      apply failsOnly_bind (failsOnly_modifyGet _)
      intro order
      apply failsOnly_bind (replaceAll_ordinary rule options order)
      intro moved
      split
      · exact failsOnly_pure ()
      · exact induction order

theorem place_ordinary : (place rule options).Ordinary := by
  apply failsOnly_bind Constraints.place_ordinary
  intro _
  apply failsOnly_bind failsOnly_get
  intro layout
  apply failsOnly_bind
  · exact placeUnplaced_ordinary rule options layout.design.cells.keys
  · exact fun placed =>
      improve_ordinary rule options options.improvementPasses placed

end Greedy

end FpgaPlacer
