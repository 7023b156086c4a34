import FpgaPlacer.Placement.FirstFit
import FpgaPlacer.Placement.Greedy
import FpgaPlacer.Proofs.EditRuns

/-!
# Runs that note their bindings

A placer answers with the layout that it ends in.  To speak of the layouts in
between, the placers run here over a layout with notes: after each binding that
follows the constraint pass, the layout reached is noted.  Without the notes,
these runs are the runs of the placers.
-/

namespace FpgaPlacer

variable {κ α β : Type}

/-- A layout, and the layouts noted so far, the latest first. -/
structure Recording (κ : Type) where
  layout : Layout κ
  notes : List (Layout κ)

abbrev RecordingEdit (κ α : Type) := Edit DesignError (Recording κ) α

namespace Recording

def quietly (edit : LayoutEdit κ α) : RecordingEdit κ α := fun recording =>
  match edit recording.layout with
  | .ok value layout => .ok value { recording with layout }
  | .error stop layout => .error stop { recording with layout }

def noting (edit : LayoutEdit κ α) : RecordingEdit κ α := fun recording =>
  match edit recording.layout with
  | .ok value layout => .ok value ⟨layout, layout :: recording.notes⟩
  | .error stop layout => .error stop { recording with layout }

/-- The ending of a run over a layout alone. -/
def withoutNotes : EStateM.Result (Stop DesignError) (Recording κ) α →
    EStateM.Result (Stop DesignError) (Layout κ) α
  | .ok value reached => .ok value reached.layout
  | .error stop reached => .error stop reached.layout

/-- Without the notes, the runs of the first edit are those of the second. -/
def Mirrors (recorded : RecordingEdit κ α) (edit : LayoutEdit κ α) : Prop :=
  ∀ recording, withoutNotes (recorded recording) = edit recording.layout

theorem Mirrors.layout_after {recorded : RecordingEdit κ α}
    {edit : LayoutEdit κ α} (mirrors : Mirrors recorded edit)
    (recording : Recording κ) :
    (recorded.after recording).layout = edit.after recording.layout := by
  have ended := mirrors recording
  cases run : recorded recording with
  | ok value reached =>
      rw [run] at ended
      rw [Edit.after_of_ok run, Edit.after_of_ok ended.symm]
  | error stop reached =>
      rw [run] at ended
      rw [Edit.after_of_error run, Edit.after_of_error ended.symm]

theorem mirrors_quietly (edit : LayoutEdit κ α) : Mirrors (quietly edit) edit := by
  intro recording
  unfold quietly
  cases edit recording.layout with
  | ok value layout => rfl
  | error stop layout => rfl

theorem mirrors_noting (edit : LayoutEdit κ α) : Mirrors (noting edit) edit := by
  intro recording
  unfold noting
  cases edit recording.layout with
  | ok value layout => rfl
  | error stop layout => rfl

theorem mirrors_pure (value : α) :
    Mirrors (pure value : RecordingEdit κ α) (pure value) := fun _ => rfl

theorem Mirrors.bind {recorded : RecordingEdit κ α} {edit : LayoutEdit κ α}
    {more : α → RecordingEdit κ β} {next : α → LayoutEdit κ β}
    (first : Mirrors recorded edit)
    (rest : ∀ value, Mirrors (more value) (next value)) :
    Mirrors (recorded >>= more) (edit >>= next) := by
  intro recording
  have begun := first recording
  cases run : recorded recording with
  | ok value reached =>
      rw [run] at begun
      rw [Edit.bind_of_ok run, Edit.bind_of_ok begun.symm]
      exact rest value reached
  | error stop reached =>
      rw [run] at begun
      rw [Edit.bind_of_error run, Edit.bind_of_error begun.symm]
      rfl

end Recording

open Recording

/-! ## One binding -/

/-- Records the name of a bel as the location of a cell. -/
def Layout.annotate (cell : Symbol) (bel : BelId) : LayoutEdit κ Unit := do
  let key ← modifyGet (·.intern locationAttribute)
  let belName ← Edit.reading (fun layout => (layout.fabric.belName bel).stop)
  modify (fun layout =>
    match layout.design.cells.get? cell with
    | none => layout
    | some record =>
        let attrs := record.attrs.insert key belName
        { layout with design := layout.design.setCell cell { record with attrs } })

/-- Binds a cell, notes the layout, and annotates the cell. -/
def Layout.recordedBinding (cell : Symbol) (bel : BelId) (strength : Strength) :
    RecordingEdit κ Unit := do
  noting (Layout.bindBel cell bel strength)
  quietly (Layout.annotate cell bel)

theorem Layout.mirrors_recordedBinding (cell : Symbol) (bel : BelId)
    (strength : Strength) :
    Mirrors (recordedBinding cell bel strength : RecordingEdit κ Unit)
      (bindAndAnnotate cell bel strength) :=
  (mirrors_noting _).bind fun _ => mirrors_quietly (annotate cell bel)

/-! ## First fit -/

namespace FirstFit

def recordedCells (rule : LegalityRule κ) (typeName : String)
    (belType : BelType) : List Symbol → List BelId → RecordingEdit κ Unit
  | [], _ => return
  | cell :: rest, bels => do
      let layout ← quietly get
      match nextFit (admits rule layout belType cell) bels with
      | none => quietly (Edit.fail (.tooManyCells typeName))
      | some (bel, bels) =>
          Layout.recordedBinding cell bel .weak
          recordedCells rule typeName belType rest bels

def recordedBuckets (rule : LegalityRule κ) (bels : List BelId) :
    List Bucket → RecordingEdit κ Unit
  | [] => return
  | bucket :: rest => do
      recordedCells rule bucket.typeName bucket.belType bucket.cells bels
      recordedBuckets rule bels rest

/-- First fit, with the layout noted after each of its bindings. -/
def recorded (rule : LegalityRule κ) : RecordingEdit κ Unit := do
  let _ ← quietly Constraints.place
  let layout ← quietly get
  match buckets layout with
  | .error error => quietly (Edit.fail error)
  | .ok buckets => recordedBuckets rule layout.fabric.device.bels buckets

theorem mirrors_recordedCells (rule : LegalityRule κ) (typeName : String)
    (belType : BelType) (cells : List Symbol) (bels : List BelId) :
    Mirrors (recordedCells rule typeName belType cells bels)
      (placeCells rule typeName belType cells bels) := by
  induction cells generalizing bels with
  | nil => exact mirrors_pure ()
  | cons cell rest induction =>
      apply (mirrors_quietly get).bind
      intro layout
      cases nextFit (admits rule layout belType cell) bels with
      | none => exact mirrors_quietly _
      | some choice =>
          apply (Layout.mirrors_recordedBinding cell choice.1 .weak).bind
          exact fun _ => induction choice.2

theorem mirrors_recordedBuckets (rule : LegalityRule κ) (bels : List BelId)
    (groups : List Bucket) :
    Mirrors (recordedBuckets rule bels groups)
      (placeBuckets rule bels groups) := by
  induction groups with
  | nil => exact mirrors_pure ()
  | cons bucket rest induction =>
      have first := mirrors_recordedCells rule bucket.typeName bucket.belType
        bucket.cells bels
      exact first.bind fun _ => induction

theorem mirrors_recorded (rule : LegalityRule κ) :
    Mirrors (recorded rule) (place rule) := by
  apply (mirrors_quietly Constraints.place).bind
  intro located
  apply (mirrors_quietly get).bind
  intro layout
  cases buckets layout with
  | error error => exact mirrors_quietly _
  | ok groups => exact mirrors_recordedBuckets rule _ groups

end FirstFit

/-! ## Greedy placement -/

namespace Greedy

variable [Scalar κ]

def recordedCell (rule : LegalityRule κ) (options : PlaceOptions)
    (cell : Symbol) : RecordingEdit κ Bool := do
  let before ← quietly get
  match before.design.cells.get? cell with
  | none => quietly (Edit.fail (.unknownCell (before.design.display cell)))
  | some record =>
      quietly (Layout.unbindBel cell)
      let bel ← quietly (Edit.reading (choose rule options cell record))
      Layout.recordedBinding cell bel .weak
      return decide (record.bel ≠ some bel)

def recordedUnplaced (rule : LegalityRule κ) (options : PlaceOptions) :
    List Symbol → RecordingEdit κ (List Symbol)
  | [] => return []
  | cell :: rest => do
      let layout ← quietly get
      if (layout.design.belOf (some cell)).isSome then
        recordedUnplaced rule options rest
      else do
        let _ ← recordedCell rule options cell
        let others ← recordedUnplaced rule options rest
        return cell :: others

def recordedAgain (rule : LegalityRule κ) (options : PlaceOptions) :
    List Symbol → RecordingEdit κ Nat
  | [] => return 0
  | cell :: rest => do
      let moved ← recordedCell rule options cell
      let others ← recordedAgain rule options rest
      return (if moved then 1 else 0) + others

def recordedPasses (rule : LegalityRule κ) (options : PlaceOptions) :
    Nat → List Symbol → RecordingEdit κ Unit
  | 0, _ => return
  | passes + 1, cells => do
      let cells ← quietly (shuffled cells)
      let moved ← recordedAgain rule options cells
      if options.stopWhenStable && moved == 0 then
        return
      recordedPasses rule options passes cells

/-- The greedy placer, with the layout noted after each of its bindings. -/
def recorded (rule : LegalityRule κ) (options : PlaceOptions) :
    RecordingEdit κ Unit := do
  let _ ← quietly Constraints.place
  let layout ← quietly get
  let placed ← recordedUnplaced rule options layout.design.cells.keys
  recordedPasses rule options options.improvementPasses placed

theorem mirrors_recordedCell (rule : LegalityRule κ) (options : PlaceOptions)
    (cell : Symbol) :
    Mirrors (recordedCell rule options cell) (placeCell rule options cell) := by
  apply (mirrors_quietly get).bind
  intro before
  cases before.design.cells.get? cell with
  | none => exact mirrors_quietly _
  | some record =>
      apply (mirrors_quietly (Layout.unbindBel cell)).bind
      intro _
      apply (mirrors_quietly (Edit.reading (choose rule options cell record))).bind
      intro bel
      apply (Layout.mirrors_recordedBinding cell bel .weak).bind
      exact fun _ => mirrors_pure _

theorem mirrors_recordedUnplaced (rule : LegalityRule κ) (options : PlaceOptions)
    (cells : List Symbol) :
    Mirrors (recordedUnplaced rule options cells)
      (placeUnplaced rule options cells) := by
  induction cells with
  | nil => exact mirrors_pure []
  | cons cell rest induction =>
      apply (mirrors_quietly get).bind
      intro layout
      split
      · exact induction
      · apply (mirrors_recordedCell rule options cell).bind
        intro _
        exact induction.bind fun others => mirrors_pure _

theorem mirrors_recordedAgain (rule : LegalityRule κ) (options : PlaceOptions)
    (cells : List Symbol) :
    Mirrors (recordedAgain rule options cells)
      (replaceAll rule options cells) := by
  induction cells with
  | nil => exact mirrors_pure 0
  | cons cell rest induction =>
      apply (mirrors_recordedCell rule options cell).bind
      intro moved
      exact induction.bind fun others => mirrors_pure _

theorem mirrors_recordedPasses (rule : LegalityRule κ) (options : PlaceOptions)
    (passes : Nat) (cells : List Symbol) :
    Mirrors (recordedPasses rule options passes cells)
      (improve rule options passes cells) := by
  induction passes generalizing cells with
  | zero => exact mirrors_pure ()
  | succ passes induction =>
      apply (mirrors_quietly (shuffled cells)).bind
      intro order
      apply (mirrors_recordedAgain rule options order).bind
      intro moved
      split
      · exact mirrors_pure ()
      · exact induction order

theorem mirrors_recorded (rule : LegalityRule κ) (options : PlaceOptions) :
    Mirrors (recorded rule options) (place rule options) := by
  apply (mirrors_quietly Constraints.place).bind
  intro located
  apply (mirrors_quietly get).bind
  intro layout
  apply (mirrors_recordedUnplaced rule options _).bind
  exact mirrors_recordedPasses rule options options.improvementPasses

end Greedy

end FpgaPlacer
