import FpgaPlacer.Proofs.FaultlessPlacement

/-!
# Placed cells stay on bels of the device

A placer binds a cell to a bel only when the bel has a type, so a layout whose
placed cells are all on bels that the device knows is left as such a layout,
whichever way the placer ends.  With a complete device this is all that a
placer needs to end without a fault.
-/

namespace FpgaPlacer

variable {κ : Type}

namespace Layout

/-- Every placed cell is on a bel whose type the device knows. -/
def Sited (layout : Layout κ) : Prop :=
  ∀ ⦃cell record bel⦄, layout.design.cells.get? cell = some record →
    record.bel = some bel →
    ∃ belType, layout.fabric.device.belType bel = some belType

/-- The device and the nets stay, and so does being sited. -/
structure KeepsSited (before after : Layout κ) : Prop where
  device : after.fabric.device = before.fabric.device
  nets : after.design.nets = before.design.nets
  sited : before.Sited → after.Sited

theorem KeepsSited.refl (layout : Layout κ) : KeepsSited layout layout :=
  ⟨rfl, rfl, fun sited => sited⟩

theorem KeepsSited.trans {one two three : Layout κ} (first : KeepsSited one two)
    (second : KeepsSited two three) : KeepsSited one three :=
  ⟨second.device.trans first.device, second.nets.trans first.nets,
    fun sited => second.sited (first.sited sited)⟩

theorem Sited.located {layout : Layout κ} (sited : layout.Sited)
    (described : layout.fabric.device.Described) : layout.Located := by
  constructor
  intro cell record bel found placed
  obtain ⟨belType, fits⟩ := sited found placed
  exact described.position fits

section Steps

variable {layout : Layout κ} {cell : Symbol} {record : Cell} {bel : BelId}

theorem keepsSited_intern (layout : Layout κ) (text : String) :
    KeepsSited layout (layout.intern text).2 :=
  ⟨rfl, rfl, fun sited => sited⟩

theorem Sited.replaced {after : Layout κ} {stored : Cell}
    (sited : layout.Sited)
    (cells : ∀ query, after.design.cells.get? query =
      if query = cell then some stored else layout.design.cells.get? query)
    (device : after.fabric.device = layout.fabric.device)
    (known : ∀ bel, stored.bel = some bel →
      ∃ belType, layout.fabric.device.belType bel = some belType) :
    after.Sited := by
  intro query current held found placed
  rw [device]
  rw [cells] at found
  split at found
  · cases found
    exact known held placed
  · exact sited found placed

theorem keepsSited_released (layout : Layout κ) (cell : Symbol) (record : Cell) :
    KeepsSited layout (layout.released cell record) := by
  refine ⟨rfl, rfl, ?_⟩
  intro sited
  refine sited.replaced (fun query => get?_cells_released ..) rfl ?_
  exact nofun

variable {belType : BelType} (fits : layout.fabric.device.belType bel = some belType)

include fits

theorem keepsSited_bound (cell : Symbol) (record : Cell) (strength : Strength) :
    KeepsSited layout (layout.bound cell record bel strength) := by
  refine ⟨rfl, rfl, ?_⟩
  intro sited
  refine sited.replaced (fun query => get?_cells_bound ..) rfl ?_
  rintro _ ⟨⟩
  exact ⟨belType, fits⟩

theorem keepsSited_assigned (cell : Symbol) (record : Cell) (strength : Strength)
    (text : String) :
    KeepsSited layout (layout.assigned cell record bel strength text) := by
  refine ⟨rfl, rfl, ?_⟩
  intro sited
  refine sited.replaced (fun query => get?_cells_assigned ..) rfl ?_
  rintro _ ⟨⟩
  exact ⟨belType, fits⟩

theorem keepsSited_bindAndAnnotate (cell : Symbol) (strength : Strength) :
    KeepsSited layout ((bindAndAnnotate cell bel strength).after layout) := by
  have ways := bindAndAnnotate_run cell bel strength layout
  generalize ended : bindAndAnnotate cell bel strength layout = result at ways
  cases ways with
  | unknown absent =>
      rw [Edit.after_of_error ended]
      exact .refl layout
  | unnamed found nameless =>
      rw [Edit.after_of_error ended]
      exact (keepsSited_bound fits cell _ strength).trans (keepsSited_intern _ _)
  | assigned found named =>
      rw [Edit.after_of_ok ended]
      exact keepsSited_assigned fits cell _ strength _

end Steps

end Layout

open Layout

/-! ## Fixed locations -/

namespace Constraints

theorem keepsSited_placeCell (key cell : Symbol) (layout : Layout κ) :
    KeepsSited layout ((placeCell key cell).after layout) := by
  have ways := placeCell_run key cell layout
  generalize ended : placeCell key cell layout = result at ways
  cases ways with
  | stopped stop =>
      rw [Edit.after_of_error ended]
      exact .refl layout
  | unlocated found free =>
      rw [Edit.after_of_ok ended]
      exact .refl layout
  | kept found located aimed there =>
      rw [Edit.after_of_ok ended]
      exact .refl layout
  | moved found located aimed vacant =>
      rw [Edit.after_of_ok ended]
      obtain ⟨-, belType, -, fits⟩ := target_eq_ok aimed
      exact keepsSited_bound fits cell _ .user

theorem keepsSited_placeCells (key : Symbol) (cells : List Symbol) (layout : Layout κ) :
    KeepsSited layout ((placeCells key cells).after layout) := by
  induction cells generalizing layout with
  | nil => exact .refl layout
  | cons cell rest induction =>
      rw [placeCells]
      apply Edit.after_bind KeepsSited KeepsSited.trans
      · exact keepsSited_placeCell key cell layout
      · intro placed middle _
        apply Edit.after_bind KeepsSited KeepsSited.trans
        · exact induction middle
        · intro others reached _
          exact .refl reached

theorem keepsSited_place (layout : Layout κ) : KeepsSited layout (place.after layout) := by
  apply Edit.after_bind KeepsSited KeepsSited.trans
  · exact keepsSited_intern layout locationAttribute
  · intro key middle _
    exact keepsSited_placeCells key middle.design.cells.keys middle

end Constraints

/-! ## First fit -/

namespace FirstFit

theorem keepsSited_placeCells (rule : LegalityRule κ) (typeName : String)
    (belType : BelType) (cells : List Symbol) (bels : List BelId)
    (layout : Layout κ) :
    KeepsSited layout ((placeCells rule typeName belType cells bels).after layout) := by
  induction cells generalizing bels layout with
  | nil => exact .refl layout
  | cons cell rest induction =>
      rw [placeCells, Edit.after_bind_get]
      split
      · exact .refl layout
      · rename_i bel others next
        have accepted := nextFit_eq_some next
        simp only [admits, Bool.and_eq_true, decide_eq_true_eq] at accepted
        apply Edit.after_bind KeepsSited KeepsSited.trans
        · exact keepsSited_bindAndAnnotate accepted.1.1 cell .weak
        · intro _ middle _
          exact induction others middle

theorem keepsSited_placeBuckets (rule : LegalityRule κ) (bels : List BelId)
    (groups : List Bucket) (layout : Layout κ) :
    KeepsSited layout ((placeBuckets rule bels groups).after layout) := by
  induction groups generalizing layout with
  | nil => exact .refl layout
  | cons bucket rest induction =>
      rw [placeBuckets]
      apply Edit.after_bind KeepsSited KeepsSited.trans
      · exact keepsSited_placeCells rule bucket.typeName bucket.belType bucket.cells bels
          layout
      · intro _ middle _
        exact induction middle

theorem keepsSited_place (rule : LegalityRule κ) (layout : Layout κ) :
    KeepsSited layout ((place rule).after layout) := by
  apply Edit.after_bind KeepsSited KeepsSited.trans
  · exact Constraints.keepsSited_place layout
  · intro _ middle _
    rw [Edit.after_bind_get]
    split
    · exact .refl middle
    · exact keepsSited_placeBuckets rule middle.fabric.device.bels _ middle

end FirstFit

/-! ## Greedy placement -/

namespace Greedy

variable [Scalar κ]

theorem keepsSited_placeCell (rule : LegalityRule κ) (options : PlaceOptions)
    (cell : Symbol) (layout : Layout κ) :
    KeepsSited layout ((placeCell rule options cell).after layout) := by
  have ways := placeCell_run rule options cell layout
  generalize ended : placeCell rule options cell layout = result at ways
  have typed {record : Cell} {bel : BelId}
      (chosen : choose rule options cell record (layout.released cell record) =
        .ok bel) : ∃ belType, layout.fabric.device.belType bel = some belType := by
    obtain ⟨belType, -, candidate⟩ := candidate_of_choose chosen
    exact ⟨belType, (mem_candidates_iff.mp candidate).2.1⟩
  cases ways with
  | unknown absent =>
      rw [Edit.after_of_error ended]
      exact .refl layout
  | refused found failed =>
      rw [Edit.after_of_error ended]
      exact keepsSited_released layout cell _
  | unnamed found chosen nameless =>
      rw [Edit.after_of_error ended]
      obtain ⟨belType, fits⟩ := typed chosen
      exact (keepsSited_bound fits cell _ .weak).trans (keepsSited_intern _ _)
  | assigned found chosen named =>
      rw [Edit.after_of_ok ended]
      obtain ⟨belType, fits⟩ := typed chosen
      exact keepsSited_assigned fits cell _ .weak _

theorem keepsSited_placeUnplaced (rule : LegalityRule κ) (options : PlaceOptions)
    (cells : List Symbol) (layout : Layout κ) :
    KeepsSited layout ((placeUnplaced rule options cells).after layout) := by
  induction cells generalizing layout with
  | nil => exact .refl layout
  | cons cell rest induction =>
      rw [placeUnplaced, Edit.after_bind_get]
      split
      · exact induction layout
      · apply Edit.after_bind KeepsSited KeepsSited.trans
        · exact keepsSited_placeCell rule options cell layout
        · intro moved middle _
          apply Edit.after_bind KeepsSited KeepsSited.trans
          · exact induction middle
          · intro others reached _
            exact .refl reached

theorem keepsSited_replaceAll (rule : LegalityRule κ) (options : PlaceOptions)
    (cells : List Symbol) (layout : Layout κ) :
    KeepsSited layout ((replaceAll rule options cells).after layout) := by
  induction cells generalizing layout with
  | nil => exact .refl layout
  | cons cell rest induction =>
      rw [replaceAll]
      apply Edit.after_bind KeepsSited KeepsSited.trans
      · exact keepsSited_placeCell rule options cell layout
      · intro moved middle _
        apply Edit.after_bind KeepsSited KeepsSited.trans
        · exact induction middle
        · intro others reached _
          exact .refl reached

theorem keepsSited_improve (rule : LegalityRule κ) (options : PlaceOptions)
    (passes : Nat) (cells : List Symbol) (layout : Layout κ) :
    KeepsSited layout ((improve rule options passes cells).after layout) := by
  induction passes generalizing cells layout with
  | zero => exact .refl layout
  | succ passes induction =>
      rw [improve]
      apply Edit.after_bind KeepsSited KeepsSited.trans
      · exact ⟨rfl, rfl, fun sited => sited⟩
      · intro order shuffled _
        apply Edit.after_bind KeepsSited KeepsSited.trans
        · exact keepsSited_replaceAll rule options order shuffled
        · intro moved reached _
          split
          · exact .refl reached
          · exact induction order reached

theorem keepsSited_place (rule : LegalityRule κ) (options : PlaceOptions)
    (layout : Layout κ) : KeepsSited layout ((place rule options).after layout) := by
  apply Edit.after_bind KeepsSited KeepsSited.trans
  · exact Constraints.keepsSited_place layout
  · intro _ middle _
    rw [Edit.after_bind_get]
    apply Edit.after_bind KeepsSited KeepsSited.trans
    · exact keepsSited_placeUnplaced rule options _ middle
    · intro placed reached _
      exact keepsSited_improve rule options _ placed reached

end Greedy

/-! ## No faults -/

theorem Edit.EndsWell.faultless {ε σ α : Type} {good : σ → Prop}
    {edit : Edit ε σ α} {state : σ} (ended : EndsWell good (edit state))
    (fault : Fault) : edit.outcome state ≠ .error (.fault fault) := by
  intro faulty
  rw [Edit.outcome] at faulty
  generalize edit state = result at ended faulty
  cases ended with
  | answer kept => cases faulty
  | error error reached => cases faulty

section Faultless

variable {layout : Layout κ} (complete : layout.fabric.device.Complete)
  (sited : layout.Sited)

include complete

theorem Constraints.faultless_place (fault : Fault) :
    Constraints.place.outcome layout ≠ .error (.fault fault) :=
  (Constraints.endsWell_place complete).faultless fault

include sited

/-- The constraint pass leaves the placed cells where the device knows them. -/
theorem Layout.Sited.located_of_pass {placed : List Symbol} {middle : Layout κ}
    (pass : Constraints.place layout = .ok placed middle) : middle.Located := by
  have keeps := Constraints.keepsSited_place layout
  rw [Edit.after_of_ok pass] at keeps
  apply (keeps.sited sited).located
  rw [keeps.device]
  exact complete.toDescribed

theorem FirstFit.faultless_place (rule : LegalityRule κ) (fault : Fault) :
    (FirstFit.place rule).outcome layout ≠ .error (.fault fault) := by
  apply (FirstFit.endsWell_place complete rule ?_).faultless
  exact fun pass => sited.located_of_pass complete pass

variable [Scalar κ]

theorem Greedy.faultless_placeCell (rule : LegalityRule κ) (options : PlaceOptions)
    (cell : Symbol) (fault : Fault) :
    (Greedy.placeCell rule options cell).outcome layout ≠ .error (.fault fault) := by
  have on : layout.LocatedOn layout.fabric.device :=
    ⟨rfl, sited.located complete.toDescribed⟩
  exact (Greedy.endsWell_placeCell complete rule options cell on).faultless fault

theorem Greedy.faultless_place (rule : LegalityRule κ) (options : PlaceOptions)
    (fault : Fault) :
    (Greedy.place rule options).outcome layout ≠ .error (.fault fault) := by
  apply (Greedy.endsWell_place complete rule options ?_).faultless
  exact fun pass => sited.located_of_pass complete pass

end Faultless

end FpgaPlacer
