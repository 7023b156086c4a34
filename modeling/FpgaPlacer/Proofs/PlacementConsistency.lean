import FpgaPlacer.Proofs.PlacementSteps
import FpgaPlacer.Proofs.ReachableLayouts

/-!
# Placement keeps a layout consistent

A placer can stop after any number of bindings.  Each of them keeps the device
and, provided that available bels are free, the consistency of the layout; so
does every run, whichever way it ends.
-/

namespace FpgaPlacer

variable {κ : Type}

namespace Layout

/-- The device stays, and a consistent layout stays consistent. -/
structure Keeps (before after : Layout κ) : Prop where
  device : after.fabric.device = before.fabric.device
  consistent : before.fabric.device.AvailableIsFree → before.Consistent →
    after.Consistent

theorem Keeps.refl (layout : Layout κ) : Keeps layout layout :=
  ⟨rfl, fun _ consistent => consistent⟩

theorem Keeps.trans {first second third : Layout κ} (left : Keeps first second)
    (right : Keeps second third) : Keeps first third := by
  constructor
  · rw [right.device, left.device]
  · intro free consistent
    apply right.consistent
    · rw [left.device]
      exact free
    · exact left.consistent free consistent

theorem Keeps.check {before after : Layout κ} (keeps : Keeps before after)
    (free : before.fabric.device.AvailableIsFree) (passes : before.check = .ok ()) :
    after.check = .ok () := by
  apply check_eq_ok_iff.mpr
  exact keeps.consistent free (check_eq_ok_iff.mp passes)

theorem keeps_intern (layout : Layout κ) (text : String) :
    Keeps layout (layout.intern text).2 :=
  ⟨rfl, fun _ consistent => consistent.intern text⟩

theorem keeps_released {layout : Layout κ} {cell : Symbol} {record : Cell}
    (found : layout.design.cells.get? cell = some record) :
    Keeps layout (layout.released cell record) :=
  ⟨rfl, fun _ consistent => consistent.released found⟩

/-- Binding and annotating a cell keeps a layout whose bel is free, also when
the bel turns out to have no name. -/
theorem keeps_bindAndAnnotate {layout : Layout κ} {bel : BelId}
    (vacant : layout.fabric.device.AvailableIsFree →
      layout.fabric.cellAt bel = none) (cell : Symbol) (strength : Strength) :
    Keeps layout ((bindAndAnnotate cell bel strength).after layout) := by
  have run := bindAndAnnotate_run cell bel strength layout
  generalize ended : bindAndAnnotate cell bel strength layout = result at run
  cases run with
  | unknown absent =>
      rw [Edit.after_of_error ended]
      exact .refl layout
  | unnamed found nameless =>
      rw [Edit.after_of_error ended]
      refine ⟨rfl, ?_⟩
      intro free consistent
      have bound := consistent.bound found (.inl (vacant free)) strength
      exact bound.intern locationAttribute
  | assigned found named =>
      rw [Edit.after_of_ok ended]
      refine ⟨rfl, ?_⟩
      intro free consistent
      exact consistent.assigned found (.inl (vacant free)) strength _

end Layout

open Layout

/-! ## Fixed locations -/

namespace Constraints

theorem keeps_placeCell (key cell : Symbol) (layout : Layout κ) :
    Keeps layout ((placeCell key cell).after layout) := by
  have run := placeCell_run key cell layout
  generalize ended : placeCell key cell layout = result at run
  cases run with
  | stopped stop =>
      rw [Edit.after_of_error ended]
      exact .refl layout
  | unlocated found free =>
      rw [Edit.after_of_ok ended]
      exact .refl layout
  | kept found located aimed there =>
      rw [Edit.after_of_ok ended]
      exact .refl layout
  | moved found located aimed vacant =>
      rw [Edit.after_of_ok ended]
      refine ⟨rfl, ?_⟩
      intro _ consistent
      exact consistent.bound found (.inl vacant) .user

theorem keeps_placeCells (key : Symbol) (cells : List Symbol)
    (layout : Layout κ) :
    Keeps layout ((placeCells key cells).after layout) := by
  induction cells generalizing layout with
  | nil => exact .refl layout
  | cons cell rest induction =>
      rw [placeCells]
      apply Edit.after_bind Keeps Keeps.trans
      · exact keeps_placeCell key cell layout
      · intro placed middle _
        apply Edit.after_bind Keeps Keeps.trans
        · exact induction middle
        · intro others reached _
          exact .refl reached

theorem keeps_place (layout : Layout κ) : Keeps layout (place.after layout) := by
  apply Edit.after_bind Keeps Keeps.trans
  · exact keeps_intern layout locationAttribute
  · intro key middle _
    exact keeps_placeCells key middle.design.cells.keys middle

end Constraints

/-! ## First fit -/

namespace FirstFit

theorem keeps_placeCells (rule : LegalityRule κ) (typeName : String)
    (belType : BelType) (cells : List Symbol) (bels : List BelId)
    (layout : Layout κ) :
    Keeps layout
      ((placeCells rule typeName belType cells bels).after layout) := by
  induction cells generalizing bels layout with
  | nil => exact .refl layout
  | cons cell rest induction =>
      rw [placeCells, Edit.after_bind_get]
      split
      · exact .refl layout
      · rename_i bel others next
        apply Edit.after_bind Keeps Keeps.trans
        · apply keeps_bindAndAnnotate
          intro free
          have accepted := nextFit_eq_some next
          simp only [admits, Bool.and_eq_true] at accepted
          exact free layout.fabric.occupancy bel accepted.1.2
        · intro _ middle _
          exact induction others middle

theorem keeps_placeBuckets (rule : LegalityRule κ) (bels : List BelId)
    (buckets : List Bucket) (layout : Layout κ) :
    Keeps layout ((placeBuckets rule bels buckets).after layout) := by
  induction buckets generalizing layout with
  | nil => exact .refl layout
  | cons bucket rest induction =>
      rw [placeBuckets]
      apply Edit.after_bind Keeps Keeps.trans
      · exact keeps_placeCells rule bucket.typeName bucket.belType bucket.cells
          bels layout
      · intro _ middle _
        exact induction middle

theorem keeps_place (rule : LegalityRule κ) (layout : Layout κ) :
    Keeps layout ((place rule).after layout) := by
  apply Edit.after_bind Keeps Keeps.trans
  · exact Constraints.keeps_place layout
  · intro _ middle _
    rw [Edit.after_bind_get]
    split
    · exact .refl middle
    · exact keeps_placeBuckets rule middle.fabric.device.bels _ middle

end FirstFit

/-! ## Greedy placement -/

namespace Greedy

theorem keeps_shuffled (cells : List Symbol) (layout : Layout κ) :
    Keeps layout ((shuffled cells).after layout) := by
  refine ⟨rfl, ?_⟩
  intro _ consistent
  exact consistent.of_same rfl rfl rfl

variable [Scalar κ]

theorem keeps_placeCell (rule : LegalityRule κ) (options : PlaceOptions)
    (cell : Symbol) (layout : Layout κ) :
    Keeps layout ((placeCell rule options cell).after layout) := by
  have run := placeCell_run rule options cell layout
  generalize ended : placeCell rule options cell layout = result at run
  have available : ∀ {record bel}, layout.design.cells.get? cell = some record →
      choose rule options cell record (layout.released cell record) = .ok bel →
      layout.fabric.device.AvailableIsFree → layout.Consistent →
      FreeFor cell (layout.fabric.cellAt bel) := by
    intro record bel found chosen free consistent
    have released : (layout.released cell record).fabric.device.AvailableIsFree :=
      free
    have suits := choose_suits released chosen
    exact (consistent.seated.owns cell).freeFor found suits.vacant
  cases run with
  | unknown absent =>
      rw [Edit.after_of_error ended]
      exact .refl layout
  | refused found failed =>
      rw [Edit.after_of_error ended]
      exact keeps_released found
  | unnamed found chosen nameless =>
      rw [Edit.after_of_error ended]
      refine ⟨rfl, ?_⟩
      intro free consistent
      have vacant := available found chosen free consistent
      have bound := consistent.bound found vacant .weak
      exact bound.intern locationAttribute
  | assigned found chosen named =>
      rw [Edit.after_of_ok ended]
      refine ⟨rfl, ?_⟩
      intro free consistent
      have vacant := available found chosen free consistent
      exact consistent.assigned found vacant .weak _

theorem keeps_placeUnplaced (rule : LegalityRule κ) (options : PlaceOptions)
    (cells : List Symbol) (layout : Layout κ) :
    Keeps layout ((placeUnplaced rule options cells).after layout) := by
  induction cells generalizing layout with
  | nil => exact .refl layout
  | cons cell rest induction =>
      rw [placeUnplaced, Edit.after_bind_get]
      split
      · exact induction layout
      · apply Edit.after_bind Keeps Keeps.trans
        · exact keeps_placeCell rule options cell layout
        · intro _ middle _
          apply Edit.after_bind Keeps Keeps.trans
          · exact induction middle
          · intro _ reached _
            exact .refl reached

theorem keeps_replaceAll (rule : LegalityRule κ) (options : PlaceOptions)
    (cells : List Symbol) (layout : Layout κ) :
    Keeps layout ((replaceAll rule options cells).after layout) := by
  induction cells generalizing layout with
  | nil => exact .refl layout
  | cons cell rest induction =>
      rw [replaceAll]
      apply Edit.after_bind Keeps Keeps.trans
      · exact keeps_placeCell rule options cell layout
      · intro _ middle _
        apply Edit.after_bind Keeps Keeps.trans
        · exact induction middle
        · intro _ reached _
          exact .refl reached

theorem keeps_improve (rule : LegalityRule κ) (options : PlaceOptions)
    (passes : Nat) (cells : List Symbol) (layout : Layout κ) :
    Keeps layout ((improve rule options passes cells).after layout) := by
  induction passes generalizing cells layout with
  | zero => exact .refl layout
  | succ passes induction =>
      rw [improve]
      apply Edit.after_bind Keeps Keeps.trans
      · exact keeps_shuffled cells layout
      · intro order middle _
        apply Edit.after_bind Keeps Keeps.trans
        · exact keeps_replaceAll rule options order middle
        · intro moved reached _
          split
          · exact .refl reached
          · exact induction order reached

theorem keeps_place (rule : LegalityRule κ) (options : PlaceOptions)
    (layout : Layout κ) :
    Keeps layout ((place rule options).after layout) := by
  apply Edit.after_bind Keeps Keeps.trans
  · exact Constraints.keeps_place layout
  · intro _ middle _
    rw [Edit.after_bind_get]
    apply Edit.after_bind Keeps Keeps.trans
    · exact keeps_placeUnplaced rule options middle.design.cells.keys middle
    · intro placed reached _
      exact keeps_improve rule options options.improvementPasses placed reached

end Greedy

namespace Layout

/-- Whichever way a placer ends, the check still passes. -/
theorem check_after_placement [Scalar κ] {layout : Layout κ}
    (free : layout.fabric.device.AvailableIsFree)
    (passes : layout.check = .ok ()) (rule : LegalityRule κ)
    (options : PlaceOptions) (cell : Symbol) :
    (Constraints.place.after layout).check = .ok () ∧
      ((FirstFit.place rule).after layout).check = .ok () ∧
      ((Greedy.place rule options).after layout).check = .ok () ∧
      ((Greedy.placeCell rule options cell).after layout).check = .ok () := by
  refine ⟨?_, ?_, ?_, ?_⟩
  · exact (Constraints.keeps_place layout).check free passes
  · exact (FirstFit.keeps_place rule layout).check free passes
  · exact (Greedy.keeps_place rule options layout).check free passes
  · exact (Greedy.keeps_placeCell rule options cell layout).check free passes

def twoCells (device : Device κ) : Layout κ :=
  ((fresh device).editDesign (Design.createCell "a" "LUT")).editDesign
    (Design.createCell "b" "LUT")

/-- On a device with one bel the second cell finds none once the first has been
bound. -/
theorem check_after_placement_of_crowded :
    (Greedy.place .anyBel .default).outcome (twoCells tinyDevice) =
        .error (.failed (.noLegalBel "b" "LUT")) ∧
      ((Greedy.place .anyBel .default).after
        (twoCells tinyDevice)).fabric.cellAt ⟨0⟩ = some ⟨1⟩ ∧
      ((Greedy.place .anyBel .default).after
        (twoCells tinyDevice)).check = .ok () := by
  have free : tinyDevice.AvailableIsFree := Grid.availableIsFree _
  have passes : (twoCells tinyDevice).check = .ok () := rfl
  obtain ⟨-, -, greedy, -⟩ :=
    check_after_placement free passes .anyBel .default ⟨1⟩
  exact ⟨rfl, rfl, greedy⟩

end Layout

end FpgaPlacer
