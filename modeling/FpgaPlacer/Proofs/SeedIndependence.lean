import FpgaPlacer.Proofs.EarlyStopping

/-!
# What happens before random numbers are drawn

The constraint pass and the first placement of each cell do not use the random
generator of the design.  From two layouts that differ in its state only, they
end in the same way, in layouts that differ in the same way.
-/

namespace FpgaPlacer

variable {κ α β : Type}

namespace Layout

def endingWithRandom (random : Generator) :
    EStateM.Result (Stop DesignError) (Layout κ) α →
      EStateM.Result (Stop DesignError) (Layout κ) α
  | .ok value reached => .ok value (reached.withRandom random)
  | .error stop reached => .error stop (reached.withRandom random)

/-- The edit neither looks at the random generator nor changes it. -/
def SeedFree (edit : LayoutEdit κ α) : Prop :=
  ∀ layout random,
    edit (layout.withRandom random) = endingWithRandom random (edit layout)

theorem seedFree_pure (value : α) :
    SeedFree (pure value : LayoutEdit κ α) := fun _ _ => rfl

theorem seedFree_fail (error : DesignError) :
    SeedFree (Edit.fail error : LayoutEdit κ α) := fun _ _ => rfl

theorem SeedFree.bind {first : LayoutEdit κ α} {next : α → LayoutEdit κ β}
    (free : SeedFree first) (rest : ∀ value, SeedFree (next value)) :
    SeedFree (first >>= next) := by
  intro layout random
  have other := free layout random
  cases run : first layout with
  | ok value middle =>
      rw [run] at other
      rw [Edit.bind_of_ok run, Edit.bind_of_ok other]
      exact rest value middle random
  | error stop middle =>
      rw [run] at other
      rw [Edit.bind_of_error run, Edit.bind_of_error other]
      rfl

/-- What follows a look at the layout must not depend on the generator in it. -/
theorem seedFree_get {next : Layout κ → LayoutEdit κ α}
    (blind : ∀ layout random, next (layout.withRandom random) = next layout)
    (rest : ∀ layout, SeedFree (next layout)) : SeedFree (get >>= next) := by
  intro layout random
  rw [Edit.bind_get, Edit.bind_get, blind]
  exact rest layout layout random

theorem seedFree_reading {step : Layout κ → Except (Stop DesignError) α}
    (blind : ∀ layout random, step (layout.withRandom random) = step layout) :
    SeedFree (Edit.reading step) := by
  intro layout random
  cases read : step layout with
  | ok value =>
      have other := (blind layout random).trans read
      rw [Edit.reading_of_ok read, Edit.reading_of_ok other]
      rfl
  | error stop =>
      have other := (blind layout random).trans read
      rw [Edit.reading_of_error read, Edit.reading_of_error other]
      rfl

theorem seedFree_unbindBel (cell : Symbol) :
    SeedFree (unbindBel cell : LayoutEdit κ Unit) := by
  intro layout random
  have same : (layout.withRandom random).design.cells.get? cell =
      layout.design.cells.get? cell := rfl
  cases found : layout.design.cells.get? cell with
  | none =>
      rw [unbindBel_of_absent found, unbindBel_of_absent (same.trans found)]
      rfl
  | some record =>
      rw [unbindBel_of_found found, unbindBel_of_found (same.trans found)]
      rfl

theorem seedFree_bindBel (cell : Symbol) (bel : BelId) (strength : Strength) :
    SeedFree (bindBel cell bel strength : LayoutEdit κ Unit) := by
  intro layout random
  have same : (layout.withRandom random).design.cells.get? cell =
      layout.design.cells.get? cell := rfl
  cases found : layout.design.cells.get? cell with
  | none =>
      rw [bindBel_of_absent found, bindBel_of_absent (same.trans found)]
      rfl
  | some record =>
      rw [bindBel_of_found found, bindBel_of_found (same.trans found)]
      rfl

theorem seedFree_modifyGet {change : Layout κ → α × Layout κ}
    (blind : ∀ layout random, change (layout.withRandom random) =
      ((change layout).1, (change layout).2.withRandom random)) :
    SeedFree (modifyGet change : LayoutEdit κ α) := by
  intro layout random
  change EStateM.Result.ok (change _).1 (change _).2 = _
  rw [blind]
  rfl

theorem seedFree_bindAndAnnotate (cell : Symbol) (bel : BelId)
    (strength : Strength) :
    SeedFree (bindAndAnnotate cell bel strength : LayoutEdit κ Unit) := by
  apply (seedFree_bindBel cell bel strength).bind
  intro _
  apply SeedFree.bind (seedFree_modifyGet fun _ _ => rfl)
  intro key
  apply SeedFree.bind (seedFree_reading fun _ _ => rfl)
  intro text
  apply seedFree_modifyGet
  intro layout random
  have same : (layout.withRandom random).design.cells.get? cell =
      layout.design.cells.get? cell := rfl
  cases found : layout.design.cells.get? cell with
  | none => simp only [same, found]
  | some record => simp only [same, found]; rfl

end Layout

open Layout

namespace Constraints

theorem seedFree_placeCell (key cell : Symbol) :
    SeedFree (placeCell key cell : LayoutEdit κ Bool) := by
  apply seedFree_get (fun _ _ => rfl)
  intro layout
  cases layout.design.cells.get? cell with
  | none => exact seedFree_fail _
  | some record =>
      dsimp only
      cases record.attrs.get? key with
      | none => exact seedFree_pure false
      | some location =>
          apply SeedFree.bind (seedFree_reading fun _ _ => rfl)
          intro bel
          split
          · exact seedFree_pure true
          · split
            · exact seedFree_fail _
            · apply (seedFree_unbindBel cell).bind
              intro _
              apply (seedFree_bindBel cell bel .user).bind
              exact fun _ => seedFree_pure true

theorem seedFree_placeCells (key : Symbol) (cells : List Symbol) :
    SeedFree (placeCells key cells : LayoutEdit κ (List Symbol)) := by
  induction cells with
  | nil => exact seedFree_pure []
  | cons cell rest induction =>
      apply (seedFree_placeCell key cell).bind
      intro here
      apply induction.bind
      exact fun others => seedFree_pure _

theorem seedFree_place : SeedFree (place : LayoutEdit κ (List Symbol)) := by
  intro layout random
  exact seedFree_placeCells layout.design.locationKey layout.design.cells.keys
    (layout.intern locationAttribute).2 random

end Constraints

namespace Greedy

variable [Scalar κ] {rule : LegalityRule κ}

theorem seedFree_placeCell (ignores : rule.IgnoresRandom) (options : PlaceOptions)
    (cell : Symbol) : SeedFree (placeCell rule options cell) := by
  apply seedFree_get (fun _ _ => rfl)
  intro layout
  cases layout.design.cells.get? cell with
  | none => exact seedFree_fail _
  | some record =>
      apply (seedFree_unbindBel cell).bind
      intro _
      apply SeedFree.bind
      · apply seedFree_reading
        exact choose_withRandom ignores options cell record
      · intro bel
        apply (seedFree_bindAndAnnotate cell bel .weak).bind
        exact fun _ => seedFree_pure _

theorem seedFree_placeUnplaced (ignores : rule.IgnoresRandom)
    (options : PlaceOptions) (cells : List Symbol) :
    SeedFree (placeUnplaced rule options cells) := by
  induction cells with
  | nil => exact seedFree_pure []
  | cons cell rest induction =>
      apply seedFree_get (fun _ _ => rfl)
      intro layout
      split
      · exact induction
      · apply (seedFree_placeCell ignores options cell).bind
        intro _
        apply induction.bind
        exact fun others => seedFree_pure _

/-- All that the greedy placer does before its improvement passes; the answer
lists the cells that they go over. -/
def start (rule : LegalityRule κ) (options : PlaceOptions) :
    LayoutEdit κ (List Symbol) := do
  let _ ← Constraints.place
  let layout ← get
  placeUnplaced rule options layout.design.cells.keys

theorem place_eq_start (rule : LegalityRule κ) (options : PlaceOptions) :
    place rule options =
      start rule options >>= improve rule options options.improvementPasses := by
  simp only [place, start, bind_assoc]

theorem seedFree_start (ignores : rule.IgnoresRandom) (options : PlaceOptions) :
    SeedFree (start rule options) := by
  apply Constraints.seedFree_place.bind
  intro _
  apply seedFree_get (fun _ _ => rfl)
  exact fun layout => seedFree_placeUnplaced ignores options _

end Greedy

end FpgaPlacer
