import FpgaPlacer.Proofs.PlacementConsistency
import FpgaPlacer.Proofs.RecordedSteps

/-!
# What a rule enforces is maintained

A placer asks its rule about a bel in the very layout in which it then binds the
cell.  So a property of the bound bels that no release breaks, and no binding
that the rule accepts, holds after each binding of a run and at its end, even
when the run fails.
-/

namespace FpgaPlacer

variable {κ : Type}

/-- The property of the bound bels stays when a bel is released, and when a cell
is bound to an available bel that the rule accepts for it. -/
structure LegalityRule.Maintains (rule : LegalityRule κ) (device : Device κ)
    (inv : Table .bel Binding → Prop) : Prop where
  released : ∀ {bels} bel, inv bels → inv (bels.erase bel)
  bound : ∀ {layout : Layout κ} {cell record bel},
    layout.fabric.device = device → inv layout.fabric.occupancy.bels →
    layout.design.cells.get? cell = some record →
    layout.fabric.available bel = true → rule layout cell bel = true →
    inv (layout.bound cell record bel .weak).fabric.occupancy.bels

namespace Recording

/-- The property holds now and held whenever a layout was noted. -/
structure Upheld (device : Device κ) (inv : Table .bel Binding → Prop)
    (recording : Recording κ) : Prop where
  device : recording.layout.fabric.device = device
  now : inv recording.layout.fabric.occupancy.bels
  noted : ∀ layout ∈ recording.notes, inv layout.fabric.occupancy.bels

/-- From the one recording to the other the property is upheld. -/
def Upholds (device : Device κ) (inv : Table .bel Binding → Prop)
    (before after : Recording κ) : Prop :=
  before.Upheld device inv → after.Upheld device inv

/-- The layout is on the device and has the property. -/
def Satisfies (device : Device κ) (inv : Table .bel Binding → Prop)
    (layout : Layout κ) : Prop :=
  layout.fabric.device = device ∧ inv layout.fabric.occupancy.bels

section Steps

variable {device : Device κ} {inv : Table .bel Binding → Prop}

theorem Throughout.upholds {before after : Recording κ}
    (through : Throughout
      (fun one two => Satisfies device inv one → Satisfies device inv two)
      before after) : Upholds device inv before after := by
  intro upheld
  have start : Satisfies device inv before.layout := ⟨upheld.device, upheld.now⟩
  obtain ⟨same, now⟩ := through.last start
  refine ⟨same, now, ?_⟩
  intro layout noted
  obtain earlier | later := through.noted layout noted
  · exact upheld.noted layout earlier
  · exact (later start).2

/-- A placer asks its rule in the layout in which it binds the cell. -/
theorem respects_satisfies {rule : LegalityRule κ}
    (maintains : rule.Maintains device inv) :
    Layout.Respects
      (fun one two => Satisfies device inv one → Satisfies device inv two)
      rule (fun _ => True) := by
  constructor
  · exact fun _ satisfied => satisfied
  · exact fun first second satisfied => second (first satisfied)
  · exact fun _ _ satisfied => satisfied
  · exact fun _ satisfied => satisfied
  · intro layout cell record _ found satisfied
    refine ⟨satisfied.1, ?_⟩
    change inv (Layout.releaseBel layout.fabric.occupancy record).bels
    cases placed : record.bel with
    | none =>
        rw [Layout.releaseBel, placed]
        exact satisfied.2
    | some bel =>
        rw [Layout.releaseBel, placed]
        exact maintains.released bel satisfied.2
  · intro layout cell record bel _ found available accepted satisfied
    refine ⟨satisfied.1, ?_⟩
    exact maintains.bound satisfied.1 satisfied.2 found available accepted
  · exact fun _ _ satisfied => satisfied

end Steps

end Recording

open Recording

/-! ## Whole runs -/

section Runs

variable {layout : Layout κ} {inv : Table .bel Binding → Prop}

/-- The constraint pass notes nothing and keeps the device. -/
theorem Recording.upheld_of_constraints
    (start : inv (Constraints.place.after layout).fabric.occupancy.bels) :
    (⟨Constraints.place.after layout, []⟩ : Recording κ).Upheld
      layout.fabric.device inv :=
  ⟨(Constraints.keeps_place layout).device, start, nofun⟩

theorem FirstFit.upheld_recorded {rule : LegalityRule κ}
    (maintains : rule.Maintains layout.fabric.device inv)
    (start : inv (Constraints.place.after layout).fabric.occupancy.bels) :
    ((recorded rule).after ⟨layout, []⟩).Upheld layout.fabric.device inv := by
  have begun := upheld_of_constraints start
  cases pass : Constraints.place layout with
  | ok located middle =>
      rw [Edit.after_of_ok pass] at begun
      have through := (respects_satisfies maintains).throughout_firstFit pass
        (fun _ _ => trivial)
      exact through.upholds begun
  | error stop middle =>
      rw [Edit.after_of_error pass] at begun
      rw [after_recorded_of_stopped rule pass]
      exact begun

theorem Greedy.upheld_recorded [Scalar κ] {rule : LegalityRule κ}
    (maintains : rule.Maintains layout.fabric.device inv)
    (start : inv (Constraints.place.after layout).fabric.occupancy.bels)
    (options : PlaceOptions) :
    ((recorded rule options).after ⟨layout, []⟩).Upheld layout.fabric.device
      inv := by
  have begun := upheld_of_constraints start
  cases pass : Constraints.place layout with
  | ok located middle =>
      rw [Edit.after_of_ok pass] at begun
      have through := (respects_satisfies maintains).throughout_greedy options pass
        (fun _ _ => trivial)
      exact through.upholds begun
  | error stop middle =>
      rw [Edit.after_of_error pass] at begun
      rw [after_recorded_of_stopped rule options pass]
      exact begun

/-- The recorded runs are the runs of the edit with notes, and the property holds
in each layout that they note and in the one that the edit ends in. -/
structure Recording.UpheldThrough (inv : Table .bel Binding → Prop)
    (recorded : RecordingEdit κ Unit) (edit : LayoutEdit κ Unit)
    (layout : Layout κ) : Prop where
  mirrors : Mirrors recorded edit
  noted : ∀ reached ∈ (recorded.after ⟨layout, []⟩).notes,
    inv reached.fabric.occupancy.bels
  final : inv (edit.after layout).fabric.occupancy.bels

theorem Recording.Mirrors.upheldThrough {recorded : RecordingEdit κ Unit}
    {edit : LayoutEdit κ Unit} (mirrors : Mirrors recorded edit)
    {device : Device κ} (upheld : (recorded.after ⟨layout, []⟩).Upheld device inv) :
    UpheldThrough inv recorded edit layout := by
  refine ⟨mirrors, upheld.noted, ?_⟩
  rw [← mirrors.layout_after ⟨layout, []⟩]
  exact upheld.now

end Runs

/-- A property that the rule maintains, and that holds after the constraint pass,
holds after each binding that a placer makes from there on, in its improvement
passes too, and in the layout that it ends in, in success or in failure. -/
theorem LegalityRule.Maintains.upheldThrough_placement [Scalar κ] {rule : LegalityRule κ}
    {layout : Layout κ} {inv : Table .bel Binding → Prop}
    (maintains : rule.Maintains layout.fabric.device inv)
    (start : inv (Constraints.place.after layout).fabric.occupancy.bels)
    (options : PlaceOptions) :
    UpheldThrough inv (FirstFit.recorded rule) (FirstFit.place rule) layout ∧
      UpheldThrough inv (Greedy.recorded rule options)
        (Greedy.place rule options) layout := by
  have firstFit := FirstFit.upheld_recorded maintains start
  have greedy := Greedy.upheld_recorded maintains start options
  exact ⟨(FirstFit.mirrors_recorded rule).upheldThrough firstFit,
    (Greedy.mirrors_recorded rule options).upheldThrough greedy⟩

/-! ## Limits on columns -/

namespace SiteRules

variable [BEq κ]

/-- No column has more bound bels than the limit. -/
def WithinLimit (device : Device κ) (limit : Nat) (bels : Table .bel Binding) :
    Prop :=
  ∀ bel, boundInColumn ⟨device, ⟨bels, .empty, .empty⟩⟩ bel ≤ limit

theorem withinLimit_empty (device : Device κ) (limit : Nat) :
    WithinLimit device limit .empty := by
  intro bel
  simp [boundInColumn, Fabric.cellAt, Occupancy.cellAt]

theorem countP_le_add_count {α : Type} [DecidableEq α] {looser stricter : α → Bool}
    {extra : α}
    (accepts : ∀ item, looser item = true → stricter item = true ∨ item = extra)
    (items : List α) :
    items.countP looser ≤ items.countP stricter + items.count extra := by
  induction items with
  | nil => simp
  | cons item rest induction =>
      rw [List.countP_cons, List.countP_cons, List.count_cons]
      cases loose : looser item with
      | false =>
          simp only [Bool.false_eq_true, if_false]
          omega
      | true =>
          rcases accepts item loose with strict | same
          · simp only [strict, if_true]
            omega
          · simp only [same, beq_self_eq_true, if_true]
            omega

section Bound

variable {layout : Layout κ} {cell : Symbol} {record : Cell} {bel query : BelId}

omit [BEq κ] in
theorem isSome_cellAt_bound {site : BelId}
    (held : ((layout.bound cell record bel .weak).fabric.cellAt site).isSome =
      true) : (layout.fabric.cellAt site).isSome = true ∨ site = bel := by
  rw [Layout.cellAt_bound] at held
  split at held
  · rename_i same
    exact .inr same
  · split at held
    · cases held
    · exact .inl held

/-- The column of the new bel gains one bound bel at most. -/
theorem boundInColumn_bound (distinct : layout.fabric.device.bels.Nodup) :
    boundInColumn (layout.bound cell record bel .weak).fabric query ≤
      boundInColumn layout.fabric query + 1 := by
  have once : layout.fabric.device.bels.count bel ≤ 1 :=
    List.nodup_iff_count.mp distinct bel
  apply Nat.le_trans _ (Nat.add_le_add_left once _)
  apply countP_le_add_count
  intro site counted
  rw [Bool.and_eq_true] at counted ⊢
  exact (isSome_cellAt_bound counted.2).imp_left (fun held => ⟨counted.1, held⟩)

theorem boundInColumn_bound_other [LawfulBEq κ]
    (apart : (layout.fabric.device.position bel).map Prod.fst ≠
      (layout.fabric.device.position query).map Prod.fst) :
    boundInColumn (layout.bound cell record bel .weak).fabric query ≤
      boundInColumn layout.fabric query := by
  apply List.countP_mono_left
  intro site _ counted
  rw [Bool.and_eq_true] at counted ⊢
  refine ⟨counted.1, ?_⟩
  rcases isSome_cellAt_bound counted.2 with held | rfl
  · exact held
  · exact absurd (eq_of_beq counted.1) apart

end Bound

/-- A rule with a column limit maintains the limit on a device that lists each
bel once. -/
theorem maintains_withinLimit [LawfulBEq κ] {rules : SiteRules} {limit : Nat}
    {device : Device κ} (limited : rules.columnLimit = some limit)
    (distinct : device.bels.Nodup) :
    (rules.rule : LegalityRule κ).Maintains device (WithinLimit device limit) := by
  constructor
  · intro bels bel within query
    apply Nat.le_trans _ (within query)
    apply List.countP_mono_left
    intro site _ counted
    simp only [Fabric.cellAt, Occupancy.cellAt, Bool.and_eq_true,
      Option.isSome_map, Table.get?_erase] at counted ⊢
    split at counted
    · simp at counted
    · exact counted
  · intro layout cell record bel same within found available accepted query
    subst same
    simp only [rule, limited, Option.all_some, Bool.and_eq_true,
      decide_eq_true_eq] at accepted
    change boundInColumn (layout.bound cell record bel .weak).fabric query ≤ limit
    by_cases shared : (layout.fabric.device.position bel).map Prod.fst =
        (layout.fabric.device.position query).map Prod.fst
    · have room : boundInColumn layout.fabric query < limit := by
        have sameCount : boundInColumn layout.fabric query =
            boundInColumn layout.fabric bel := by
          simp only [boundInColumn, shared]
        exact sameCount ▸ accepted.2
      exact Nat.le_trans (boundInColumn_bound distinct) room
    · exact Nat.le_trans (boundInColumn_bound_other shared) (within query)

end SiteRules

def twoColumns : Layout Int :=
  Layout.twoCells ((Grid.uniform "g" 2 2 "LUT").device Int)

/-- A rule that allows one bound bel in each column. -/
def onePerColumn : SiteRules := ⟨[], some 1⟩

/-- Both placers place the two cells, and no column is ever overfull. -/
theorem LegalityRule.Maintains.upheldThrough_placement_of_twoColumns :
    ((FirstFit.recorded onePerColumn.rule).after ⟨twoColumns, []⟩).notes.length =
        2 ∧
      UpheldThrough (SiteRules.WithinLimit twoColumns.fabric.device 1)
        (FirstFit.recorded onePerColumn.rule) (FirstFit.place onePerColumn.rule)
        twoColumns ∧
      UpheldThrough (SiteRules.WithinLimit twoColumns.fabric.device 1)
        (Greedy.recorded onePerColumn.rule .default)
        (Greedy.place onePerColumn.rule .default) twoColumns := by
  have maintains : (onePerColumn.rule : LegalityRule Int).Maintains
      twoColumns.fabric.device
      (SiteRules.WithinLimit twoColumns.fabric.device 1) :=
    SiteRules.maintains_withinLimit rfl (Handle.nodup_range (by decide))
  have bare : (Constraints.place.after twoColumns).fabric.occupancy.bels =
      .empty := rfl
  have start : SiteRules.WithinLimit twoColumns.fabric.device 1
      (Constraints.place.after twoColumns).fabric.occupancy.bels := by
    rw [bare]
    exact SiteRules.withinLimit_empty _ 1
  exact ⟨by decide +kernel, maintains.upheldThrough_placement start .default⟩

end FpgaPlacer
