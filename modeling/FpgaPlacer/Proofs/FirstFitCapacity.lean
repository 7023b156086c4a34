import FpgaPlacer.Proofs.Capacity
import FpgaPlacer.Proofs.UnknownTypes

/-!
# First fit succeeds within capacity

The walk over the bels never turns back, and need not: what it has passed over
was not available, and nothing becomes available while cells are placed.  So a
walk runs out of bels only when its type has, whatever names the type goes by
in other buckets.
-/

namespace FpgaPlacer

variable {κ : Type}

namespace Layout

/-- The constraint pass succeeds and leaves a feasible layout. -/
def Placeable (layout : Layout κ) : Prop :=
  ∃ located middle, Constraints.place layout = .ok located middle ∧
    middle.Feasible

end Layout

open Layout

namespace FirstFit

theorem nextFit_eq_none {accepts : BelId → Bool} {bels : List BelId}
    (next : nextFit accepts bels = none) {bel : BelId} (member : bel ∈ bels) :
    accepts bel ≠ true := by
  induction bels with
  | nil => cases member
  | cons first others induction =>
      rw [nextFit] at next
      split at next
      · cases next
      · rename_i refused
        rcases List.mem_cons.mp member with rfl | later
        · exact refused
        · exact induction next later

theorem admits_anyBel_iff {layout : Layout κ} {belType : BelType}
    {cell : Symbol} {bel : BelId} :
    admits .anyBel layout belType cell bel = true ↔
      layout.fabric.device.belType bel = some belType ∧
        layout.fabric.available bel = true := by
  simp [admits, LegalityRule.anyBel]

/-- The bels ahead of a walk: bels of the device, with every opening of the type
among them. -/
structure Walk (layout : Layout κ) (belType : BelType) (bels : List BelId) :
    Prop where
  inside : ∀ bel ∈ bels, bel ∈ layout.fabric.device.bels
  ahead : ∀ bel ∈ layout.openings belType, bel ∈ bels

section Walk

variable {layout middle : Layout κ} {belType : BelType} {cell : Symbol}
  {bel : BelId} {bels others : List BelId}

theorem Walk.infeasible (walk : Walk layout belType bels)
    (waits : cell ∈ layout.awaiting belType)
    (next : nextFit (admits .anyBel layout belType cell) bels = none) :
    ¬ layout.Feasible := by
  intro feasible
  obtain ⟨bel, opening⟩ := feasible.opening waits
  obtain ⟨-, fits, available⟩ := mem_openings.mp opening
  have refused := nextFit_eq_none next (walk.ahead bel opening)
  exact refused (admits_anyBel_iff.mpr ⟨fits, available⟩)

/-- The bel that the walk comes to is an opening, and the cell goes there. -/
theorem Walk.fills (walk : Walk layout belType bels)
    (knows : layout.design.KnowsLocation)
    (described : layout.fabric.device.Described)
    (waits : cell ∈ layout.awaiting belType)
    (next : nextFit (admits .anyBel layout belType cell) bels =
      some (bel, others)) :
    ∃ middle, Layout.bindAndAnnotate cell bel .weak layout = .ok () middle ∧
      Fills cell bel layout middle := by
  obtain ⟨record, found, bare, typed⟩ := mem_awaiting.mp waits
  obtain ⟨fits, available⟩ := admits_anyBel_iff.mp (nextFit_eq_some next)
  obtain ⟨within, -⟩ := nextFit_ahead next
  have enumerated := walk.inside bel (within bel List.mem_cons_self)
  have opening := mem_openings.mpr ⟨enumerated, fits, available⟩
  obtain ⟨text, named⟩ := described.name fits
  refine ⟨_, bindAndAnnotate_of_named found named .weak, ?_⟩
  exact .intro knows found bare typed opening named

theorem Walk.onwards (walk : Walk layout belType bels)
    (isLocal : layout.fabric.device.LocalAvailability)
    (next : nextFit (admits .anyBel layout belType cell) bels =
      some (bel, others)) (step : Fills cell bel layout middle) :
    Walk middle belType others := by
  obtain ⟨within, passed⟩ := nextFit_ahead next
  constructor
  · intro other member
    rw [(step.assigns isLocal.free).touches.device]
    exact walk.inside other (within other (List.mem_cons_of_mem bel member))
  · intro other member
    obtain ⟨asked, -, -, openings⟩ := step.openings isLocal
    rw [openings] at member
    obtain ⟨different, stillOpen⟩ := Finset.mem_erase.mp member
    obtain ⟨-, fits, available⟩ := mem_openings.mp stillOpen
    have accepted : admits .anyBel layout belType cell other = true :=
      admits_anyBel_iff.mpr ⟨fits, available⟩
    have choices := passed other (walk.ahead other stillOpen) accepted
    exact choices.resolve_left different

end Walk

theorem placeCells_run {typeName : String} {belType : BelType}
    {cells : List Symbol} {bels : List BelId} {layout : Layout κ}
    (knows : layout.design.KnowsLocation)
    (isLocal : layout.fabric.device.LocalAvailability)
    (described : layout.fabric.device.Described) (distinct : cells.Nodup)
    (waits : ∀ cell ∈ cells, cell ∈ layout.awaiting belType)
    (walk : Walk layout belType bels) :
    FillRun layout.Feasible (fun _ => cells) layout
      (placeCells .anyBel typeName belType cells bels layout) := by
  induction cells generalizing bels layout with
  | nil => exact .filled (.nil layout)
  | cons cell rest induction =>
      obtain ⟨fresh, distinct⟩ := List.nodup_cons.mp distinct
      have asks := waits cell List.mem_cons_self
      rw [placeCells, Edit.bind_get]
      cases next : nextFit (admits .anyBel layout belType cell) bels with
      | none => exact .stuck (walk.infeasible asks next)
      | some choice =>
          obtain ⟨bel, others⟩ := choice
          obtain ⟨middle, run, step⟩ := walk.fills knows described asks next
          have touches := (step.assigns isLocal.free).touches
          have waiting := step.stillAwaiting isLocal.free fresh
            (fun other member => waits other (List.mem_cons_of_mem cell member))
          have later := induction (touches.knows knows) (touches.device ▸ isLocal)
            (touches.device ▸ described) distinct waiting
            (walk.onwards isLocal next step)
          dsimp only
          rw [Edit.bind_of_ok run]
          exact later.after (.single step) (step.feasible_iff isLocal).mpr

theorem placeBuckets_run {groups : List Bucket} {bels : List BelId}
    {layout : Layout κ} (knows : layout.design.KnowsLocation)
    (isLocal : layout.fabric.device.LocalAvailability)
    (described : layout.fabric.device.Described)
    (whole : bels = layout.fabric.device.bels)
    (distinct : (groups.flatMap Bucket.cells).Nodup)
    (waits : ∀ bucket ∈ groups, ∀ cell ∈ bucket.cells,
      cell ∈ layout.awaiting bucket.belType) :
    FillRun layout.Feasible (fun _ => groups.flatMap Bucket.cells) layout
      (placeBuckets .anyBel bels groups layout) := by
  induction groups generalizing layout with
  | nil => exact .filled (.nil layout)
  | cons bucket rest induction =>
      rw [List.flatMap_cons] at distinct ⊢
      obtain ⟨here, later, disjoint⟩ := List.nodup_append'.mp distinct
      have walk : Walk layout bucket.belType bels := by
        rw [whole]
        exact ⟨fun _ member => member,
          fun _ opening => (mem_openings.mp opening).1⟩
      have first : FillRun layout.Feasible (fun _ => bucket.cells) layout
          (placeCells .anyBel bucket.typeName bucket.belType bucket.cells bels
            layout) :=
        placeCells_run knows isLocal described here
          (waits bucket List.mem_cons_self) walk
      rw [placeBuckets]
      apply first.bind
      intro _ middle run
      have touches := run.touches isLocal.free
      apply FillRun.after _ run (run.feasible_iff isLocal).mpr
      apply induction
      · exact touches.knows knows
      · exact touches.device ▸ isLocal
      · exact touches.device ▸ described
      · rw [touches.device]
        exact whole
      · exact later
      · intro other member cell inside
        apply run.awaiting isLocal.free
        · intro placedHere
          have inRest := List.mem_flatMap.mpr ⟨other, member, inside⟩
          exact disjoint placedHere inRest
        · exact waits other (List.mem_cons_of_mem bucket member) cell inside

/-! ## Buckets -/

theorem buckets_of_feasible {layout : Layout κ} (feasible : layout.Feasible) :
    ∃ groups, buckets layout = .ok groups := by
  cases grouped : buckets layout with
  | ok groups => exact ⟨groups, rfl⟩
  | error error =>
      obtain ⟨cell, record, rest, first, -⟩ := buckets_eq_error_iff.mp grouped
      have member : (cell, record) ∈ untyped layout := first ▸ List.mem_cons_self
      obtain ⟨found, bare, absent⟩ := mem_untyped_iff.mp member
      obtain ⟨belType, typed⟩ := feasible.typed found bare
      have known := typeFor_eq_ok_iff.mp typed
      rw [absent] at known
      cases known

theorem nodup_eraseDups {α : Type} [BEq α] [LawfulBEq α] :
    (items : List α) → items.eraseDups.Nodup
  | [] => List.nodup_nil
  | item :: rest => by
      rw [List.eraseDups_cons, List.nodup_cons]
      constructor
      · intro again
        rw [List.mem_eraseDups, List.mem_filter] at again
        simp at again
      · exact nodup_eraseDups _
termination_by items => items.length
decreasing_by exact Nat.lt_succ_of_le (List.length_filter_le _ rest)

theorem nodup_sortedDistinct (texts : List String) :
    (sortedDistinct texts).Nodup :=
  List.nodup_mergeSort.mpr (nodup_eraseDups texts)

section Keys

variable {α : Type} (key : α → String)

theorem trans_of_key (one two three : α) (first : decide (key one ≤ key two))
    (second : decide (key two ≤ key three)) : decide (key one ≤ key three) :=
  decide_eq_true
    (String.le_trans (of_decide_eq_true first) (of_decide_eq_true second))

theorem total_of_key (one two : α) :
    decide (key one ≤ key two) || decide (key two ≤ key one) := by
  simpa using String.le_total (key one) (key two)

theorem pairwise_mergeSort_key (items : List α) :
    (items.mergeSort (fun left right => key left ≤ key right)).Pairwise
      (fun left right => key left ≤ key right) :=
  (List.pairwise_mergeSort (trans_of_key key) (total_of_key key) items).imp
    of_decide_eq_true

end Keys

theorem pairwise_sortedDistinct (texts : List String) :
    (sortedDistinct texts).Pairwise (· < ·) := by
  have sorted := pairwise_mergeSort_key id texts.eraseDups
  apply (sorted.and (nodup_sortedDistinct texts)).imp
  intro left right both
  apply String.not_le.mp
  intro above
  exact both.2 (String.le_antisymm both.1 above)

theorem nodup_bucketOf (layout : Layout κ) (typeName : String)
    (belType : BelType) : (bucketOf layout typeName belType).cells.Nodup := by
  have keys := Table.nodup_keys layout.design.cells
  apply List.Nodup.sublist _ keys
  apply List.Sublist.map
  exact List.filter_sublist.trans List.filter_sublist

theorem nodup_buckets {layout : Layout κ} {groups : List Bucket}
    (grouped : buckets layout = .ok groups) :
    (groups.flatMap Bucket.cells).Nodup := by
  obtain ⟨-, answer⟩ := checked_then_eq_ok_iff.mp grouped
  cases answer
  rw [List.nodup_flatMap]
  constructor
  · intro bucket member
    obtain ⟨typeName, -, built⟩ := List.mem_filterMap.mp member
    obtain ⟨belType, -, same⟩ := Option.map_eq_some_iff.mp built
    rw [← same]
    exact nodup_bucketOf layout typeName belType
  · rw [List.pairwise_filterMap]
    apply (nodup_sortedDistinct _).imp
    intro left right different leftBucket leftBuilt rightBucket rightBuilt
    obtain ⟨leftType, -, leftSame⟩ := Option.map_eq_some_iff.mp leftBuilt
    obtain ⟨rightType, -, rightSame⟩ := Option.map_eq_some_iff.mp rightBuilt
    intro cell inLeft inRight
    rw [← leftSame] at inLeft
    rw [← rightSame] at inRight
    obtain ⟨record, found, -, leftNamed⟩ := mem_bucketOf_iff.mp inLeft
    obtain ⟨other, foundToo, -, rightNamed⟩ := mem_bucketOf_iff.mp inRight
    rw [found] at foundToo
    cases foundToo
    exact different (leftNamed.symm.trans rightNamed)

theorem awaiting_of_buckets {layout : Layout κ} {groups : List Bucket}
    (grouped : buckets layout = .ok groups) :
    ∀ bucket ∈ groups, ∀ cell ∈ bucket.cells,
      cell ∈ layout.awaiting bucket.belType := by
  intro bucket member cell inside
  obtain ⟨record, found, bare, typed⟩ :=
    (buckets_ok grouped).1 bucket member cell inside
  exact mem_awaiting.mpr ⟨record, found, bare, typed⟩

/-- The buckets of the unplaced cells are filled, or the layout was not
feasible. -/
theorem placeBuckets_of_buckets {layout : Layout κ} {groups : List Bucket}
    (knows : layout.design.KnowsLocation)
    (isLocal : layout.fabric.device.LocalAvailability)
    (described : layout.fabric.device.Described)
    (grouped : buckets layout = .ok groups) :
    FillRun layout.Feasible (fun _ => groups.flatMap Bucket.cells) layout
      (placeBuckets .anyBel layout.fabric.device.bels groups layout) :=
  placeBuckets_run knows isLocal described rfl (nodup_buckets grouped)
    (awaiting_of_buckets grouped)

theorem placeable_of_outcome {layout : Layout κ}
    (isLocal : layout.fabric.device.LocalAvailability)
    (described : layout.fabric.device.Described)
    (success : (place .anyBel).outcome layout = .ok ()) :
    layout.Placeable := by
  obtain ⟨located, middle, groups, fixed, grouped, rest⟩ :=
    place_eq_ok_iff.mp (Edit.outcome_eq_ok success)
  obtain ⟨ready, fixes⟩ := Constraints.place_ok isLocal.free fixed
  refine ⟨located, middle, fixed, ?_⟩
  have device := fixes.touches.device
  have filled := placeBuckets_of_buckets ready.knows (device ▸ isLocal)
    (device ▸ described) grouped
  rw [rest] at filled
  cases filled with
  | filled run =>
      apply run.feasible (device ▸ isLocal)
      intro cell record found bare
      obtain ⟨bucket, member, inside⟩ :=
        (buckets_ok grouped).2 cell record found bare
      exact List.mem_flatMap.mpr ⟨bucket, member, inside⟩

theorem outcome_of_placeable {layout : Layout κ}
    (isLocal : layout.fabric.device.LocalAvailability)
    (described : layout.fabric.device.Described)
    (placeable : layout.Placeable) :
    (place .anyBel).outcome layout = .ok () := by
  obtain ⟨located, middle, fixed, feasible⟩ := placeable
  obtain ⟨ready, fixes⟩ := Constraints.place_ok isLocal.free fixed
  have device := fixes.touches.device
  obtain ⟨groups, grouped⟩ := buckets_of_feasible feasible
  have filled := placeBuckets_of_buckets ready.knows (device ▸ isLocal)
    (device ▸ described) grouped
  cases placed : placeBuckets .anyBel middle.fabric.device.bels groups
      middle with
  | error stop reached =>
      rw [placed] at filled
      cases filled with
      | stuck infeasible => exact absurd feasible infeasible
  | ok value after =>
      apply Edit.outcome_of_ok
      exact place_eq_ok_iff.mpr ⟨located, middle, groups, fixed, grouped, placed⟩

end FirstFit

end FpgaPlacer
