import FpgaPlacer.Proofs.SuccessfulRuns

/-!
# The orders of the improvement passes

An improvement pass shuffles the cells that the greedy placer has placed and
places them again in that order.  A run is described here by the orders of the
passes that it has ended.  The shuffle only permutes its list, so each of these
orders lists exactly the cells that the constraint pass has left without a bel,
each of them once.
-/

namespace FpgaPlacer.Greedy

variable {κ : Type} [Scalar κ]

/-- The listed cells are placed again, one after the other. -/
inductive Replaces (rule : LegalityRule κ) (options : PlaceOptions) :
    List Symbol → Layout κ → Layout κ → Prop where
  | nil (layout : Layout κ) : Replaces rule options [] layout layout
  | cons {cell : Symbol} {cells : List Symbol} {before middle after : Layout κ}
      {moved : Bool} (first : placeCell rule options cell before = .ok moved middle)
      (rest : Replaces rule options cells middle after) :
      Replaces rule options (cell :: cells) before after

/-- The orders of the passes that a run of improvement passes ends, and how the run
ends. -/
inductive Improves (rule : LegalityRule κ) (options : PlaceOptions) :
    Nat → List Symbol → Layout κ → List (List Symbol) →
      EStateM.Result (Stop DesignError) (Layout κ) Unit → Prop where
  | spent (cells : List Symbol) (layout : Layout κ) :
      Improves rule options 0 cells layout [] (.ok () layout)
  | stopped {passes : Nat} {cells order : List Symbol}
      {layout drawn reached : Layout κ} {stop : Stop DesignError}
      (shuffle : shuffled cells layout = .ok order drawn)
      (failed : replaceAll rule options order drawn = .error stop reached) :
      Improves rule options (passes + 1) cells layout [] (.error stop reached)
  | stable {passes : Nat} {cells order : List Symbol}
      {layout drawn reached : Layout κ}
      (shuffle : shuffled cells layout = .ok order drawn)
      (pass : Replaces rule options order drawn reached)
      (stops : options.stopWhenStable = true) :
      Improves rule options (passes + 1) cells layout [order] (.ok () reached)
  | next {passes : Nat} {cells order : List Symbol} {orders : List (List Symbol)}
      {layout drawn reached : Layout κ}
      {result : EStateM.Result (Stop DesignError) (Layout κ) Unit}
      (shuffle : shuffled cells layout = .ok order drawn)
      (pass : Replaces rule options order drawn reached)
      (rest : Improves rule options passes order reached orders result) :
      Improves rule options (passes + 1) cells layout (order :: orders) result

/-- The orders of the passes that the placer ends, and how it ends. -/
inductive PassRun (rule : LegalityRule κ) (options : PlaceOptions)
    (layout : Layout κ) : List (List Symbol) →
      EStateM.Result (Stop DesignError) (Layout κ) Unit → Prop where
  | unfixed {reached : Layout κ} {stop : Stop DesignError}
      (pass : Constraints.place layout = .error stop reached) :
      PassRun rule options layout [] (.error stop reached)
  | unplaced {located : List Symbol} {middle reached : Layout κ}
      {stop : Stop DesignError}
      (pass : Constraints.place layout = .ok located middle)
      (failed : placeUnplaced rule options middle.design.cells.keys middle =
        .error stop reached) :
      PassRun rule options layout [] (.error stop reached)
  | improved {located placed : List Symbol} {middle start : Layout κ}
      {orders : List (List Symbol)}
      {result : EStateM.Result (Stop DesignError) (Layout κ) Unit}
      (pass : Constraints.place layout = .ok located middle)
      (first : placeUnplaced rule options middle.design.cells.keys middle =
        .ok placed start)
      (improves : Improves rule options options.improvementPasses placed start orders
        result) :
      PassRun rule options layout orders result

omit [Scalar κ] in
/-- The placer has to find a bel for the cell, as the constraint pass leaves it
without one. -/
def AutoPlaced (layout : Layout κ) (cell : Symbol) : Prop :=
  ∃ located middle, Constraints.place layout = .ok located middle ∧
    ∃ record, middle.design.cells.get? cell = some record ∧ record.bel = none

variable {rule : LegalityRule κ} {options : PlaceOptions}

theorem replaces_of_replaceAll {cells : List Symbol} {before after : Layout κ}
    {moved : Nat} (run : replaceAll rule options cells before = .ok moved after) :
    Replaces rule options cells before after := by
  induction cells generalizing before moved with
  | nil =>
      cases run
      exact .nil _
  | cons cell rest induction =>
      rw [replaceAll] at run
      obtain ⟨here, middle, first, run⟩ := Edit.bind_eq_ok_iff.mp run
      obtain ⟨others, reached, second, run⟩ := Edit.bind_eq_ok_iff.mp run
      cases run
      exact .cons first (induction second)

omit [Scalar κ] in
theorem shuffled_perm (cells : List Symbol) (layout : Layout κ) :
    ∃ order drawn, shuffled cells layout = .ok order drawn ∧ order.Perm cells :=
  ⟨_, _, rfl, Generator.shuffle_perm cells layout.design.random⟩

/-- Every pass that ends has a permutation of the cells as its order. -/
theorem improve_improves (rule : LegalityRule κ) (options : PlaceOptions)
    (passes : Nat) (cells : List Symbol) (layout : Layout κ) :
    ∃ orders, Improves rule options passes cells layout orders
        (improve rule options passes cells layout) ∧
      ∀ order ∈ orders, order.Perm cells := by
  induction passes generalizing cells layout with
  | zero => exact ⟨[], .spent cells layout, nofun⟩
  | succ passes induction =>
      obtain ⟨order, drawn, shuffle, permuted⟩ := shuffled_perm cells layout
      rw [improve, Edit.bind_of_ok shuffle]
      cases run : replaceAll rule options order drawn with
      | error stop reached =>
          rw [Edit.bind_of_error run]
          exact ⟨[], .stopped shuffle run, nofun⟩
      | ok moved reached =>
          rw [Edit.bind_of_ok run]
          have pass := replaces_of_replaceAll run
          split
          · rename_i stable
            have stops := (Bool.and_eq_true_iff.mp stable).1
            refine ⟨[order], .stable shuffle pass stops, ?_⟩
            intro other member
            exact List.mem_singleton.mp member ▸ permuted
          · obtain ⟨orders, rest, later⟩ := induction order reached
            refine ⟨order :: orders, .next shuffle pass rest, ?_⟩
            intro other member
            obtain rfl | inRest := List.mem_cons.mp member
            · exact permuted
            · exact (later other inRest).trans permuted

theorem placeUnplaced_sublist {cells placed : List Symbol} {before after : Layout κ}
    (run : placeUnplaced rule options cells before = .ok placed after) :
    placed.Sublist cells := by
  induction cells generalizing before placed with
  | nil =>
      cases run
      exact .slnil
  | cons cell rest induction =>
      rw [placeUnplaced, Edit.bind_get] at run
      split at run
      · exact (induction run).cons cell
      · obtain ⟨moved, middle, first, run⟩ := Edit.bind_eq_ok_iff.mp run
        obtain ⟨others, reached, second, run⟩ := Edit.bind_eq_ok_iff.mp run
        cases run
        exact (induction second).cons_cons cell

/-- Each pass that ends places the cells again that the constraint pass has left
without a bel, each of them once, and no other cell. -/
theorem place_passRun (rule : LegalityRule κ) (options : PlaceOptions)
    (layout : Layout κ) :
    ∃ orders, PassRun rule options layout orders (place rule options layout) ∧
      ∀ order ∈ orders, order.Nodup ∧ ∀ cell, cell ∈ order ↔ AutoPlaced layout cell := by
  rw [place]
  cases pass : Constraints.place layout with
  | error stop reached =>
      rw [Edit.bind_of_error pass]
      exact ⟨[], .unfixed pass, nofun⟩
  | ok located middle =>
      rw [Edit.bind_of_ok pass, Edit.bind_get]
      cases first : placeUnplaced rule options middle.design.cells.keys middle with
      | error stop reached =>
          rw [Edit.bind_of_error first]
          exact ⟨[], .unplaced pass first, nofun⟩
      | ok placed start =>
          rw [Edit.bind_of_ok first]
          obtain ⟨orders, improves, permuted⟩ :=
            improve_improves rule options options.improvementPasses placed start
          refine ⟨orders, .improved pass first improves, ?_⟩
          intro order member
          have same := permuted order member
          have distinct : placed.Nodup :=
            (Table.nodup_keys _).sublist (placeUnplaced_sublist first)
          refine ⟨same.nodup_iff.mpr distinct, ?_⟩
          intro cell
          rw [same.mem_iff, mem_placed_iff first cell]
          constructor
          · intro bare
            exact ⟨located, middle, pass, bare⟩
          · intro auto
            obtain ⟨_, _, again, bare⟩ := auto
            cases pass.symm.trans again
            exact bare

end FpgaPlacer.Greedy
