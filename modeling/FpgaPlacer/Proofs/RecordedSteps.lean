import FpgaPlacer.Proofs.RecordedPlacement
import FpgaPlacer.Proofs.SuccessfulRuns

/-!
# What every step of a placer respects

After the constraint pass a placer changes a layout in six ways only: it draws
random numbers, interns a name, and releases, binds or annotates a cell.  A
relation that each of these steps respects therefore relates the layout that
the pass leaves to every layout that the run notes and to the one it ends in.
The cells it handles are those that had no bel.
-/

namespace FpgaPlacer

variable {κ α : Type}

namespace Layout

/-- The layout in which the location attribute of a cell holds a text. -/
def annotated (layout : Layout κ) (cell : Symbol) (record : Cell) (text : String) :
    Layout κ :=
  { layout with
    design := layout.design.setCell cell
      { record with attrs := record.attrs.insert layout.design.locationKey text } }

/-- The relation holds across each step of a placer that handles only the cells
of a group. -/
structure Respects (related : Layout κ → Layout κ → Prop) (rule : LegalityRule κ)
    (group : Symbol → Prop) : Prop where
  refl : ∀ layout, related layout layout
  trans : ∀ {one two three}, related one two → related two three → related one three
  drawn : ∀ layout random, related layout (layout.withRandom random)
  interned : ∀ layout, related layout (layout.intern locationAttribute).2
  released : ∀ {layout cell record}, group cell →
    layout.design.cells.get? cell = some record →
    related layout (layout.released cell record)
  bound : ∀ {layout cell record bel}, group cell →
    layout.design.cells.get? cell = some record →
    layout.fabric.available bel = true → rule layout cell bel = true →
    related layout (layout.bound cell record bel .weak)
  annotated : ∀ {layout cell record text}, group cell →
    layout.design.cells.get? cell = some record →
    related layout (layout.annotated cell record text)

end Layout

namespace Recording

/-- The relation reaches from the layout at first to the one at last and to each
that has been noted on the way. -/
structure Throughout (related : Layout κ → Layout κ → Prop)
    (before after : Recording κ) : Prop where
  last : related before.layout after.layout
  noted : ∀ layout ∈ after.notes, layout ∈ before.notes ∨ related before.layout layout

theorem bind_quietly_get (next : Layout κ → RecordingEdit κ α)
    (recording : Recording κ) :
    (quietly get >>= next) recording = next recording.layout recording := rfl

theorem after_bind_quietly_get (next : Layout κ → RecordingEdit κ α)
    (recording : Recording κ) :
    (quietly get >>= next).after recording =
      (next recording.layout).after recording := rfl

theorem after_quietly (edit : LayoutEdit κ α) (recording : Recording κ) :
    (quietly edit).after recording =
      { recording with layout := edit.after recording.layout } := by
  unfold Edit.after quietly
  cases edit recording.layout with
  | ok value layout => rfl
  | error stop layout => rfl

theorem quietly_reading_ok {step : Layout κ → Except (Stop DesignError) α}
    {before after : Recording κ} {value : α}
    (run : quietly (Edit.reading step) before = .ok value after) :
    step before.layout = .ok value ∧ after = before := by
  unfold quietly at run
  cases read : step before.layout with
  | error stop =>
      rw [Edit.reading_of_error read] at run
      cases run
  | ok answer =>
      rw [Edit.reading_of_ok read] at run
      cases run
      exact ⟨rfl, rfl⟩

theorem perm_of_shuffled {cells order : List Symbol} {before after : Recording κ}
    (run : quietly (Greedy.shuffled cells) before = .ok order after) :
    order.Perm cells := by
  cases run
  exact Generator.shuffle_perm cells before.layout.design.random

end Recording

open Layout Recording

namespace Layout.Respects

variable {related : Layout κ → Layout κ → Prop} {rule : LegalityRule κ}
  {group : Symbol → Prop} (respects : Respects related rule group)

include respects

theorem throughout_refl (recording : Recording κ) :
    Throughout related recording recording :=
  ⟨respects.refl recording.layout, fun _ noted => .inl noted⟩

theorem throughout_trans {one two three : Recording κ}
    (first : Throughout related one two) (second : Throughout related two three) :
    Throughout related one three := by
  refine ⟨respects.trans first.last second.last, ?_⟩
  intro layout noted
  obtain earlier | later := second.noted layout noted
  · exact first.noted layout earlier
  · exact .inr (respects.trans first.last later)

omit respects in
theorem throughout_quietly {edit : LayoutEdit κ α} {recording : Recording κ}
    (step : related recording.layout (edit.after recording.layout)) :
    Throughout related recording ((quietly edit).after recording) := by
  rw [after_quietly]
  exact ⟨step, fun _ noted => .inl noted⟩

theorem after_unbindBel {cell : Symbol} (grouped : group cell) (layout : Layout κ) :
    related layout ((unbindBel cell).after layout) := by
  cases found : layout.design.cells.get? cell with
  | none =>
      rw [Edit.after_of_error (unbindBel_of_absent found)]
      exact respects.refl layout
  | some record =>
      rw [Edit.after_of_ok (unbindBel_of_found found)]
      exact respects.released grouped found

theorem after_annotate {cell : Symbol} (grouped : group cell) (bel : BelId)
    (layout : Layout κ) : related layout ((annotate cell bel).after layout) := by
  apply Edit.after_bind related respects.trans (respects.interned layout)
  intro key middle interned
  cases interned
  apply Edit.after_bind related respects.trans
  · rw [Edit.after_reading]
    exact respects.refl _
  · intro text middle read
    obtain ⟨-, rfl⟩ := Edit.reading_eq_ok_iff.mp read
    rw [Edit.after_of_ok (Edit.modify_run _ _)]
    dsimp only
    split
    · exact respects.refl _
    · rename_i record found
      have step : related (layout.intern locationAttribute).2
          ((layout.intern locationAttribute).2.annotated cell record text) :=
        respects.annotated grouped found
      have sameKey : (layout.intern locationAttribute).2.design.locationKey =
          (layout.intern locationAttribute).1 := layout.design.locationKey_intern
      rw [Layout.annotated, sameKey] at step
      exact step

/-- The one place where a placer binds: the bel is available and accepted in the
layout in which the cell is bound to it. -/
theorem throughout_recordedBinding {recording : Recording κ} {cell : Symbol}
    {bel : BelId} (grouped : group cell)
    (available : recording.layout.fabric.available bel = true)
    (accepted : rule recording.layout cell bel = true) :
    Throughout related recording
      ((recordedBinding cell bel .weak).after recording) := by
  apply Edit.after_bind (Throughout related) respects.throughout_trans
  · cases found : recording.layout.design.cells.get? cell with
    | none =>
        have refused := bindBel_of_absent found bel .weak
        rw [Edit.after, noting, refused]
        exact respects.throughout_refl recording
    | some record =>
        have step := respects.bound grouped found available accepted
        rw [Edit.after, noting, bindBel_of_found found bel .weak]
        refine ⟨step, ?_⟩
        intro layout noted
        obtain rfl | earlier := List.mem_cons.mp noted
        · exact .inr step
        · exact .inl earlier
  · intro _ middle _
    exact throughout_quietly (respects.after_annotate grouped bel middle.layout)

/-! ## First fit -/

theorem throughout_firstFitCells (typeName : String) (belType : BelType)
    {cells : List Symbol} (grouped : ∀ cell ∈ cells, group cell) (bels : List BelId)
    (recording : Recording κ) :
    Throughout related recording
      ((FirstFit.recordedCells rule typeName belType cells bels).after recording) := by
  induction cells generalizing bels recording with
  | nil => exact respects.throughout_refl recording
  | cons cell rest induction =>
      rw [FirstFit.recordedCells, after_bind_quietly_get]
      split
      · exact throughout_quietly (respects.refl _)
      · rename_i bel others next
        have accepted := FirstFit.nextFit_eq_some next
        simp only [FirstFit.admits, Bool.and_eq_true] at accepted
        apply Edit.after_bind (Throughout related) respects.throughout_trans
        · exact respects.throughout_recordedBinding (grouped cell List.mem_cons_self)
            accepted.1.2 accepted.2
        · intro _ middle _
          exact induction (fun other later =>
            grouped other (List.mem_cons_of_mem cell later)) others middle

theorem throughout_firstFitBuckets {groups : List FirstFit.Bucket}
    (grouped : ∀ bucket ∈ groups, ∀ cell ∈ bucket.cells, group cell)
    (bels : List BelId) (recording : Recording κ) :
    Throughout related recording
      ((FirstFit.recordedBuckets rule bels groups).after recording) := by
  induction groups generalizing recording with
  | nil => exact respects.throughout_refl recording
  | cons bucket rest induction =>
      apply Edit.after_bind (Throughout related) respects.throughout_trans
      · exact respects.throughout_firstFitCells bucket.typeName bucket.belType
          (grouped bucket List.mem_cons_self) bels recording
      · intro _ middle _
        exact induction (fun other later =>
          grouped other (List.mem_cons_of_mem bucket later)) middle

/-! ## Greedy placement -/

variable [Scalar κ]

theorem throughout_recordedCell (options : PlaceOptions) {cell : Symbol}
    (grouped : group cell) (recording : Recording κ) :
    Throughout related recording
      ((Greedy.recordedCell rule options cell).after recording) := by
  rw [Greedy.recordedCell, after_bind_quietly_get]
  split
  · exact throughout_quietly (respects.refl _)
  · rename_i record found
    apply Edit.after_bind (Throughout related) respects.throughout_trans
    · exact throughout_quietly (respects.after_unbindBel grouped _)
    · intro _ middle _
      apply Edit.after_bind (Throughout related) respects.throughout_trans
      · apply throughout_quietly
        rw [Edit.after_reading]
        exact respects.refl _
      · intro bel reached read
        obtain ⟨chosen, rfl⟩ := quietly_reading_ok read
        obtain ⟨belType, -, candidate⟩ := Greedy.candidate_of_choose chosen
        obtain ⟨-, -, available, accepted⟩ := Greedy.mem_candidates_iff.mp candidate
        apply Edit.after_bind (Throughout related) respects.throughout_trans
        · exact respects.throughout_recordedBinding grouped available accepted
        · intro _ final _
          exact respects.throughout_refl final

theorem throughout_recordedAgain (options : PlaceOptions) {cells : List Symbol}
    (grouped : ∀ cell ∈ cells, group cell) (recording : Recording κ) :
    Throughout related recording
      ((Greedy.recordedAgain rule options cells).after recording) := by
  induction cells generalizing recording with
  | nil => exact respects.throughout_refl recording
  | cons cell rest induction =>
      apply Edit.after_bind (Throughout related) respects.throughout_trans
      · exact respects.throughout_recordedCell options
          (grouped cell List.mem_cons_self) recording
      · intro _ middle _
        apply Edit.after_bind (Throughout related) respects.throughout_trans
        · exact induction (fun other later =>
            grouped other (List.mem_cons_of_mem cell later)) middle
        · intro _ reached _
          exact respects.throughout_refl reached

theorem throughout_recordedPasses (options : PlaceOptions) (passes : Nat)
    {cells : List Symbol} (grouped : ∀ cell ∈ cells, group cell)
    (recording : Recording κ) :
    Throughout related recording
      ((Greedy.recordedPasses rule options passes cells).after recording) := by
  induction passes generalizing cells recording with
  | zero => exact respects.throughout_refl recording
  | succ passes induction =>
      apply Edit.after_bind (Throughout related) respects.throughout_trans
      · exact throughout_quietly (respects.drawn _ _)
      · intro order middle shuffle
        have members : ∀ cell ∈ order, group cell := fun cell member =>
          grouped cell ((perm_of_shuffled shuffle).mem_iff.mp member)
        apply Edit.after_bind (Throughout related) respects.throughout_trans
        · exact respects.throughout_recordedAgain options members _
        · intro moved reached _
          split
          · exact respects.throughout_refl reached
          · exact induction members reached

end Layout.Respects

/-! ## Cells without a bel -/

/-- Every cell without a bel is in the group. -/
def Layout.Covers (group : Symbol → Prop) (layout : Layout κ) : Prop :=
  ∀ cell, layout.design.belOf (some cell) = none → group cell

/-- A step on a cell of the group can only make that cell one without a bel. -/
theorem Layout.Covers.of_others {group : Symbol → Prop} {before after : Layout κ}
    {cell : Symbol} (covers : before.Covers group) (grouped : group cell)
    (others : ∀ other, other ≠ cell →
      after.design.cells.get? other = before.design.cells.get? other) :
    after.Covers group := by
  intro other bare
  by_cases same : other = cell
  · exact same ▸ grouped
  · apply covers other
    rw [← bare]
    exact congrArg (fun found => found.bind Cell.bel) (others other same).symm

theorem Layout.respects_covers (rule : LegalityRule κ) (group : Symbol → Prop) :
    Layout.Respects (fun before after => before.Covers group → after.Covers group)
      rule group := by
  constructor
  · exact fun _ covers => covers
  · exact fun first second covers => second (first covers)
  · exact fun _ _ covers => covers
  · exact fun _ covers => covers
  · intro layout cell record grouped _ covers
    apply covers.of_others grouped
    intro other different
    rw [get?_cells_released, if_neg different]
  · intro layout cell record bel grouped _ _ _ covers
    apply covers.of_others grouped
    intro other different
    rw [get?_cells_bound, if_neg different]
  · intro layout cell record text grouped _ covers
    apply covers.of_others grouped
    intro other different
    exact (Design.get?_cells_setCell ..).trans (if_neg different)

namespace Layout.Respects

variable [Scalar κ] {related : Layout κ → Layout κ → Prop} {rule : LegalityRule κ}
  {group : Symbol → Prop} (respects : Respects related rule group)

include respects

theorem throughout_recordedUnplaced (options : PlaceOptions) (cells : List Symbol)
    {recording : Recording κ} (covers : recording.layout.Covers group) :
    Throughout related recording
      ((Greedy.recordedUnplaced rule options cells).after recording) := by
  induction cells generalizing recording with
  | nil => exact respects.throughout_refl recording
  | cons cell rest induction =>
      rw [Greedy.recordedUnplaced, after_bind_quietly_get]
      split
      · exact induction covers
      · rename_i unplaced
        have grouped : group cell := covers cell (by simpa using unplaced)
        apply Edit.after_bind (Throughout related) respects.throughout_trans
        · exact respects.throughout_recordedCell options grouped recording
        · intro moved middle placed
          have carried := (respects_covers rule group).throughout_recordedCell options
            grouped recording
          rw [Edit.after_of_ok placed] at carried
          apply Edit.after_bind (Throughout related) respects.throughout_trans
          · exact induction (carried.last covers)
          · intro _ reached _
            exact respects.throughout_refl reached

end Layout.Respects

theorem Greedy.grouped_of_recordedUnplaced [Scalar κ] {rule : LegalityRule κ}
    {options : PlaceOptions} {group : Symbol → Prop} {cells placed : List Symbol}
    {before after : Recording κ} (covers : before.layout.Covers group)
    (run : recordedUnplaced rule options cells before = .ok placed after) :
    ∀ cell ∈ placed, group cell := by
  induction cells generalizing before placed with
  | nil =>
      cases run
      exact fun _ member => nomatch member
  | cons cell rest induction =>
      rw [recordedUnplaced, bind_quietly_get] at run
      split at run
      · exact induction covers run
      · rename_i unplaced
        have grouped : group cell := covers cell (by simpa using unplaced)
        obtain ⟨moved, middle, first, run⟩ := Edit.bind_eq_ok_iff.mp run
        obtain ⟨others, reached, second, run⟩ := Edit.bind_eq_ok_iff.mp run
        cases run
        have carried := (respects_covers rule group).throughout_recordedCell options
          grouped before
        rw [Edit.after_of_ok first] at carried
        intro other member
        obtain rfl | later := List.mem_cons.mp member
        · exact grouped
        · exact induction (carried.last covers) second other later

/-! ## Whole runs -/

section Runs

variable {related : Layout κ → Layout κ → Prop} {rule : LegalityRule κ}
  {group : Symbol → Prop} {layout middle : Layout κ} {located : List Symbol}
  {stop : Stop DesignError}

theorem Recording.quietly_of_ok {edit : LayoutEdit κ α} {value : α}
    (run : edit layout = .ok value middle) (notes : List (Layout κ)) :
    quietly edit ⟨layout, notes⟩ = .ok value ⟨middle, notes⟩ := by
  simp [quietly, run]

theorem Recording.quietly_of_error {edit : LayoutEdit κ α}
    (run : edit layout = .error stop middle) (notes : List (Layout κ)) :
    quietly edit ⟨layout, notes⟩ = .error stop ⟨middle, notes⟩ := by
  simp [quietly, run]

theorem FirstFit.after_recorded_of_stopped (rule : LegalityRule κ)
    (pass : Constraints.place layout = .error stop middle) :
    (recorded rule).after ⟨layout, []⟩ = ⟨middle, []⟩ :=
  Edit.after_of_error (Edit.bind_of_error (quietly_of_error pass []))

theorem Greedy.after_recorded_of_stopped [Scalar κ] (rule : LegalityRule κ)
    (options : PlaceOptions) (pass : Constraints.place layout = .error stop middle) :
    (recorded rule options).after ⟨layout, []⟩ = ⟨middle, []⟩ :=
  Edit.after_of_error (Edit.bind_of_error (quietly_of_error pass []))

namespace Layout.Respects

theorem throughout_firstFit (respects : Respects related rule group)
    (pass : Constraints.place layout = .ok located middle)
    (covers : middle.Covers group) :
    Throughout related ⟨middle, []⟩
      ((FirstFit.recorded rule).after ⟨layout, []⟩) := by
  rw [FirstFit.recorded, Edit.after, Edit.bind_of_ok (quietly_of_ok pass [])]
  change Throughout related ⟨middle, []⟩ (Edit.after _ _)
  rw [after_bind_quietly_get]
  cases grouping : FirstFit.buckets middle with
  | error error => exact throughout_quietly (respects.refl middle)
  | ok groups =>
      apply respects.throughout_firstFitBuckets
      intro bucket member cell inside
      obtain ⟨record, found, bare, -⟩ :=
        (FirstFit.buckets_ok grouping).1 bucket member cell inside
      apply covers cell
      rw [Design.belOf_of_found found]
      exact bare

theorem throughout_greedy [Scalar κ] (respects : Respects related rule group)
    (options : PlaceOptions) (pass : Constraints.place layout = .ok located middle)
    (covers : middle.Covers group) :
    Throughout related ⟨middle, []⟩
      ((Greedy.recorded rule options).after ⟨layout, []⟩) := by
  rw [Greedy.recorded, Edit.after, Edit.bind_of_ok (quietly_of_ok pass [])]
  change Throughout related ⟨middle, []⟩ (Edit.after _ _)
  rw [after_bind_quietly_get]
  apply Edit.after_bind (Throughout related) respects.throughout_trans
  · exact respects.throughout_recordedUnplaced options _ covers
  · intro placed reached first
    apply respects.throughout_recordedPasses
    exact Greedy.grouped_of_recordedUnplaced covers first

end Layout.Respects

end Runs

end FpgaPlacer
