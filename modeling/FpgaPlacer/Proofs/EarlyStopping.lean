import FpgaPlacer.Proofs.CompletePlacement

/-!
# Early stopping is only an optimisation

An improvement pass that moves no cell leaves the layout as it was, and so does
every later pass, in whatever order it visits the cells.  Stopping after such a
pass therefore changes nothing but the state of the random generator.
-/

namespace FpgaPlacer

variable {κ : Type}

/-- A rule that does not look at the random generator. -/
def LegalityRule.IgnoresRandom (rule : LegalityRule κ) : Prop :=
  ∀ layout random cell bel,
    rule (Layout.withRandom layout random) cell bel = rule layout cell bel

namespace Layout

variable {α β : Type}

/-! ## Edits that end alike -/

/-- Both edits give the same answer or stop for the same reason, and the layouts
they reach differ at most in the random generator. -/
def EndsAlike (left right : LayoutEdit κ α) (layout : Layout κ) : Prop :=
  left.outcome layout = right.outcome layout ∧
    ∃ random, right.after layout = (left.after layout).withRandom random

theorem EndsAlike.refl (edit : LayoutEdit κ α) (layout : Layout κ) :
    EndsAlike edit edit layout :=
  ⟨rfl, (edit.after layout).design.random, rfl⟩

theorem EndsAlike.bind {first : LayoutEdit κ α} {left right : α → LayoutEdit κ β}
    {layout : Layout κ}
    (rest : ∀ value middle, first layout = .ok value middle →
      EndsAlike (left value) (right value) middle) :
    EndsAlike (first >>= left) (first >>= right) layout := by
  cases run : first layout with
  | ok value middle =>
      have alike := rest value middle run
      unfold EndsAlike Edit.outcome Edit.after at alike ⊢
      rw [Edit.bind_of_ok run, Edit.bind_of_ok run]
      exact alike
  | error stop middle =>
      unfold EndsAlike Edit.outcome Edit.after
      rw [Edit.bind_of_error run, Edit.bind_of_error run]
      exact ⟨rfl, middle.design.random, rfl⟩

/-! ## Placing a settled cell again -/

/-- Assigning a settled cell the bel that it is on changes nothing. -/
theorem assigned_eq_self {layout : Layout κ} {cell : Symbol} {record : Cell}
    {bel : BelId} {text : String} (knows : layout.design.KnowsLocation)
    (found : layout.design.cells.get? cell = some record)
    (placed : record.bel = some bel) (weak : record.strength = .weak)
    (occupied : layout.fabric.occupancy.bels.get? bel = some ⟨cell, .weak⟩)
    (annotated : record.attrs.get? layout.design.locationKey = some text) :
    layout.assigned cell record bel .weak text = layout := by
  have attrs := Table.insert_get? annotated
  have same : { record with
      bel := some bel, strength := .weak
      attrs := record.attrs.insert layout.design.locationKey text } = record := by
    rw [attrs, ← placed, ← weak]
  have bels := Table.insert_get? occupied
  have design : layout.design.setCell cell record = layout.design :=
    Design.setCell_get? found
  have occupancy : (releaseBel layout.fabric.occupancy record).bindBel bel cell
      .weak = layout.fabric.occupancy := by
    simp only [releaseBel, placed, Occupancy.unbindBel, Occupancy.bindBel,
      Table.insert_erase, bels]
  rw [assigned, same, knows.intern_eq, design, Fabric.withOccupancy, occupancy]

end Layout

open Layout

namespace Greedy

variable [Scalar κ]

theorem eq_of_unmoved {rule : LegalityRule κ} {options : PlaceOptions}
    {cell : Symbol} {before after : Layout κ}
    (knows : before.design.KnowsLocation) (settled : before.Settled cell)
    (run : placeCell rule options cell before = .ok false after) :
    after = before := by
  obtain ⟨record, bel, text, found, -, named, unmoved, rfl⟩ :=
    placeCell_eq_ok_iff.mp run
  have stays : record.bel = some bel :=
    Decidable.of_not_not (of_decide_eq_false unmoved.symm)
  cases settled with
  | intro present placed weak occupied typed fits carries annotated =>
      rw [found] at present
      cases present
      rw [stays] at placed
      cases placed
      rw [named] at carries
      cases carries
      exact assigned_eq_self knows found stays weak occupied annotated

/-! ## Independence of the random generator -/

theorem withCosts_withRandom (layout : Layout κ) (random : Generator)
    (fanoutLimit : Nat) (cell : Cell) (bels : List BelId) :
    withCosts (layout.withRandom random) fanoutLimit cell bels =
      withCosts layout fanoutLimit cell bels := by
  induction bels with
  | nil => rfl
  | cons bel rest induction =>
      rw [withCosts, withCosts, induction]
      rfl

theorem choose_withRandom {rule : LegalityRule κ} (ignores : rule.IgnoresRandom)
    (options : PlaceOptions) (cell : Symbol) (record : Cell) (layout : Layout κ)
    (random : Generator) :
    choose rule options cell record (layout.withRandom random) =
      choose rule options cell record layout := by
  have sameCandidates : ∀ belType,
      candidates rule (layout.withRandom random) belType cell =
        candidates rule layout belType cell := by
    intro belType
    apply List.filter_congr
    intro bel _
    rw [ignores layout random cell bel]
    rfl
  have sameType : (layout.withRandom random).typeFor record.cellType =
      layout.typeFor record.cellType := rfl
  unfold choose
  rw [sameType]
  cases typed : layout.typeFor record.cellType with
  | error error => rfl
  | ok belType =>
      dsimp only
      rw [sameCandidates, withCosts_withRandom]
      rfl

/-- The cell stays where it is when it is placed again. -/
def Stable (rule : LegalityRule κ) (options : PlaceOptions) (layout : Layout κ)
    (cell : Symbol) : Prop :=
  placeCell rule options cell layout = .ok false layout

theorem Stable.withRandom {rule : LegalityRule κ} {options : PlaceOptions}
    {layout : Layout κ} {cell : Symbol} (ignores : rule.IgnoresRandom)
    (stable : Stable rule options layout cell) (random : Generator) :
    Stable rule options (layout.withRandom random) cell := by
  obtain ⟨record, bel, text, found, chosen, named, unmoved, same⟩ :=
    placeCell_eq_ok_iff.mp stable
  apply placeCell_eq_ok_iff.mpr
  refine ⟨record, bel, text, found, ?_, named, unmoved, ?_⟩
  · have again := choose_withRandom ignores options cell record
      (layout.released cell record) random
    rw [chosen] at again
    exact again
  · exact congrArg (fun reached => Layout.withRandom reached random) same

/-! ## Stable passes -/

/-- A pass over settled cells that moves none of them leaves the layout as it
was, and all of them are stable. -/
theorem stable_of_unmoved {rule : LegalityRule κ} {options : PlaceOptions}
    {cells : List Symbol} {before after : Layout κ}
    (knows : before.design.KnowsLocation)
    (settled : ∀ cell ∈ cells, before.Settled cell)
    (run : replaceAll rule options cells before = .ok 0 after) :
    after = before ∧ ∀ cell ∈ cells, Stable rule options before cell := by
  induction cells with
  | nil =>
      cases run
      exact ⟨rfl, by simp⟩
  | cons cell rest induction =>
      rw [replaceAll] at run
      obtain ⟨moved, middle, first, run⟩ := Edit.bind_eq_ok_iff.mp run
      obtain ⟨others, reached, second, run⟩ := Edit.bind_eq_ok_iff.mp run
      obtain ⟨counted, rfl⟩ := EStateM.Result.ok.inj run
      obtain ⟨here, rfl⟩ := Nat.add_eq_zero_iff.mp counted
      cases moved with
      | true => cases here
      | false =>
          have same := eq_of_unmoved knows (settled cell List.mem_cons_self) first
          rw [same] at first second
          obtain ⟨unchanged, stable⟩ := induction
            (fun other later => settled other (List.mem_cons_of_mem cell later))
            second
          refine ⟨unchanged, ?_⟩
          intro other member
          rcases List.mem_cons.mp member with rfl | later
          · exact first
          · exact stable other later

theorem replaceAll_of_stable {rule : LegalityRule κ} {options : PlaceOptions}
    {cells : List Symbol} {layout : Layout κ}
    (stable : ∀ cell ∈ cells, Stable rule options layout cell) :
    replaceAll rule options cells layout = .ok 0 layout := by
  induction cells with
  | nil => rfl
  | cons cell rest induction =>
      have first := stable cell List.mem_cons_self
      have later := induction
        (fun other member => stable other (List.mem_cons_of_mem cell member))
      rw [replaceAll, Edit.bind_of_ok first, Edit.bind_of_ok later]
      rfl

/-- Once the cells are stable, further passes change only the random state. -/
theorem improve_of_stable {rule : LegalityRule κ} {options : PlaceOptions}
    (ignores : rule.IgnoresRandom) {cells : List Symbol} {layout : Layout κ}
    (stable : ∀ cell ∈ cells, Stable rule options layout cell) (passes : Nat) :
    ∃ random, improve rule options passes cells layout =
      .ok () (layout.withRandom random) := by
  induction passes generalizing cells layout with
  | zero => exact ⟨layout.design.random, rfl⟩
  | succ passes induction =>
      obtain ⟨order, random, drawn, members⟩ := shuffled_ok cells layout
      have still : ∀ cell ∈ order,
          Stable rule options (layout.withRandom random) cell := by
        intro cell member
        exact (stable cell ((members cell).mp member)).withRandom ignores random
      rw [improve, Edit.bind_of_ok drawn,
        Edit.bind_of_ok (replaceAll_of_stable still)]
      split
      · exact ⟨random, rfl⟩
      · obtain ⟨later, run⟩ := induction still
        exact ⟨later, run⟩

/-! ## The two ways of stopping -/

def stopping (options : PlaceOptions) (stopWhenStable : Bool) : PlaceOptions :=
  { options with stopWhenStable }

theorem replaceAll_stopping (rule : LegalityRule κ) (options : PlaceOptions)
    (flag : Bool) (cells : List Symbol) :
    replaceAll rule (stopping options flag) cells =
      replaceAll rule options cells := by
  induction cells with
  | nil => rfl
  | cons cell rest induction =>
      rw [replaceAll, replaceAll, induction]
      rfl

theorem placeUnplaced_stopping (rule : LegalityRule κ) (options : PlaceOptions)
    (flag : Bool) (cells : List Symbol) :
    placeUnplaced rule (stopping options flag) cells =
      placeUnplaced rule options cells := by
  induction cells with
  | nil => rfl
  | cons cell rest induction =>
      rw [placeUnplaced, placeUnplaced, induction]
      rfl

theorem improve_endsAlike {rule : LegalityRule κ}
    (ignores : rule.IgnoresRandom) (options : PlaceOptions) {cells : List Symbol}
    {layout : Layout κ} (ready : layout.Ready)
    (settled : ∀ cell ∈ cells, layout.Settled cell) (passes : Nat) :
    EndsAlike (improve rule (stopping options true) passes cells)
      (improve rule (stopping options false) passes cells) layout := by
  induction passes generalizing cells layout with
  | zero => exact .refl _ layout
  | succ passes induction =>
      rw [improve, improve]
      apply EndsAlike.bind
      intro order middle drawn
      obtain ⟨order', random, drawn', members⟩ := shuffled_ok cells layout
      rw [drawn] at drawn'
      cases drawn'
      have drawnReady := ready.withRandom random
      have still : ∀ cell ∈ order, (layout.withRandom random).Settled cell := by
        intro cell member
        exact (settled cell ((members cell).mp member)).withRandom random
      rw [replaceAll_stopping, replaceAll_stopping]
      apply EndsAlike.bind
      intro moved reached run
      by_cases unmoved : moved = 0
      · rw [unmoved] at run ⊢
        obtain ⟨rfl, stable⟩ := stable_of_unmoved drawnReady.knows still run
        have stays : ∀ cell ∈ order, Stable rule (stopping options false)
            (layout.withRandom random) cell := stable
        obtain ⟨later, rest⟩ := improve_of_stable ignores stays passes
        refine ⟨?_, later, ?_⟩
        · exact (Edit.outcome_of_ok rest).symm
        · exact Edit.after_of_ok rest
      · have pass := replaceAll_ok drawnReady run
        have onwards : (moved == 0) = false := beq_false_of_ne unmoved
        rw [onwards, Bool.and_false, Bool.and_false]
        apply induction (drawnReady.touches pass.touches)
        intro cell member
        exact pass.settled (fun _ visited => visited)
          (fun other visited => (still other visited).owns) (.inl member)

/-- Whether the greedy placer stops at the first pass without a move makes no
difference to its answer and, up to the random generator, to the layout that it
leaves. -/
theorem place_endsAlike {rule : LegalityRule κ} (ignores : rule.IgnoresRandom)
    {layout : Layout κ} (free : layout.fabric.device.AvailableIsFree)
    (options : PlaceOptions) :
    EndsAlike (place rule (stopping options true))
      (place rule (stopping options false)) layout := by
  unfold place
  apply EndsAlike.bind
  intro located middle pass
  obtain ⟨ready, -⟩ := Constraints.place_ok free pass
  apply EndsAlike.bind
  intro start same current
  cases current
  rw [placeUnplaced_stopping, placeUnplaced_stopping]
  apply EndsAlike.bind
  intro placed reached first
  obtain ⟨assigned, members⟩ :=
    placeUnplaced_ok ready (Table.nodup_keys _) first
  apply improve_endsAlike ignores options (ready.touches assigned.touches)
  intro cell member
  apply assigned.settled (fun _ visited => visited) _ (.inl member)
  intro other visited record bel found placedThere
  have unplaced := ((members other).mp visited).2
  rw [Design.belOf_of_found found, placedThere] at unplaced
  cases unplaced

/-- Both runs succeed: one after a single pass, the other after all passes. -/
theorem place_endsAlike_of_halfFixed :
    ((place .anyBel (stopping .default true)).outcome halfFixed).isOk = true ∧
      EndsAlike (place .anyBel (stopping .default true))
        (place .anyBel (stopping .default false)) halfFixed := by
  have ignores : (@LegalityRule.anyBel Int).IgnoresRandom :=
    fun _ _ _ _ => rfl
  have free : halfFixed.fabric.device.AvailableIsFree := Grid.availableIsFree _
  exact ⟨by decide +kernel, place_endsAlike ignores free .default⟩

end Greedy

end FpgaPlacer
