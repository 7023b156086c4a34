import FpgaPlacer.Proofs.PlacementConsistency
import FpgaPlacer.Proofs.SuccessfulRuns

/-!
# A successful placement is complete and legal

When a placer succeeds on a consistent layout, every cell has a bel of its own,
fixed cells are where their location says, and every other cell that had no bel
has been assigned one.
-/

namespace FpgaPlacer

variable {κ : Type}

namespace Layout

/-- What a successful placement promises, in terms of the layout it started
from. -/
structure CompletelyPlaced (before after : Layout κ) : Prop where
  /-- No cell appears, disappears or changes its type. -/
  types : ∀ cell, (after.design.cells.get? cell).map Cell.cellType =
    (before.design.cells.get? cell).map Cell.cellType
  placed : ∀ {cell record}, after.design.cells.get? cell = some record →
    ∃ bel, record.bel = some bel
  occupant : ∀ {cell record bel}, after.design.cells.get? cell = some record →
    record.bel = some bel → after.fabric.cellAt bel = some cell
  exclusive : ∀ {left right leftRecord rightRecord bel},
    after.design.cells.get? left = some leftRecord →
    after.design.cells.get? right = some rightRecord →
    leftRecord.bel = some bel → rightRecord.bel = some bel → left = right
  /-- A cell with a location attribute is on the bel of that name, which has
  its type. -/
  fixed : ∀ {cell record location}, before.design.cells.get? cell = some record →
    record.attrs.get? before.design.locationKey = some location →
    after.FixedAt cell location
  /-- Another cell that had no bel is on a bel of its type, weakly bound, and
  its location attribute names the bel. -/
  assigned : ∀ {cell record}, before.design.cells.get? cell = some record →
    record.attrs.get? before.design.locationKey = none → record.bel = none →
    after.Settled cell

/-! ## What the assignments add to the constraint pass -/

section Completes

variable {before middle after : Layout κ} {cell : Symbol} {record : Cell}

theorem Completes.types (completes : middle.Completes after) (cell : Symbol) :
    (after.design.cells.get? cell).map Cell.cellType =
      (middle.design.cells.get? cell).map Cell.cellType := by
  obtain ⟨visits, run, -⟩ := completes
  exact run.touches.types cell

theorem Completes.settled (completes : middle.Completes after)
    (seated : middle.Seated)
    (found : middle.design.cells.get? cell = some record)
    (unplaced : record.bel = none) : after.Settled cell := by
  obtain ⟨visits, run, visited⟩ := completes
  have member := (visited cell).mpr ⟨record, found, unplaced⟩
  have owns : ∀ other, True → middle.Owns other :=
    fun other _ => seated.owns other
  exact run.settled (fun _ _ => trivial) owns (.inl member)

theorem Completes.placed (completes : middle.Completes after)
    (seated : middle.Seated)
    (present : after.design.cells.get? cell = some record) :
    ∃ bel, record.bel = some bel := by
  have ⟨visits, run, visited⟩ := completes
  by_cases member : cell ∈ visits
  · obtain ⟨old, found, unplaced⟩ := (visited cell).mp member
    cases completes.settled seated found unplaced with
    | @intro stored bel belType text kept placed =>
        rw [kept] at present
        cases present
        exact ⟨bel, placed⟩
  · rw [run.touches.others cell member] at present
    cases placed : record.bel with
    | none => exact absurd ((visited cell).mpr ⟨record, present, placed⟩) member
    | some bel => exact ⟨bel, rfl⟩

theorem Completes.fixedAt (completes : middle.Completes after)
    {location : String} (fixed : middle.FixedAt cell location) :
    after.FixedAt cell location := by
  obtain ⟨visits, run, visited⟩ := completes
  apply fixed.touches run.touches
  intro member
  obtain ⟨held, bel, -, present, placed, -⟩ := fixed
  obtain ⟨bare, found, unplaced⟩ := (visited cell).mp member
  rw [present] at found
  cases found
  rw [placed] at unplaced
  cases unplaced

/-- The assignments that follow the constraint pass complete the placement. -/
theorem Completes.completelyPlaced {located : List Symbol}
    (completes : middle.Completes after)
    (free : before.fabric.device.AvailableIsFree)
    (consistent : before.Consistent) (final : after.Consistent)
    (pass : Constraints.place before = .ok located middle) :
    CompletelyPlaced before after := by
  obtain ⟨-, fixes⟩ := Constraints.place_ok free pass
  have keeps := Constraints.keeps_place before
  rw [Edit.after_of_ok pass] at keeps
  have seated := (keeps.consistent free consistent).seated
  constructor
  · intro cell
    rw [completes.types]
    exact fixes.touches.types cell
  · intro cell record present
    exact completes.placed seated present
  · intro cell record bel found placed
    exact final.seated.occupant found placed
  · intro left right leftRecord rightRecord bel leftFound rightFound leftBel
      rightBel
    exact final.seated.eq_of_bel leftFound rightFound leftBel rightBel
  · intro cell record location found carries
    have listed := Table.mem_keys_iff.mpr ⟨record, found⟩
    obtain ⟨stored, present, -, arrives⟩ := fixes.located cell listed
    have same : stored = record := Option.some.inj (present.symm.trans found)
    rw [same] at arrives
    exact completes.fixedAt (arrives location carries)
  · intro cell record found carries unplaced
    have listed := Table.mem_keys_iff.mpr ⟨record, found⟩
    obtain ⟨stored, present, answered, -⟩ := fixes.located cell listed
    have same : stored = record := Option.some.inj (present.symm.trans found)
    rw [same] at answered
    have untouched : cell ∉ located := by
      intro member
      exact answered.mp member carries
    have kept := fixes.touches.others cell untouched
    exact completes.settled seated (kept.trans found) unplaced

end Completes

/-- Whichever placer succeeds, the placement is complete and legal. -/
theorem completelyPlaced_of_success [Scalar κ] {before after : Layout κ}
    (free : before.fabric.device.AvailableIsFree)
    (passes : before.check = .ok ()) (rule : LegalityRule κ)
    (options : PlaceOptions)
    (success : FirstFit.place rule before = .ok () after ∨
      Greedy.place rule options before = .ok () after) :
    CompletelyPlaced before after := by
  have consistent := check_eq_ok_iff.mp passes
  rcases success with firstFit | greedy
  · obtain ⟨located, middle, pass, completes⟩ := FirstFit.place_ok free firstFit
    have keeps := FirstFit.keeps_place rule before
    rw [Edit.after_of_ok firstFit] at keeps
    have final := keeps.consistent free consistent
    exact completes.completelyPlaced free consistent final pass
  · obtain ⟨located, middle, pass, completes⟩ := Greedy.place_ok free greedy
    have keeps := Greedy.keeps_place rule options before
    rw [Edit.after_of_ok greedy] at keeps
    have final := keeps.consistent free consistent
    exact completes.completelyPlaced free consistent final pass

/-- Two cells on a device with two bels, the first cell fixed on the second
bel. -/
def halfFixed : Layout Int :=
  let device := (((Grid.empty "g").addBel "B0" "LUT" 0 0).2.addBel
    "B1" "LUT" 1 0).2.device Int
  let (key, layout) := (twoCells device).intern locationAttribute
  let fixed :=
    { Cell.unplaced ⟨1⟩ ⟨2⟩ with attrs := Table.empty.insert key "B1" }
  { layout with design := layout.design.setCell ⟨1⟩ fixed }

/-- The free cell takes the bel that the fixed one leaves. -/
theorem completelyPlaced_of_halfFixed :
    ∃ after, Greedy.place .anyBel .default halfFixed = .ok () after ∧
      after.fabric.cellAt ⟨0⟩ = some ⟨3⟩ ∧
      after.fabric.cellAt ⟨1⟩ = some ⟨1⟩ ∧
      CompletelyPlaced halfFixed after := by
  have free : halfFixed.fabric.device.AvailableIsFree := Grid.availableIsFree _
  have passes : halfFixed.check = .ok () := rfl
  obtain ⟨_, success⟩ := Edit.run_of_isOk
    (by decide +kernel :
      ((Greedy.place .anyBel .default).outcome halfFixed).isOk = true)
  have complete :=
    completelyPlaced_of_success free passes .anyBel .default (.inr success)
  exact ⟨_, success, by decide +kernel, by decide +kernel, complete⟩

end Layout

end FpgaPlacer
