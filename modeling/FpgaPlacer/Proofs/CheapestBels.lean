import FpgaPlacer.Proofs.CostOrders
import FpgaPlacer.Proofs.ImprovementPasses

/-!
# The bel that a cell goes to

`Best` says of a place in a list of priced bels that no bel of the list is cheaper
and that no bel as cheap lies on the side that the tie-break favours.  There is at
most one such place.  The search for the cheapest bel keeps one bel and looks at
the rest of the list once; the bel that it keeps is the best of those that it has
seen, and at the end of all.
-/

namespace FpgaPlacer.Greedy

open Layout

variable {κ : Type} [Scalar κ]

/-- The entries that would be taken in place of one that is as cheap. -/
def favoured {α : Type} (tieBreak : TieBreak) (ahead behind : List α) : List α :=
  match tieBreak with
  | .preferLast => behind
  | .preferFirst => ahead

/-- Among the bels ahead and behind, none is cheaper than the given cost, and none
that is favoured is as cheap. -/
structure Best (tieBreak : TieBreak) (cost : κ) (ahead behind : List (BelId × κ)) :
    Prop where
  least : ∀ other ∈ ahead ++ behind, Scalar.atMost cost other.2 = true
  alone : ∀ other ∈ favoured tieBreak ahead behind,
    Scalar.atMost other.2 cost = false

theorem Best.unique {tieBreak : TieBreak} {first second : BelId × κ}
    {ahead aheadToo behind behindToo : List (BelId × κ)}
    (best : Best tieBreak first.2 ahead behind)
    (bestToo : Best tieBreak second.2 aheadToo behindToo)
    (same : ahead ++ first :: behind = aheadToo ++ second :: behindToo) :
    ahead = aheadToo ∧ first = second ∧ behind = behindToo := by
  have apart {early late : BelId × κ} {before between after : List (BelId × κ)}
      (bestEarly : Best tieBreak early.2 before (between ++ late :: after))
      (bestLate : Best tieBreak late.2 (before ++ early :: between) after) : False := by
    have notDearer := bestEarly.least late (by simp)
    have notDearerToo := bestLate.least early (by simp)
    cases tieBreak with
    | preferLast =>
        have dearer := bestEarly.alone late (by simp [favoured])
        rw [notDearerToo] at dearer
        cases dearer
    | preferFirst =>
        have dearer := bestLate.alone early (by simp [favoured])
        rw [notDearer] at dearer
        cases dearer
  rcases List.append_eq_append_iff.mp same with ⟨between, rfl, rest⟩ | ⟨between, rfl, rest⟩
  · cases between with
    | nil =>
        cases rest
        exact ⟨(List.append_nil ahead).symm, rfl, rfl⟩
    | cons entry between =>
        cases rest
        exact (apart best bestToo).elim
  · cases between with
    | nil =>
        cases rest
        exact ⟨List.append_nil aheadToo, rfl, rfl⟩
    | cons entry between =>
        cases rest
        exact (apart bestToo best).elim

section Search

variable {tieBreak : TieBreak} {best candidate : BelId × κ}
  {ahead between : List (BelId × κ)} {admitted : κ → Prop}

/-- One more bel takes the place of the best so far, or stays behind it. -/
theorem Best.next (ordered : Scalar.Ordered admitted)
    (isBest : Best tieBreak best.2 ahead between)
    (seen : ∀ other ∈ ahead ++ best :: between, admitted other.2)
    (new : admitted candidate.2) :
    if replaces tieBreak candidate.2 best.2 then
      Best tieBreak candidate.2 (ahead ++ best :: between) []
    else Best tieBreak best.2 ahead (between ++ [candidate]) := by
  have here : admitted best.2 := seen best (by simp)
  split
  · rename_i replaced
    have cheaper : Scalar.atMost candidate.2 best.2 = true := by
      cases tieBreak with
      | preferLast => exact replaced
      | preferFirst =>
          have dearer := (ordered.strict new here).mp replaced
          exact (ordered.total new here).resolve_right (by simp [dearer])
    have notDearer : ∀ other ∈ ahead ++ best :: between,
        Scalar.atMost best.2 other.2 = true := by
      intro other member
      rcases List.mem_append.mp member with early | late
      · exact isBest.least other (List.mem_append_left _ early)
      · rcases List.mem_cons.mp late with rfl | late
        · exact or_self_iff.mp (ordered.total here here)
        · exact isBest.least other (List.mem_append_right _ late)
    constructor
    · intro other member
      rw [List.append_nil] at member
      exact ordered.trans new here (seen other member) cheaper
        (notDearer other member)
    · intro other member
      cases tieBreak with
      | preferLast => cases member
      | preferFirst =>
          have dearer := (ordered.strict new here).mp replaced
          refine Bool.eq_false_iff.mpr (fun asCheap => ?_)
          rw [ordered.trans here (seen other member) new (notDearer other member)
            asCheap] at dearer
          cases dearer
  · rename_i kept
    have notDearer : Scalar.atMost best.2 candidate.2 = true := by
      cases tieBreak with
      | preferLast => exact (ordered.total here new).resolve_right kept
      | preferFirst =>
          refine Bool.of_not_eq_false (fun dearer => kept ?_)
          exact (ordered.strict new here).mpr dearer
    constructor
    · intro other member
      rw [← List.append_assoc] at member
      rcases List.mem_append.mp member with old | last
      · exact isBest.least other old
      · rw [List.mem_singleton.mp last]
        exact notDearer
    · intro other member
      cases tieBreak with
      | preferLast =>
          rcases List.mem_append.mp member with old | last
          · exact isBest.alone other old
          · rw [List.mem_singleton.mp last]
            exact Bool.eq_false_iff.mpr kept
      | preferFirst => exact isBest.alone other member

theorem cheapestFrom_best (ordered : Scalar.Ordered admitted)
    (isBest : Best tieBreak best.2 ahead between) {rest : List (BelId × κ)}
    (inside : ∀ other ∈ ahead ++ best :: between ++ rest, admitted other.2) :
    ∃ before after,
      ahead ++ best :: between ++ rest =
          before ++ cheapestFrom tieBreak best rest :: after ∧
        Best tieBreak (cheapestFrom tieBreak best rest).2 before after := by
  induction rest generalizing best ahead between with
  | nil => exact ⟨ahead, between, List.append_nil _, isBest⟩
  | cons candidate rest induction =>
      have next := isBest.next ordered
        (fun other member => inside other (List.mem_append_left _ member))
        (inside candidate (by simp))
      by_cases replaced : replaces tieBreak candidate.2 best.2
      · rw [if_pos replaced] at next
        rw [cheapestFrom, if_pos replaced, List.append_cons]
        rw [List.append_cons] at inside
        exact induction next inside
      · rw [if_neg replaced] at next
        have moved : ahead ++ best :: between ++ candidate :: rest =
            ahead ++ best :: (between ++ [candidate]) ++ rest := by simp
        rw [cheapestFrom, if_neg replaced, moved]
        rw [moved] at inside
        exact induction next inside

end Search

theorem cheapest_best {tieBreak : TieBreak} {offers : List (BelId × κ)} {bel : BelId}
    (ordered : Scalar.Ordered (· ∈ offers.map Prod.snd))
    (chosen : cheapest tieBreak offers = some bel) :
    ∃ cost ahead behind, offers = ahead ++ (bel, cost) :: behind ∧
      Best tieBreak cost ahead behind := by
  cases offers with
  | nil => cases chosen
  | cons first rest =>
      cases chosen
      have alone : Best tieBreak first.2 [] [] := by
        constructor
        · intro other member
          cases member
        · intro other member
          cases tieBreak <;> cases member
      have inside : ∀ other ∈ [] ++ first :: [] ++ rest,
          other.2 ∈ (first :: rest).map Prod.snd :=
        fun other member => List.mem_map_of_mem member
      obtain ⟨ahead, behind, split, best⟩ := cheapestFrom_best ordered alone inside
      exact ⟨_, ahead, behind, split, best⟩

theorem cost_of_mem_withCosts {layout : Layout κ} {fanoutLimit : Nat} {record : Cell}
    {bels : List BelId} {offers : List (BelId × κ)}
    (priced : withCosts layout fanoutLimit record bels = .ok offers) {bel : BelId}
    {price : κ} (offered : (bel, price) ∈ offers) :
    ∃ place, layout.fabric.device.position bel = some place ∧
      cost layout fanoutLimit record place = .ok price := by
  induction bels generalizing offers with
  | nil =>
      cases priced
      cases offered
  | cons first rest induction =>
      obtain ⟨place, asked, priced⟩ := checked_bind_eq_ok_iff.mp priced
      obtain ⟨total, here, priced⟩ := checked_bind_eq_ok_iff.mp priced
      obtain ⟨others, later, answer⟩ := checked_bind_eq_ok_iff.mp priced
      cases answer
      rcases List.mem_cons.mp offered with same | further
      · cases same
        exact ⟨place, Query.ofOption_eq_ok_iff.mp asked, here⟩
      · exact induction later further

section Choice

variable {rule : LegalityRule κ} {options : PlaceOptions} {cell : Symbol}
  {record : Cell} {belType : BelType} {layout : Layout κ}

theorem choose_of_offers {offers : List (BelId × κ)}
    (typed : layout.typeFor record.cellType = .ok belType)
    (priced : withCosts layout options.fanoutLimit record
      (candidates rule layout belType cell) = .ok offers) (some : offers ≠ []) :
    ∃ bel, choose rule options cell record layout = .ok bel ∧
      cheapest options.tieBreak offers = .some bel := by
  cases offers with
  | nil => exact absurd rfl some
  | cons first rest =>
      refine ⟨_, ?_, rfl⟩
      simp only [choose, typed]
      rw [priced]
      rfl

theorem offers_of_choose {bel : BelId}
    (typed : layout.typeFor record.cellType = .ok belType)
    (chosen : choose rule options cell record layout = .ok bel) :
    ∃ offers, withCosts layout options.fanoutLimit record
        (candidates rule layout belType cell) = .ok offers ∧
      cheapest options.tieBreak offers = some bel := by
  simp only [choose, typed] at chosen
  obtain ⟨offers, asked, answer⟩ := checked_bind_eq_ok_iff.mp chosen
  refine ⟨offers, Query.stop_eq_ok_iff.mp asked, ?_⟩
  split at answer
  · rename_i best cheapest
    cases answer
    exact cheapest
  · cases answer

theorem choose_of_no_candidate
    (typed : layout.typeFor record.cellType = .ok belType)
    (none : candidates rule layout belType cell = []) :
    choose rule options cell record layout =
      .error (.failed (.noLegalBel (layout.design.display cell)
        (layout.design.display record.cellType))) := by
  simp only [choose, typed]
  rw [none]
  rfl

/-- A cell for which no bel can be chosen is left without one. -/
theorem placeCell_of_choose_error {stop : Stop DesignError}
    (found : layout.design.cells.get? cell = some record)
    (failed : choose rule options cell record (layout.released cell record) =
      .error stop) :
    placeCell rule options cell layout = .error stop (layout.released cell record) := by
  have ways := placeCell_run rule options cell layout
  generalize placeCell rule options cell layout = result at ways
  cases ways with
  | unknown absent => cases absent.symm.trans found
  | refused foundToo failedToo =>
      cases found.symm.trans foundToo
      cases failed.symm.trans failedToo
      rfl
  | unnamed foundToo chosen nameless =>
      cases found.symm.trans foundToo
      cases failed.symm.trans chosen
  | assigned foundToo chosen named =>
      cases found.symm.trans foundToo
      cases failed.symm.trans chosen

/-- A cell whose type is known goes to the best of the candidates that it has once it
has been released: the design and the device hold it there, it is annotated with the
name of the bel, and the answer tells whether it has moved.  Without a candidate it
stays released. -/
theorem placeCell_goes_to_best {offers : List (BelId × κ)}
    (found : layout.design.cells.get? cell = some record)
    (typed : layout.typeFor record.cellType = .ok belType)
    (priced : withCosts (layout.released cell record) options.fanoutLimit record
      (candidates rule (layout.released cell record) belType cell) = .ok offers)
    (named : ∀ bel ∈ candidates rule (layout.released cell record) belType cell,
      ∃ text, layout.fabric.device.belName bel = some text)
    (ordered : Scalar.Ordered (· ∈ offers.map Prod.snd)) :
    (candidates rule (layout.released cell record) belType cell = [] →
      placeCell rule options cell layout =
        .error (.failed (.noLegalBel (layout.design.display cell)
          (layout.design.display record.cellType))) (layout.released cell record)) ∧
    (candidates rule (layout.released cell record) belType cell ≠ [] →
      ∃ bel cost ahead behind text after,
        offers = ahead ++ (bel, cost) :: behind ∧
        Best options.tieBreak cost ahead behind ∧
        layout.fabric.device.belName bel = some text ∧
        placeCell rule options cell layout =
          .ok (decide (record.bel ≠ some bel)) after ∧
        after.design.cells.get? cell =
          some { record with
            bel := some bel, strength := .weak
            attrs := record.attrs.insert after.design.locationKey text } ∧
        after.fabric.occupancy.bels.get? bel = some ⟨cell, .weak⟩) := by
  have bels := bels_withCosts priced
  have typedToo : (layout.released cell record).typeFor record.cellType =
      .ok belType := typed
  constructor
  · intro none
    exact placeCell_of_choose_error found (choose_of_no_candidate typedToo none)
  · intro some
    have offered : offers ≠ [] := fun none => some (by rw [← bels, none]; rfl)
    obtain ⟨bel, chosen, cheapest⟩ := choose_of_offers typedToo priced offered
    obtain ⟨cost, ahead, behind, split, best⟩ := cheapest_best ordered cheapest
    obtain ⟨text, called⟩ := named bel (bels ▸ cheapest_mem cheapest)
    have key := layout.design.locationKey_intern
    refine ⟨bel, cost, ahead, behind, text,
      layout.assigned cell record bel .weak text, split, best, called, ?_, ?_, ?_⟩
    · exact placeCell_eq_ok_iff.mpr
        ⟨record, bel, text, found, chosen, called, rfl, rfl⟩
    · rw [get?_cells_assigned, if_pos rfl, ← key]
      rfl
    · rw [get?_bels_assigned, if_pos rfl]

end Choice

def rowOfFour : Grid :=
  { Grid.empty "g" with
    typeNames := ["LUT"]
    bels := #[⟨"B0", ⟨0⟩, 0, 0, []⟩, ⟨"B1", ⟨0⟩, 1, 0, []⟩, ⟨"B2", ⟨0⟩, 2, 0, []⟩,
      ⟨"B3", ⟨0⟩, 4, 0, []⟩] }

/-- A cell on the last bel that is connected to one on the second. -/
def connectedPair : Layout Float32 :=
  GraphCall.run
    [.createCell "a" "LUT", .createCell "b" "LUT", .createNet "n",
      .addPort ⟨1⟩ "O" .output, .addPort ⟨3⟩ "I" .input,
      .connectPort ⟨4⟩ ⟨1⟩ ⟨5⟩, .connectPort ⟨4⟩ ⟨3⟩ ⟨6⟩,
      .bindBel ⟨1⟩ ⟨3⟩ .weak, .bindBel ⟨3⟩ ⟨1⟩ .weak]
    (.fresh (rowOfFour.device Float32))

def connectedCell : Cell :=
  (connectedPair.design.cells.get? ⟨1⟩).getD (.unplaced ⟨1⟩ ⟨2⟩)

/-- The bels to both sides of the other cell are as cheap, the cell's own is dearer;
the first bel is preferred here. -/
theorem placeCell_goes_to_best_of_connectedPair :
    ∃ after, placeCell .anyBel ⟨0, false, 2, .preferFirst⟩ ⟨1⟩ connectedPair =
        .ok true after ∧
      after.fabric.cellAt ⟨0⟩ = some ⟨1⟩ := by
  have found : connectedPair.design.cells.get? ⟨1⟩ = some connectedCell := by
    have present : (connectedPair.design.cells.get? ⟨1⟩).isSome = true := by
      decide +kernel
    obtain ⟨record, found⟩ := Option.isSome_iff_exists.mp present
    rw [connectedCell, found]
    rfl
  have typed : connectedPair.typeFor connectedCell.cellType = .ok ⟨0⟩ := by
    decide +kernel
  have offered : candidates .anyBel (connectedPair.released ⟨1⟩ connectedCell) ⟨0⟩
      ⟨1⟩ = [⟨0⟩, ⟨2⟩, ⟨3⟩] := by
    decide +kernel
  have priced : withCosts (connectedPair.released ⟨1⟩ connectedCell) 2 connectedCell
      (candidates .anyBel (connectedPair.released ⟨1⟩ connectedCell) ⟨0⟩ ⟨1⟩) =
        .ok [(⟨0⟩, 1.0), (⟨2⟩, 1.0), (⟨3⟩, 3.0)] := by
    decide +kernel
  have numbers : ∀ cost ∈ [(1.0 : Float32), 1.0, 3.0], cost.isNaN = false := by
    decide +kernel
  have named : ∀ bel ∈ candidates .anyBel
      (connectedPair.released ⟨1⟩ connectedCell) ⟨0⟩ ⟨1⟩,
      ∃ text, connectedPair.fabric.device.belName bel = some text := by
    intro bel offer
    obtain ⟨-, fits, -⟩ := mem_candidates_iff.mp offer
    exact (Grid.described rowOfFour).name fits
  have best : Best .preferFirst ((⟨0⟩, 1.0) : BelId × Float32).2 []
      [(⟨2⟩, 1.0), (⟨3⟩, 3.0)] := by
    constructor
    · decide +kernel
    · decide +kernel
  have ordered : Scalar.Ordered (· ∈ [(1.0 : Float32), 1.0, 3.0]) :=
    Scalar.ordered_float32.mono (fun member => numbers _ member)
  obtain ⟨-, placed⟩ :=
    @placeCell_goes_to_best _ _ _ ⟨0, false, 2, .preferFirst⟩ _ _ _ _ _ found typed
      priced named ordered
  rw [offered] at placed
  obtain ⟨bel, cost, ahead, behind, text, after, split, bestToo, -, run, -, held⟩ :=
    placed nofun
  have bestToo : Best .preferFirst (bel, cost).2 ahead behind := bestToo
  obtain ⟨-, same, -⟩ := best.unique bestToo split
  cases same
  refine ⟨after, ?_, ?_⟩
  · rw [run]
    have moved : decide (connectedCell.bel ≠ some ⟨0⟩) = true := by decide +kernel
    rw [moved]
  · exact Option.map_eq_some_iff.mpr ⟨_, held, rfl⟩

end FpgaPlacer.Greedy
