import FpgaPlacer.Proofs.CheapestBels
import FpgaPlacer.Proofs.PlacementFrame
import FpgaPlacer.Proofs.WiringLength

/-!
# Improvement passes never make the wiring longer

A cell that is placed again takes its share out of the length of the wiring and puts
the least share back that a candidate offers.  The bel that it has just left is one of
the candidates, so the length does not grow.  What this relies on is kept by every such
call, and therefore holds throughout the improvement passes, in whatever order they
place the cells again.
-/

namespace FpgaPlacer

namespace Layout

/-! ## Moves within a design -/

section SameDesign

variable {κ : Type}

theorem SameDesign.trans {one two three : Layout κ} (first : SameDesign one two)
    (second : SameDesign two three) : SameDesign one three := by
  have key := Design.locationKey_congr first.names
  refine ⟨second.device.trans first.device, second.names.trans first.names,
    second.nets.trans first.nets, ?_⟩
  intro cell
  have later := second.cells cell
  rw [key] at later
  exact later.trans (first.cells cell)

theorem Chain.sameDesign {picks : Picks κ} {cells : List Symbol}
    {before after : Layout κ} (run : Chain picks cells before after)
    (knows : before.design.KnowsLocation) : SameDesign before after := by
  induction run with
  | nil layout => exact ⟨rfl, rfl, rfl, fun _ => rfl⟩
  | draw random rest induction =>
      exact (sameDesign_withRandom _ random).trans (induction knows)
  | cons move rest induction =>
      have later := induction ((move.touches knows).knows knows)
      cases move with
      | intro found picked named =>
          exact (sameDesign_assigned knows found).trans later

end SameDesign

/-! ## One cell placed again -/

variable {layout seated : Layout Int} {cell : Symbol} {record : Cell} {bel : BelId}
  {position : Position Int}

/-- A layout in which a cell has been put on a bel, compared with the one in which it
has been released. -/
theorem seats_released (nets : seated.design.nets = layout.design.nets)
    (device : seated.fabric.device = layout.fabric.device)
    (others : ∀ other, other ≠ cell →
      seated.design.cells.get? other = layout.design.cells.get? other)
    (placed : seated.design.belOf (some cell) = some bel)
    (known : layout.fabric.device.position bel = some position) :
    Seats cell position (layout.released cell record) seated := by
  constructor
  · exact nets
  · intro netEnd here
    constructor
    · have stored := get?_cells_released layout cell cell record
      rw [if_pos rfl] at stored
      rw [endPosition, here, Design.belOf_of_found stored]
      rfl
    · rw [endPosition, here, placed, device]
      exact known
  · intro netEnd elsewhere
    have same : seated.design.belOf netEnd.cell =
        (layout.released cell record).design.belOf netEnd.cell := by
      cases named : netEnd.cell with
      | none => rfl
      | some other =>
          have different : other ≠ cell := fun same => elsewhere (same ▸ named)
          have stored := get?_cells_released layout cell other record
          rw [if_neg different, ← others other different] at stored
          exact congrArg (fun found => found.bind Cell.bel) stored.symm
    rw [endPosition, endPosition, same, device]
    rfl

end Layout

open Layout

namespace Greedy

variable {rule : LegalityRule Int} {options : PlaceOptions}

theorem matched_released {layout : Layout Int} {cell : Symbol} {record : Cell}
    (found : layout.design.cells.get? cell = some record)
    (matched : layout.design.Matched) :
    (layout.released cell record).design.Matched :=
  matched.of_same rfl (Design.portAt_setCell_same found rfl)

/-- Where the cell is on one of the bels that were priced for it, the wiring is longer
by the price than without the cell. -/
theorem wiringLength_of_offer {layout : Layout Int} {cell : Symbol} {record : Cell}
    {fanoutLimit : Nat} {bels : List BelId} {offers : List (BelId × Int)} {bel : BelId}
    {price : Int} (found : layout.design.cells.get? cell = some record)
    (matched : layout.design.Matched) (sparse : layout.design.Sparse fanoutLimit)
    (priced : withCosts (layout.released cell record) fanoutLimit record bels =
      .ok offers)
    (offer : (bel, price) ∈ offers) (seated : Layout Int)
    (nets : seated.design.nets = layout.design.nets)
    (device : seated.fabric.device = layout.fabric.device)
    (others : ∀ other, other ≠ cell →
      seated.design.cells.get? other = layout.design.cells.get? other)
    (placed : seated.design.belOf (some cell) = some bel) :
    seated.wiringLength = (layout.released cell record).wiringLength + price := by
  obtain ⟨place, known, costs⟩ := cost_of_mem_withCosts priced offer
  have stored := get?_cells_released layout cell cell record
  rw [if_pos rfl] at stored
  rw [cost_eq_share (matched_released found matched) sparse stored rfl costs]
  exact (seats_released nets device others placed known).wiringLength

/-- A secure cell that is placed again makes the wiring no longer. -/
theorem wiringLength_placeCell_le (ignores : rule.IgnoresPlacement)
    {layout after : Layout Int} {cell : Symbol} {moved : Bool}
    (matched : layout.design.Matched) (sparse : layout.design.Sparse options.fanoutLimit)
    (secure : Secure rule options.fanoutLimit layout cell)
    (run : placeCell rule options cell layout = .ok moved after) :
    after.wiringLength ≤ layout.wiringLength := by
  obtain ⟨record, old, belType, found, placed, typed, offered, -⟩ :=
    secure.offered ignores
  obtain ⟨_, bel, text, foundToo, chosen, named, -, rfl⟩ := placeCell_eq_ok_iff.mp run
  cases found.symm.trans foundToo
  obtain ⟨offers, priced, cheapest⟩ := offers_of_choose typed chosen
  obtain ⟨price, ahead, behind, split, best⟩ :=
    cheapest_best (Scalar.ordered_int _) cheapest
  rw [← bels_withCosts priced] at offered
  obtain ⟨⟨_, oldPrice⟩, oldOffer, rfl⟩ := List.mem_map.mp offered
  have newOffer : (bel, price) ∈ offers := by simp [split]
  have cheaper : price ≤ oldPrice := by
    rw [split, List.mem_append, List.mem_cons] at oldOffer
    rcases oldOffer with early | same | late
    · exact of_decide_eq_true (best.least _ (List.mem_append_left _ early))
    · cases same
      exact Int.le_refl _
    · exact of_decide_eq_true (best.least _ (List.mem_append_right _ late))
  have here := get?_cells_assigned layout cell cell record bel .weak text
  rw [if_pos rfl] at here
  have elsewhere : ∀ other, other ≠ cell →
      (layout.assigned cell record bel .weak text).design.cells.get? other =
        layout.design.cells.get? other := by
    intro other different
    rw [get?_cells_assigned, if_neg different]
  calc
    (layout.assigned cell record bel .weak text).wiringLength =
        (layout.released cell record).wiringLength + price :=
      wiringLength_of_offer found matched sparse priced newOffer _ rfl rfl elsewhere
        (Design.belOf_of_found here)
    _ ≤ (layout.released cell record).wiringLength + oldPrice :=
      Int.add_le_add_left cheaper _
    _ = layout.wiringLength :=
      (wiringLength_of_offer found matched sparse priced oldOffer layout rfl rfl
        (fun _ _ => rfl) ((Design.belOf_of_found found).trans placed)).symm

/-! ## Passes -/

/-- What the improvement passes over some cells rely on. -/
structure Improvable (rule : LegalityRule Int) (options : PlaceOptions)
    (cells : List Symbol) (layout : Layout Int) : Prop where
  workable : Workable layout
  secure : ∀ cell ∈ cells, Secure rule options.fanoutLimit layout cell
  matched : layout.design.Matched
  sparse : layout.design.Sparse options.fanoutLimit

/-- The improvement passes over some cells come to place a cell again in the layout
that they have reached by then. -/
inductive CalledIn (rule : LegalityRule Int) (options : PlaceOptions) :
    Nat → List Symbol → Layout Int → Symbol → Layout Int → Prop where
  | now {passes : Nat} {cells done rest : List Symbol} {cell : Symbol}
      {layout drawn reached : Layout Int}
      (shuffle : shuffled cells layout = .ok (done ++ cell :: rest) drawn)
      (earlier : Replaces rule options done drawn reached) :
      CalledIn rule options (passes + 1) cells layout cell reached
  | later {passes moved : Nat} {cells order : List Symbol} {cell : Symbol}
      {layout drawn next reached : Layout Int}
      (shuffle : shuffled cells layout = .ok order drawn)
      (pass : replaceAll rule options order drawn = .ok moved next)
      (unstable : (options.stopWhenStable && moved == 0) = false)
      (call : CalledIn rule options passes order next cell reached) :
      CalledIn rule options (passes + 1) cells layout cell reached

namespace Improvable

variable {cells : List Symbol} {layout : Layout Int}
  (improvable : Improvable rule options cells layout)

include improvable

theorem withRandom (ignores : rule.IgnoresPlacement) (random : Generator) :
    Improvable rule options cells (layout.withRandom random) where
  workable := improvable.workable.withRandom random
  secure cell member := (improvable.secure cell member).withRandom ignores random
  matched := improvable.matched.of_same rfl (fun _ _ => rfl)
  sparse := improvable.sparse

theorem chain (ignores : rule.IgnoresPlacement) {visits : List Symbol}
    {after : Layout Int} (run : Chain (picks rule options) visits layout after) :
    Improvable rule options cells after := by
  have workable := improvable.workable
  have same := run.sameDesign workable.knows
  refine ⟨workable.touches (run.touches workable.knows), ?_, ?_, ?_⟩
  · intro cell member
    exact Secure.chain ignores run workable (.inr (improvable.secure cell member))
  · exact improvable.matched.of_unseated same.nets same.cells
  · intro key net known
    rw [same.nets] at known
    exact improvable.sparse known

/-- The listed cells are placed again, and the wiring is no longer for it. -/
theorem replaces (ignores : rule.IgnoresPlacement) {order : List Symbol}
    {after : Layout Int} (run : Replaces rule options order layout after)
    (inside : ∀ cell ∈ order, cell ∈ cells) :
    Improvable rule options cells after ∧
      after.wiringLength ≤ layout.wiringLength := by
  induction run with
  | nil layout => exact ⟨improvable, Int.le_refl _⟩
  | @cons cell rest before middle after moved first later induction =>
      rw [List.forall_mem_cons] at inside
      have here := wiringLength_placeCell_le ignores improvable.matched
        improvable.sparse (improvable.secure cell inside.1) first
      have single : Chain (picks rule options) [cell] before middle :=
        .cons (moves_of_placeCell first) (.nil middle)
      obtain ⟨kept, further⟩ := induction (improvable.chain ignores single) inside.2
      exact ⟨kept, further.trans here⟩

theorem shuffles (ignores : rule.IgnoresPlacement) {listed order : List Symbol}
    {drawn : Layout Int} (shuffle : shuffled listed layout = .ok order drawn)
    (inside : ∀ cell ∈ listed, cell ∈ cells) :
    Improvable rule options cells drawn ∧
      drawn.wiringLength = layout.wiringLength ∧ ∀ cell ∈ order, cell ∈ cells := by
  obtain ⟨_, random, run, members⟩ := shuffled_ok listed layout
  cases shuffle.symm.trans run
  refine ⟨improvable.withRandom ignores random, rfl, ?_⟩
  exact fun cell member => inside cell ((members cell).mp member)

theorem improves (ignores : rule.IgnoresPlacement) {passes : Nat}
    {listed : List Symbol} {orders : List (List Symbol)} {after : Layout Int}
    (run : Improves rule options passes listed layout orders (.ok () after))
    (inside : ∀ cell ∈ listed, cell ∈ cells) :
    after.wiringLength ≤ layout.wiringLength := by
  generalize ended : EStateM.Result.ok () after = result at run
  induction run with
  | spent listed layout =>
      cases ended
      exact Int.le_refl _
  | stopped => cases ended
  | stable shuffle pass stops =>
      cases ended
      obtain ⟨ready, same, still⟩ := improvable.shuffles ignores shuffle inside
      exact same ▸ (ready.replaces ignores pass still).2
  | next shuffle pass rest induction =>
      obtain ⟨ready, same, still⟩ := improvable.shuffles ignores shuffle inside
      obtain ⟨kept, shorter⟩ := ready.replaces ignores pass still
      exact (induction kept still ended).trans (same ▸ shorter)

/-- Whenever a cell is placed again, the passes can rely on the same. -/
theorem called (ignores : rule.IgnoresPlacement) {passes : Nat} {listed : List Symbol}
    {cell : Symbol} {reached : Layout Int}
    (call : CalledIn rule options passes listed layout cell reached)
    (inside : ∀ cell ∈ listed, cell ∈ cells) :
    cell ∈ cells ∧ Improvable rule options cells reached := by
  induction call with
  | now shuffle earlier =>
      obtain ⟨ready, -, still⟩ := improvable.shuffles ignores shuffle inside
      rw [List.forall_mem_append, List.forall_mem_cons] at still
      exact ⟨still.2.1, (ready.replaces ignores earlier still.1).1⟩
  | later shuffle pass unstable call induction =>
      obtain ⟨ready, -, still⟩ := improvable.shuffles ignores shuffle inside
      exact induction
        (ready.replaces ignores (replaces_of_replaceAll pass) still).1 still

end Improvable

theorem improvable_of_start (ignores : rule.IgnoresPlacement)
    {before begun : Layout Int} {placed : List Symbol}
    (own : before.fabric.device.OwnAvailability)
    (described : before.fabric.device.Described)
    (matched : before.design.Matched)
    (sparse : before.design.Sparse options.fanoutLimit)
    (run : start rule options before = .ok placed begun) :
    Improvable rule options placed begun := by
  obtain ⟨workable, secure⟩ := start_secure ignores own described run
  obtain ⟨located, middle, pass, run⟩ := Edit.bind_eq_ok_iff.mp run
  rw [Edit.bind_get] at run
  obtain ⟨knows, -⟩ := Constraints.place_fixes pass
  obtain ⟨chain, -⟩ := placeUnplaced_chain (Table.nodup_keys _) run
  have relocates := Constraints.relocates_place before
  rw [Edit.after_of_ok pass] at relocates
  have same := chain.sameDesign knows
  have fixed := matched.of_unseated relocates.nets relocates.cells
  refine ⟨workable, secure, fixed.of_unseated same.nets same.cells, ?_⟩
  intro key net known
  rw [same.nets, relocates.nets] at known
  exact sparse known

/-- Whenever an improvement pass places a cell again, this succeeds and makes the wiring
no longer.  So the passes end, however many there are, with wiring that is no longer
than after the first placement. -/
theorem passes_shorten_wiring (ignores : rule.IgnoresPlacement)
    {before begun : Layout Int} {placed : List Symbol}
    (own : before.fabric.device.OwnAvailability)
    (described : before.fabric.device.Described)
    (matched : before.design.Matched)
    (sparse : before.design.Sparse options.fanoutLimit)
    (begins : start rule options before = .ok placed begun) :
    (∀ cell reached,
      CalledIn rule options options.improvementPasses placed begun cell reached →
      ∃ moved after, placeCell rule options cell reached = .ok moved after ∧
        after.wiringLength ≤ reached.wiringLength) ∧
    ∃ after, place rule options before = .ok () after ∧
      after.wiringLength ≤ begun.wiringLength := by
  have improvable := improvable_of_start ignores own described matched sparse begins
  have listed : ∀ cell ∈ placed, cell ∈ placed := fun _ member => member
  constructor
  · intro cell reached call
    obtain ⟨member, ready⟩ := improvable.called ignores call listed
    have secure := ready.secure cell member
    obtain ⟨moved, after, run⟩ := placeCell_of_secure ignores ready.workable secure
    exact ⟨moved, after, run,
      wiringLength_placeCell_le ignores ready.matched ready.sparse secure run⟩
  · obtain ⟨after, improved⟩ := improve_of_secure ignores improvable.workable
      improvable.secure options.improvementPasses
    obtain ⟨orders, passes, -⟩ :=
      improve_improves rule options options.improvementPasses placed begun
    rw [improved] at passes
    refine ⟨after, ?_, improvable.improves ignores passes listed⟩
    rw [place_eq_start, Edit.bind_of_ok begins]
    exact improved

/-- Four bels in a row, with gaps that grow. -/
def gappedRow : Grid :=
  { Grid.empty "g" with
    typeNames := ["LUT"]
    bels := #[⟨"B0", ⟨0⟩, 0, 0, []⟩, ⟨"B1", ⟨0⟩, 1, 0, []⟩, ⟨"B2", ⟨0⟩, 9, 0, []⟩,
      ⟨"B3", ⟨0⟩, 20, 0, []⟩] }

/-- Three cells in a line, of which the last is on the third bel. -/
def lineOfThree : Layout Int :=
  GraphCall.run
    [.createCell "a" "LUT", .createCell "b" "LUT", .createCell "z" "LUT",
      .createNet "n", .createNet "m",
      .addPort ⟨1⟩ "O" .output, .addPort ⟨3⟩ "I" .input,
      .addPort ⟨3⟩ "O" .output, .addPort ⟨4⟩ "I" .input,
      .connectPort ⟨5⟩ ⟨1⟩ ⟨7⟩, .connectPort ⟨5⟩ ⟨3⟩ ⟨8⟩,
      .connectPort ⟨6⟩ ⟨3⟩ ⟨7⟩, .connectPort ⟨6⟩ ⟨4⟩ ⟨8⟩,
      .bindBel ⟨4⟩ ⟨2⟩ .weak]
    (.fresh (gappedRow.device Int))

/-- Two passes, whether or not the first one moves a cell. -/
def twoPasses : PlaceOptions := ⟨2, false, 16, .preferLast⟩

theorem matched_lineOfThree : lineOfThree.design.Matched := by
  have start : Reachable (gappedRow.device Int) (.fresh (gappedRow.device Int)) :=
    .fresh
  have cells := ((start.step (.createCell "a" "LUT") trivial).step
    (.createCell "b" "LUT") trivial).step (.createCell "z" "LUT") trivial
  have nets := (cells.step (.createNet "n") trivial).step (.createNet "m") trivial
  have first := nets.step (.addPort ⟨1⟩ "O" .output) (fun _ present => nomatch present)
  have second := first.step (.addPort ⟨3⟩ "I" .input) (fun _ present => nomatch present)
  have third := second.step (.addPort ⟨3⟩ "O" .output) (fun _ present => nomatch present)
  have fourth := third.step (.addPort ⟨4⟩ "I" .input) (fun _ present => nomatch present)
  have joined := (((fourth.step (.connectPort ⟨5⟩ ⟨1⟩ ⟨7⟩) trivial).step
    (.connectPort ⟨5⟩ ⟨3⟩ ⟨8⟩) trivial).step (.connectPort ⟨6⟩ ⟨3⟩ ⟨7⟩) trivial).step
    (.connectPort ⟨6⟩ ⟨4⟩ ⟨8⟩) trivial
  have placed := joined.step (.bindBel ⟨4⟩ ⟨2⟩ .weak) (.inl rfl)
  exact placed.sound.reciprocal.matched

/-- The first cell is placed far from its later neighbour, and moves towards it in the
first pass. -/
theorem passes_shorten_wiring_of_lineOfThree :
    ∃ begun, start .anyBel twoPasses lineOfThree = .ok [⟨1⟩, ⟨3⟩] begun ∧
      begun.wiringLength = 27 ∧
      (∃ cell reached,
        CalledIn .anyBel twoPasses 2 [⟨1⟩, ⟨3⟩] begun cell reached ∧
        ∃ moved after, placeCell .anyBel twoPasses cell reached = .ok moved after ∧
          after.wiringLength ≤ reached.wiringLength) ∧
      ∃ after, place .anyBel twoPasses lineOfThree = .ok () after ∧
        after.wiringLength = 9 ∧ after.wiringLength ≤ begun.wiringLength := by
  have own : lineOfThree.fabric.device.OwnAvailability :=
    (Grid.localAvailability gappedRow).ownAvailability
  have described : lineOfThree.fabric.device.Described := Grid.described gappedRow
  have sparse : lineOfThree.design.Sparse twoPasses.fanoutLimit := by
    have few : ∀ entry ∈ lineOfThree.design.nets.toList,
        entry.2.users.length < twoPasses.fanoutLimit := by
      decide +kernel
    exact fun key net known => few (key, net) (Table.mem_toList_iff.mpr known)
  have ignores : LegalityRule.IgnoresPlacement (.anyBel : LegalityRule Int) :=
    fun _ _ _ => rfl
  have listed : (start .anyBel twoPasses).outcome lineOfThree = .ok [⟨1⟩, ⟨3⟩] := by
    decide +kernel
  have long : ((start .anyBel twoPasses).after lineOfThree).wiringLength = 27 := by
    decide +kernel
  have short : ((place .anyBel twoPasses).after lineOfThree).wiringLength = 9 := by
    decide +kernel
  have begins := Edit.outcome_eq_ok listed
  obtain ⟨calls, after, run, shorter⟩ :=
    passes_shorten_wiring ignores own described matched_lineOfThree sparse begins
  refine ⟨_, begins, long, ?_, after, run, ?_, shorter⟩
  · obtain ⟨order, drawn, shuffle, same⟩ := shuffled_perm [⟨1⟩, ⟨3⟩]
      ((start .anyBel twoPasses).after lineOfThree)
    cases order with
    | nil => cases same.length_eq
    | cons cell rest =>
        have call : CalledIn .anyBel twoPasses 2 [⟨1⟩, ⟨3⟩]
            ((start .anyBel twoPasses).after lineOfThree) cell drawn :=
          .now shuffle (.nil drawn)
        exact ⟨cell, drawn, call, calls cell drawn call⟩
  · rw [Edit.after_of_ok run] at short
    exact short

end Greedy

end FpgaPlacer
