import FpgaPlacer.Proofs.CompletePlacement

/-!
# Placing a placed design again

Whatever put a cell on its bel, a location attribute names that bel afterwards:
the constraint pass reads the attribute, and a placer writes it.  So a later run
finds every located cell in place and no cell left to place, and it changes
nothing, whichever placer it is.
-/

namespace FpgaPlacer

variable {κ : Type}

/-- The name of each enumerated bel looks up to that bel. -/
def Device.NamesResolve (device : Device κ) : Prop :=
  ∀ bel ∈ device.bels, ∀ text, device.belName bel = some text →
    device.belNamed text = some bel

theorem Grid.namesResolve [Scalar κ] {grid : Grid}
    (distinct : (grid.bels.toList.map GridBel.name).Nodup) :
    (grid.device κ).NamesResolve := by
  intro bel _ text named
  obtain ⟨record, there, rfl⟩ := Option.map_eq_some_iff.mp named
  obtain ⟨known, same⟩ := Array.getElem?_eq_some_iff.mp there
  have back : grid.bels.size - 1 - (grid.bels.size - 1 - bel.toNat) =
      bel.toNat := by omega
  have fromEnd : (grid.bels.toList.map GridBel.name).reverse.idxOf? record.name =
      some (grid.bels.size - 1 - bel.toNat) := by
    rw [List.idxOf?_eq_some_iff]
    refine ⟨by simp; omega, by simp [List.getElem_reverse, back, same], ?_⟩
    intro place earlier shared
    have apart : grid.bels[bel.toNat].name ≠
        grid.bels[grid.bels.size - 1 - place].name := by
      have differs := List.pairwise_iff_getElem.mp distinct bel.toNat
        (grid.bels.size - 1 - place) (by simpa using known) (by simp; omega)
        (by omega)
      simpa using differs
    apply apart
    rw [same]
    simpa [List.getElem_reverse] using shared.symm
  change (List.idxOf? record.name _).map _ = some bel
  rw [fromEnd, Option.map_some, List.length_map, Array.length_toList, back, Handle.ofNat_toNat]

namespace Layout

/-- Every cell with a location attribute is on the bel that it names. -/
structure Anchored (layout : Layout κ) : Prop where
  resolves : layout.fabric.device.NamesResolve
  knows : layout.design.KnowsLocation
  fixed : ∀ {cell record location}, layout.design.cells.get? cell = some record →
    record.attrs.get? layout.design.locationKey = some location →
    layout.FixedAt cell location

def AllPlaced (layout : Layout κ) : Prop :=
  ∀ cell record, layout.design.cells.get? cell = some record → record.bel ≠ none

/-- A picked bel is enumerated and has the type of the cell. -/
def Picks.OfType (picks : Picks κ) : Prop :=
  ∀ {layout : Layout κ} {cell record bel}, picks layout cell record bel →
    bel ∈ layout.fabric.device.bels ∧
      ∃ belType, layout.typeFor record.cellType = .ok belType ∧
        layout.fabric.device.belType bel = some belType

theorem Anchored.withRandom {layout : Layout κ} (anchored : layout.Anchored)
    (random : Generator) : (layout.withRandom random).Anchored :=
  ⟨anchored.resolves, anchored.knows, anchored.fixed⟩

/-- The cell that moves is annotated with the name of its new bel; the others
stay where they are. -/
theorem Anchored.moves {picks : Picks κ} (ofType : picks.OfType) {cell : Symbol}
    {before after : Layout κ} (anchored : before.Anchored)
    (move : Moves picks cell before after) : after.Anchored := by
  have touches := move.touches anchored.knows
  refine ⟨?_, touches.knows anchored.knows, ?_⟩
  · rw [touches.device]
    exact anchored.resolves
  · intro other record location present located
    rw [touches.locationKey] at located
    by_cases same : other = cell
    · subst same
      cases move with
      | @intro held bel text found picked named =>
          obtain ⟨enumerated, belType, typed, fits⟩ := ofType picked
          have stored := present
          rw [get?_cells_assigned, if_pos rfl] at present
          cases present
          rw [Table.get?_insert, if_pos rfl] at located
          cases located
          refine ⟨_, bel, belType, stored, rfl, ?_, ?_, fits⟩
          · exact anchored.resolves bel enumerated location named
          · rw [touches.typeFor]
            exact typed
    · rw [touches.others other (mt List.mem_singleton.mp same)] at present
      apply (anchored.fixed present located).touches touches
      exact mt List.mem_singleton.mp same

theorem Finishes.allPlaced {picks : Picks κ} {before after : Layout κ}
    (finishes : Finishes picks before after) (knows : before.design.KnowsLocation) :
    after.AllPlaced := by
  obtain ⟨visits, run, visited⟩ := finishes
  intro cell record present
  obtain ⟨old, found, -⟩ := (run.touches knows).found present
  have placed : (after.design.belOf (some cell)).isSome = true := by
    rw [run.placed_iff, visited, Design.belOf_of_found found]
    by_cases bare : old.bel = none
    · exact .inl ⟨old, found, bare⟩
    · exact .inr (Option.isSome_iff_ne_none.mpr bare)
  rw [Design.belOf_of_found present] at placed
  exact Option.isSome_iff_ne_none.mp placed

theorem Finishes.anchored {picks : Picks κ} {before after : Layout κ}
    (finishes : Finishes picks before after) (ofType : picks.OfType)
    (anchored : before.Anchored) : after.Anchored := by
  obtain ⟨visits, run, -⟩ := finishes
  exact run.keeps (fun random holds => holds.withRandom random)
    (fun holds move => holds.moves ofType move) anchored

end Layout

open Layout

/-! ## Where the first run ends -/

namespace Constraints

theorem placeCell_attrs {key cell : Symbol} {before after : Layout κ}
    {placed : Bool} (run : placeCell key cell before = .ok placed after)
    (query : Symbol) :
    (after.design.cells.get? query).map Cell.attrs =
      (before.design.cells.get? query).map Cell.attrs := by
  have ways := placeCell_run key cell before
  rw [run] at ways
  cases ways with
  | unlocated => rfl
  | kept => rfl
  | moved found located aimed vacant =>
      rw [get?_cells_bound]
      split
      · rename_i same
        rw [same, found]
        rfl
      · rfl

theorem placeCells_attrs {key : Symbol} {cells placed : List Symbol}
    {before after : Layout κ}
    (run : placeCells key cells before = .ok placed after) (query : Symbol) :
    (after.design.cells.get? query).map Cell.attrs =
      (before.design.cells.get? query).map Cell.attrs := by
  induction cells generalizing placed before with
  | nil =>
      cases run
      rfl
  | cons cell rest induction =>
      obtain ⟨here, middle, first, run⟩ := Edit.bind_eq_ok_iff.mp run
      obtain ⟨others, reached, second, run⟩ := Edit.bind_eq_ok_iff.mp run
      cases run
      rw [induction second, placeCell_attrs first]

theorem place_anchored {before after : Layout κ} {placed : List Symbol}
    (resolves : before.fabric.device.NamesResolve)
    (run : place before = .ok placed after) : after.Anchored := by
  obtain ⟨knows, fixes⟩ := place_fixes run
  refine ⟨?_, knows, ?_⟩
  · rw [fixes.touches.device]
    exact resolves
  · intro cell record location present located
    obtain ⟨old, found, -⟩ := fixes.touches.found present
    have listed : cell ∈ before.design.cells.keys :=
      Table.mem_keys_iff.mpr ⟨old, found⟩
    obtain ⟨held, stored, -, arrives⟩ := fixes.located cell listed
    apply arrives location
    have kept := placeCells_attrs run cell
    rw [present] at kept
    have sameAttrs : record.attrs = held.attrs :=
      Option.some.inj (kept.trans (congrArg (Option.map Cell.attrs) stored))
    rw [← sameAttrs]
    rw [fixes.touches.locationKey] at located
    have sameKey := before.design.locationKey_intern
    exact sameKey ▸ located

end Constraints

theorem FirstFit.picks_ofType (rule : LegalityRule κ) :
    (FirstFit.picks rule).OfType := by
  intro layout cell record bel picked
  obtain ⟨belType, typed, enumerated, admitted⟩ := picked
  simp only [admits, Bool.and_eq_true, decide_eq_true_eq] at admitted
  exact ⟨enumerated, belType, typed, admitted.1.1⟩

theorem Greedy.picks_ofType [Scalar κ] (rule : LegalityRule κ)
    (options : PlaceOptions) : (Greedy.picks rule options).OfType := by
  intro layout cell record bel picked
  obtain ⟨belType, typed, candidate⟩ := candidate_of_choose picked
  obtain ⟨enumerated, fits, -⟩ := mem_candidates_iff.mp candidate
  exact ⟨enumerated, belType, typed, fits⟩

/-! ## What a later run finds -/

namespace Constraints

variable {layout : Layout κ}

theorem target_of_fixedAt {cell : Symbol} {record : Cell} {location : String}
    (found : layout.design.cells.get? cell = some record)
    (fixed : layout.FixedAt cell location) (cellName : String) :
    ∃ bel, target layout cellName record location = .ok bel ∧
      record.bel = some bel := by
  obtain ⟨stored, bel, belType, present, placed, named, typed, fits⟩ := fixed
  rw [found] at present
  cases present
  refine ⟨bel, ?_, placed⟩
  have asked : (layout.fabric.belType bel).stop =
      (.ok belType : Except (Stop DesignError) BelType) :=
    Query.stop_eq_ok_iff.mpr (Query.ofOption_eq_ok_iff.mpr fits)
  have same : (layout.typeFor record.cellType).toOption = some belType :=
    checked_toOption_eq_some_iff.mpr typed
  simp only [target, named, asked]
  change (if (layout.typeFor record.cellType).toOption = some belType then _
    else _) = _
  rw [if_pos same]
  rfl

theorem placeCell_again (anchored : layout.Anchored) {cell : Symbol}
    {record : Cell} (found : layout.design.cells.get? cell = some record) :
    ∃ placed, placeCell layout.design.locationKey cell layout =
      .ok placed layout := by
  rw [placeCell, Edit.bind_get]
  simp only [found]
  cases located : record.attrs.get? layout.design.locationKey with
  | none => exact ⟨false, rfl⟩
  | some location =>
      have fixed := anchored.fixed found located
      obtain ⟨bel, aimed, there⟩ :=
        target_of_fixedAt found fixed (layout.design.display cell)
      simp only [Edit.bind_reading, aimed, if_pos there]
      exact ⟨true, rfl⟩

theorem placeCells_again (anchored : layout.Anchored) {cells : List Symbol}
    (inside : ∀ cell ∈ cells, cell ∈ layout.design.cells.keys) :
    ∃ placed, placeCells layout.design.locationKey cells layout =
      .ok placed layout := by
  induction cells with
  | nil => exact ⟨[], rfl⟩
  | cons cell rest induction =>
      obtain ⟨record, found⟩ :=
        Table.mem_keys_iff.mp (inside cell List.mem_cons_self)
      obtain ⟨here, first⟩ := placeCell_again anchored found
      obtain ⟨others, second⟩ := induction (fun other later =>
        inside other (List.mem_cons_of_mem cell later))
      rw [placeCells, Edit.bind_of_ok first, Edit.bind_of_ok second]
      exact ⟨_, rfl⟩

/-- The pass only validates cells that are where their attributes say. -/
theorem place_again (anchored : layout.Anchored) :
    ∃ placed, place layout = .ok placed layout := by
  have known : (layout.intern locationAttribute).2 = layout :=
    congrArg (fun design => { layout with design }) anchored.knows.intern_eq
  obtain ⟨placed, run⟩ := placeCells_again anchored (fun _ listed => listed)
  refine ⟨placed, ?_⟩
  rw [place, Edit.bind_modifyGet, known, Edit.bind_get]
  exact run

end Constraints

theorem FirstFit.place_again {layout : Layout κ} (anchored : layout.Anchored)
    (placed : layout.AllPlaced) (rule : LegalityRule κ) :
    place rule layout = .ok () layout := by
  obtain ⟨located, pass⟩ := Constraints.place_again anchored
  have none : unplaced layout.design = [] := by
    rw [List.eq_nil_iff_forall_not_mem]
    rintro ⟨cell, record⟩ listed
    obtain ⟨found, bare⟩ := mem_unplaced_iff.mp listed
    exact placed cell record found bare
  have grouped : buckets layout = .ok [] := by
    rw [buckets, none]
    simp [checkTypes, sortedDistinct, bind, Except.bind, pure, Except.pure]
  exact place_eq_ok_iff.mpr ⟨located, layout, [], pass, grouped, rfl⟩

namespace Greedy

variable [Scalar κ] {layout : Layout κ}

theorem placeUnplaced_again (placed : layout.AllPlaced) (rule : LegalityRule κ)
    (options : PlaceOptions) {cells : List Symbol}
    (inside : ∀ cell ∈ cells, cell ∈ layout.design.cells.keys) :
    placeUnplaced rule options cells layout = .ok [] layout := by
  induction cells with
  | nil => rfl
  | cons cell rest induction =>
      obtain ⟨record, found⟩ :=
        Table.mem_keys_iff.mp (inside cell List.mem_cons_self)
      have there : (layout.design.belOf (some cell)).isSome = true := by
        rw [Design.belOf_of_found found]
        exact Option.isSome_iff_ne_none.mpr (placed cell record found)
      rw [placeUnplaced, Edit.bind_get, if_pos there]
      exact induction (fun other later =>
        inside other (List.mem_cons_of_mem cell later))

/-- With no cell to place again, the passes draw no random number. -/
theorem improve_nothing (rule : LegalityRule κ) (options : PlaceOptions)
    (passes : Nat) (layout : Layout κ) :
    improve rule options passes [] layout = .ok () layout := by
  induction passes with
  | zero => rfl
  | succ passes induction =>
      have drawn : shuffled [] layout = .ok [] layout := rfl
      have replaced : replaceAll rule options [] layout = .ok 0 layout := rfl
      rw [improve, Edit.bind_of_ok drawn, Edit.bind_of_ok replaced]
      split
      · rfl
      · exact induction

theorem place_again (anchored : layout.Anchored) (placed : layout.AllPlaced)
    (rule : LegalityRule κ) (options : PlaceOptions) :
    place rule options layout = .ok () layout := by
  obtain ⟨located, pass⟩ := Constraints.place_again anchored
  have first := placeUnplaced_again placed rule options (fun _ listed => listed)
  rw [place, Edit.bind_of_ok pass, Edit.bind_get, Edit.bind_of_ok first]
  exact improve_nothing rule options options.improvementPasses layout

end Greedy

namespace Layout

/-- Once a placer has succeeded, both placers succeed on the result, with any
rule and options, and leave it exactly as it is: its tables, its names, its
random state and its occupancy. -/
theorem place_again_of_success [Scalar κ] {before after : Layout κ}
    (resolves : before.fabric.device.NamesResolve) (rule : LegalityRule κ)
    (options : PlaceOptions)
    (success : FirstFit.place rule before = .ok () after ∨
      Greedy.place rule options before = .ok () after)
    (anew : LegalityRule κ) (others : PlaceOptions) :
    FirstFit.place anew after = .ok () after ∧
      Greedy.place anew others after = .ok () after := by
  have settled : after.Anchored ∧ after.AllPlaced := by
    rcases success with firstFit | greedy
    · obtain ⟨located, middle, pass, finishes⟩ := FirstFit.place_finishes firstFit
      have anchored := Constraints.place_anchored resolves pass
      exact ⟨finishes.anchored (FirstFit.picks_ofType rule) anchored,
        finishes.allPlaced anchored.knows⟩
    · obtain ⟨located, middle, pass, finishes⟩ := Greedy.place_finishes greedy
      have anchored := Constraints.place_anchored resolves pass
      exact ⟨finishes.anchored (Greedy.picks_ofType rule options) anchored,
        finishes.allPlaced anchored.knows⟩
  obtain ⟨anchored, placed⟩ := settled
  exact ⟨FirstFit.place_again anchored placed anew,
    Greedy.place_again anchored placed anew others⟩

theorem place_again_of_halfFixed :
    ∃ after, Greedy.place .anyBel .default halfFixed = .ok () after ∧
      FirstFit.place .anyBel after = .ok () after ∧
      Greedy.place .anyBel .default after = .ok () after := by
  have resolves : halfFixed.fabric.device.NamesResolve :=
    Grid.namesResolve (by decide)
  obtain ⟨_, success⟩ := Edit.run_of_isOk
    (by decide +kernel :
      ((Greedy.place .anyBel .default).outcome halfFixed).isOk = true)
  have again := place_again_of_success resolves .anyBel .default (.inr success)
    .anyBel .default
  exact ⟨_, success, again⟩

end Layout

end FpgaPlacer
