import FpgaPlacer.Proofs.CompletePlacement

/-!
# When the fixed locations can be met

On a design without placed cells the constraint pass succeeds exactly if every
location names a free bel of the type of its cell and no two cells ask for the
same bel.  The pass tests occupancy while it binds, so it meets a conflict
between two cells when the later of them has its turn: all that it has done by
then is to bind the cells before it.
-/

namespace FpgaPlacer

variable {κ : Type}

namespace Layout

/-- The layout that knows the name of the location attribute. -/
def prepared (layout : Layout κ) : Layout κ := (layout.intern locationAttribute).2

theorem prepared_of_knows {layout : Layout κ}
    (knows : layout.design.KnowsLocation) : layout.prepared = layout :=
  congrArg (fun design => ({ layout with design } : Layout κ)) knows.intern_eq

/-- The cell has a location. -/
def located (layout : Layout κ) (record : Cell) : Bool :=
  (record.attrs.get? layout.design.locationKey).isSome

/-- The cell has a location, and it names the bel. -/
def Names (layout : Layout κ) (record : Cell) (bel : BelId) : Prop :=
  ∃ location, record.attrs.get? layout.design.locationKey = some location ∧
    layout.fabric.device.belNamed location = some bel

theorem Names.unique {layout : Layout κ} {record : Cell} {bel other : BelId}
    (names : layout.Names record bel) (also : layout.Names record other) :
    bel = other := by
  obtain ⟨location, located, named⟩ := names
  obtain ⟨_, again, named'⟩ := also
  rw [located] at again
  cases again
  rw [named] at named'
  exact Option.some.inj named'

theorem not_names_of_not_located {layout : Layout κ} {record : Cell}
    (free : layout.located record = false) (bel : BelId) :
    ¬ layout.Names record bel := by
  rintro ⟨location, located, -⟩
  simp [Layout.located, located] at free

/-- The location of the cell, if it has one, names a free bel of its type. -/
def Pinnable (layout : Layout κ) (record : Cell) : Prop :=
  ∀ location, record.attrs.get? layout.design.locationKey = some location →
    ∃ bel, layout.fabric.device.belNamed location = some bel ∧
      layout.Suits record.cellType bel

theorem Pinnable.suits {layout : Layout κ} {record : Cell} {location : String}
    {bel : BelId} (pinnable : layout.Pinnable record)
    (located : record.attrs.get? layout.design.locationKey = some location)
    (named : layout.fabric.device.belNamed location = some bel) :
    layout.Suits record.cellType bel := by
  obtain ⟨other, again, suits⟩ := pinnable location located
  rw [named] at again
  cases again
  exact suits

theorem pinnable_of_not_located {layout : Layout κ} {record : Cell}
    (free : layout.located record = false) : layout.Pinnable record := by
  intro location located
  simp [Layout.located, located] at free

theorem pinnable_of_names {layout : Layout κ} {record : Cell} {bel : BelId}
    (names : layout.Names record bel)
    (suits : layout.Suits record.cellType bel) : layout.Pinnable record := by
  obtain ⟨location, located, named⟩ := names
  intro other again
  rw [located] at again
  cases again
  exact ⟨bel, named, suits⟩

/-- The first condition that the location of a cell violates, with the error
over it. -/
inductive Refusal (layout : Layout κ) (cell : Symbol) (record : Cell) :
    DesignError → Prop where
  | unknownBel {location : String}
      (located : record.attrs.get? layout.design.locationKey = some location)
      (unknown : layout.fabric.device.belNamed location = none) :
      Refusal layout cell record
        (.noSuchBel (layout.design.display cell) location)
  | otherType {location typeName : String} {bel : BelId} {belType : BelType}
      (located : record.attrs.get? layout.design.locationKey = some location)
      (named : layout.fabric.device.belNamed location = some bel)
      (typed : layout.fabric.device.belType bel = some belType)
      (differs : layout.typeFor record.cellType ≠ .ok belType)
      (labelled : layout.fabric.device.typeName belType = some typeName) :
      Refusal layout cell record
        (.belTypeMismatch (layout.design.display cell)
          (layout.design.display record.cellType) location typeName)
  | occupied {location : String} {bel : BelId} {belType : BelType}
      {occupant : Symbol}
      (located : record.attrs.get? layout.design.locationKey = some location)
      (named : layout.fabric.device.belNamed location = some bel)
      (typed : layout.typeFor record.cellType = .ok belType)
      (fits : layout.fabric.device.belType bel = some belType)
      (held : layout.fabric.cellAt bel = some occupant) :
      Refusal layout cell record
        (.belOccupied (layout.design.display cell) location
          (layout.design.display occupant))

/-- What stops the pass at a cell.  It can also fault, over a bel or a type that
the device does not describe. -/
inductive Obstacle (layout : Layout κ) (cell : Symbol) (record : Cell) :
    Stop DesignError → Prop where
  | refused {error : DesignError} (refusal : layout.Refusal cell record error) :
      Obstacle layout cell record (.failed error)
  | faulted {fault : Fault} (unfit : ¬ layout.Pinnable record) :
      Obstacle layout cell record (.fault fault)

theorem Refusal.unfit {layout : Layout κ} {cell : Symbol} {record : Cell}
    {error : DesignError} (refusal : layout.Refusal cell record error) :
    ¬ layout.Pinnable record := by
  intro pinnable
  cases refusal with
  | unknownBel located unknown =>
      obtain ⟨bel, named, -⟩ := pinnable _ located
      rw [unknown] at named
      cases named
  | otherType located named typed differs =>
      obtain ⟨_, known, fits⟩ := (pinnable.suits located named).typed
      rw [typed] at fits
      cases fits
      exact differs known
  | occupied located named typed fits held =>
      have vacant := (pinnable.suits located named).vacant
      rw [held] at vacant
      cases vacant

theorem Obstacle.unfit {layout : Layout κ} {cell : Symbol} {record : Cell}
    {stop : Stop DesignError} (obstacle : layout.Obstacle cell record stop) :
    ¬ layout.Pinnable record := by
  cases obstacle with
  | refused refusal => exact refusal.unfit
  | faulted unfit => exact unfit

/-! ## Cells bound to their locations -/

/-- The locations of the entries can be met together. -/
structure Satisfiable (layout : Layout κ) (entries : List (Symbol × Cell)) :
    Prop where
  pinnable : ∀ entry ∈ entries, layout.Pinnable entry.2
  distinct : entries.Pairwise (fun left right =>
    ∀ bel, layout.Names left.2 bel → ¬ layout.Names right.2 bel)

/-- Every entry with a location has been bound to the bel that the location
names, in graph and fabric, and nothing else has changed. -/
structure Pinned (entries : List (Symbol × Cell)) (before after : Layout κ) :
    Prop where
  cells : ∀ entry ∈ entries, ∀ bel, before.Names entry.2 bel →
    after.design.cells.get? entry.1 =
      some { entry.2 with bel := some bel, strength := .user }
  bels : ∀ entry ∈ entries, ∀ bel, before.Names entry.2 bel →
    after.fabric.occupancy.bels.get? bel = some ⟨entry.1, .user⟩
  otherCells : ∀ cell,
    (∀ entry ∈ entries, entry.1 = cell → ∀ bel, ¬ before.Names entry.2 bel) →
    after.design.cells.get? cell = before.design.cells.get? cell
  otherBels : ∀ bel, (∀ entry ∈ entries, ¬ before.Names entry.2 bel) →
    after.fabric.occupancy.bels.get? bel =
      before.fabric.occupancy.bels.get? bel
  nets : after.design.nets = before.design.nets
  names : after.design.names = before.design.names
  random : after.design.random = before.design.random
  seed : after.design.seed = before.design.seed
  device : after.fabric.device = before.fabric.device
  wires : after.fabric.occupancy.wires = before.fabric.occupancy.wires
  pips : after.fabric.occupancy.pips = before.fabric.occupancy.pips

namespace Pinned

variable {done : List (Symbol × Cell)} {before middle : Layout κ}
  {cell : Symbol} {record : Cell} {bel : BelId}

theorem nil (layout : Layout κ) : Pinned [] layout layout := by
  constructor <;> simp

theorem locationKey (pinned : Pinned done before middle) :
    middle.design.locationKey = before.design.locationKey :=
  Design.locationKey_congr pinned.names

theorem names_iff (pinned : Pinned done before middle) :
    middle.Names record bel ↔ before.Names record bel := by
  simp only [Names, pinned.locationKey, pinned.device]

theorem located_eq (pinned : Pinned done before middle) (record : Cell) :
    middle.located record = before.located record := by
  simp only [Layout.located, pinned.locationKey]

/-- A bel is free if it was free and none of the bound cells has asked for it. -/
theorem vacant_iff (pinned : Pinned done before middle) :
    middle.fabric.cellAt bel = none ↔
      before.fabric.cellAt bel = none ∧
        ∀ entry ∈ done, ¬ before.Names entry.2 bel := by
  simp only [Fabric.cellAt, Occupancy.cellAt, Option.map_eq_none_iff]
  constructor
  · intro vacant
    have unnamed : ∀ entry ∈ done, ¬ before.Names entry.2 bel := by
      intro entry member names
      rw [pinned.bels entry member bel names] at vacant
      cases vacant
    rw [pinned.otherBels bel unnamed] at vacant
    exact ⟨vacant, unnamed⟩
  · rintro ⟨vacant, unnamed⟩
    rw [pinned.otherBels bel unnamed]
    exact vacant

theorem suits_iff (pinned : Pinned done before middle) {cellType : Symbol} :
    middle.Suits cellType bel ↔
      before.Suits cellType bel ∧
        ∀ entry ∈ done, ¬ before.Names entry.2 bel := by
  have sameType := typeFor_congr pinned.names pinned.device cellType
  constructor
  · rintro ⟨vacant, typed⟩
    obtain ⟨free, unnamed⟩ := pinned.vacant_iff.mp vacant
    rw [sameType, pinned.device] at typed
    exact ⟨⟨free, typed⟩, unnamed⟩
  · rintro ⟨⟨free, typed⟩, unnamed⟩
    constructor
    · exact pinned.vacant_iff.mpr ⟨free, unnamed⟩
    · rw [sameType, pinned.device]
      exact typed

/-- A cell without a location may be counted as bound. -/
theorem skip (pinned : Pinned done before middle)
    (free : before.located record = false) :
    Pinned (done ++ [(cell, record)]) before middle := by
  have unnamed := not_names_of_not_located free
  constructor
  · intro entry member bel names
    rcases List.mem_append.mp member with earlier | last
    · exact pinned.cells entry earlier bel names
    · cases List.mem_singleton.mp last
      exact absurd names (unnamed bel)
  · intro entry member bel names
    rcases List.mem_append.mp member with earlier | last
    · exact pinned.bels entry earlier bel names
    · cases List.mem_singleton.mp last
      exact absurd names (unnamed bel)
  · intro query outside
    exact pinned.otherCells query (fun entry earlier =>
      outside entry (List.mem_append_left _ earlier))
  · intro query outside
    exact pinned.otherBels query (fun entry earlier =>
      outside entry (List.mem_append_left _ earlier))
  · exact pinned.nets
  · exact pinned.names
  · exact pinned.random
  · exact pinned.seed
  · exact pinned.device
  · exact pinned.wires
  · exact pinned.pips

/-- One more cell, without a bel so far, is bound to a bel that no cell before it
has asked for. -/
theorem bind (pinned : Pinned done before middle)
    (fresh : ∀ entry ∈ done, entry.1 ≠ cell) (bare : record.bel = none)
    (names : before.Names record bel)
    (unnamed : ∀ entry ∈ done, ¬ before.Names entry.2 bel) :
    Pinned (done ++ [(cell, record)]) before
      (middle.bound cell record bel .user) := by
  have bels : ∀ query,
      (middle.bound cell record bel .user).fabric.occupancy.bels.get? query =
        if query = bel then some ⟨cell, .user⟩
        else middle.fabric.occupancy.bels.get? query := by
    intro query
    simp [bound, Fabric.withOccupancy, Occupancy.bindBel, bare]
  constructor
  · intro entry member other asks
    rw [get?_cells_bound]
    rcases List.mem_append.mp member with earlier | last
    · rw [if_neg (fresh entry earlier)]
      exact pinned.cells entry earlier other asks
    · cases List.mem_singleton.mp last
      cases names.unique asks
      exact if_pos rfl
  · intro entry member other asks
    rw [bels]
    rcases List.mem_append.mp member with earlier | last
    · have different : other ≠ bel := by
        rintro rfl
        exact unnamed entry earlier asks
      rw [if_neg different]
      exact pinned.bels entry earlier other asks
    · cases List.mem_singleton.mp last
      cases names.unique asks
      exact if_pos rfl
  · intro query outside
    have different : query ≠ cell := by
      rintro rfl
      exact outside _ (List.mem_append_right _ (List.mem_singleton_self _)) rfl
        bel names
    rw [get?_cells_bound, if_neg different]
    exact pinned.otherCells query (fun entry earlier =>
      outside entry (List.mem_append_left _ earlier))
  · intro query outside
    have different : query ≠ bel := by
      rintro rfl
      exact outside _ (List.mem_append_right _ (List.mem_singleton_self _)) names
    rw [bels, if_neg different]
    exact pinned.otherBels query (fun entry earlier =>
      outside entry (List.mem_append_left _ earlier))
  · exact pinned.nets
  · exact pinned.names
  · exact pinned.random
  · exact pinned.seed
  · exact pinned.device
  · exact (wires_releaseBel ..).trans pinned.wires
  · exact (pips_releaseBel ..).trans pinned.pips

theorem unique {entries : List (Symbol × Cell)} {before left right : Layout κ}
    (pinned : Pinned entries before left) (also : Pinned entries before right) :
    left = right := by
  have cells : left.design.cells = right.design.cells := by
    apply Table.ext_get?
    intro cell
    by_cases asks : ∃ entry ∈ entries, entry.1 = cell ∧
        ∃ bel, before.Names entry.2 bel
    · obtain ⟨entry, member, rfl, bel, names⟩ := asks
      rw [pinned.cells entry member bel names, also.cells entry member bel names]
    · have outside : ∀ entry ∈ entries, entry.1 = cell →
          ∀ bel, ¬ before.Names entry.2 bel := by
        intro entry member same bel names
        exact asks ⟨entry, member, same, bel, names⟩
      rw [pinned.otherCells cell outside, also.otherCells cell outside]
  have bels : left.fabric.occupancy.bels = right.fabric.occupancy.bels := by
    apply Table.ext_get?
    intro bel
    by_cases asked : ∃ entry ∈ entries, before.Names entry.2 bel
    · obtain ⟨entry, member, names⟩ := asked
      rw [pinned.bels entry member bel names, also.bels entry member bel names]
    · have outside : ∀ entry ∈ entries, ¬ before.Names entry.2 bel := by
        intro entry member names
        exact asked ⟨entry, member, names⟩
      rw [pinned.otherBels bel outside, also.otherBels bel outside]
  obtain ⟨⟨_, _, _, _, _⟩, _, _, _, _⟩ := left
  obtain ⟨⟨_, _, _, _, _⟩, _, _, _, _⟩ := right
  cases cells
  cases bels
  cases pinned.nets.trans also.nets.symm
  cases pinned.names.trans also.names.symm
  cases pinned.random.trans also.random.symm
  cases pinned.seed.trans also.seed.symm
  cases pinned.device.trans also.device.symm
  cases pinned.wires.trans also.wires.symm
  cases pinned.pips.trans also.pips.symm
  rfl

end Pinned

theorem Satisfiable.nil (layout : Layout κ) : layout.Satisfiable [] :=
  ⟨fun _ member => (List.not_mem_nil member).elim, List.Pairwise.nil⟩

/-- The locations stay satisfiable with one more that can be met and asks for
another bel. -/
theorem Satisfiable.snoc {layout : Layout κ} {done : List (Symbol × Cell)}
    {cell : Symbol} {record : Cell} (satisfiable : layout.Satisfiable done)
    (pinnable : layout.Pinnable record)
    (apart : ∀ entry ∈ done, ∀ bel, layout.Names entry.2 bel →
      ¬ layout.Names record bel) :
    layout.Satisfiable (done ++ [(cell, record)]) := by
  constructor
  · intro entry member
    rcases List.mem_append.mp member with earlier | last
    · exact satisfiable.pinnable entry earlier
    · cases List.mem_singleton.mp last
      exact pinnable
  · apply List.pairwise_append.mpr
    refine ⟨satisfiable.distinct, List.pairwise_singleton _ _, ?_⟩
    intro entry member last same
    cases List.mem_singleton.mp same
    exact apart entry member

/-- When the cells before it have been bound, a cell of a satisfiable list can
still be bound. -/
theorem Satisfiable.pinnable_next {before reached : Layout κ}
    {ahead behind : List (Symbol × Cell)} {cell : Symbol} {record : Cell}
    (satisfiable : before.Satisfiable (ahead ++ (cell, record) :: behind))
    (pinned : Pinned ahead before reached) : reached.Pinnable record := by
  intro location located
  rw [pinned.locationKey] at located
  obtain ⟨bel, named, suits⟩ := satisfiable.pinnable (cell, record)
    (List.mem_append_right _ List.mem_cons_self) location located
  refine ⟨bel, ?_, pinned.suits_iff.mpr ⟨suits, ?_⟩⟩
  · rw [pinned.device]
    exact named
  · intro entry member names
    obtain ⟨-, -, apart⟩ := List.pairwise_append.mp satisfiable.distinct
    exact apart entry member (cell, record) List.mem_cons_self bel names
      ⟨location, located, named⟩

end Layout

open Layout

namespace Constraints

/-! ## The pass -/

theorem obstacle_of_target {layout : Layout κ} {cell : Symbol} {record : Cell}
    {location : String} {stop : Stop DesignError}
    (located : record.attrs.get? layout.design.locationKey = some location)
    (failed : target layout (layout.design.display cell) record location =
      .error stop) : layout.Obstacle cell record stop := by
  unfold target at failed
  split at failed
  · rename_i unknown
    cases failed
    exact .refused (.unknownBel located unknown)
  · rename_i bel named
    rcases checked_bind_eq_error_iff.mp failed with asked | ⟨belType, asked, rest⟩
    · obtain ⟨untyped, rfl⟩ := Query.stop_ofOption_eq_error_iff.mp asked
      apply Obstacle.faulted
      intro pinnable
      obtain ⟨_, -, fits⟩ := (pinnable.suits located named).typed
      rw [untyped] at fits
      cases fits
    · have typed := Query.ofOption_eq_ok_iff.mp (Query.stop_eq_ok_iff.mp asked)
      split at rest
      · cases rest
      · rename_i unlike
        have differs : layout.typeFor record.cellType ≠ .ok belType :=
          fun known => unlike (checked_toOption_eq_some_iff.mpr known)
        rcases checked_bind_eq_error_iff.mp rest with asked | ⟨typeName, asked, rest⟩
        · obtain ⟨-, rfl⟩ := Query.stop_ofOption_eq_error_iff.mp asked
          apply Obstacle.faulted
          intro pinnable
          obtain ⟨_, known, fits⟩ := (pinnable.suits located named).typed
          rw [typed] at fits
          cases fits
          exact differs known
        · have labelled :=
            Query.ofOption_eq_ok_iff.mp (Query.stop_eq_ok_iff.mp asked)
          cases rest
          exact .refused (.otherType located named typed differs labelled)

/-- The ways in which binding a cell without a bel to its location can end. -/
inductive BareRun (cell : Symbol) (record : Cell) (layout : Layout κ) :
    EStateM.Result (Stop DesignError) (Layout κ) Bool → Prop where
  | skipped (free : layout.located record = false) :
      BareRun cell record layout (.ok false layout)
  | bound {bel : BelId} (names : layout.Names record bel)
      (suits : layout.Suits record.cellType bel) :
      BareRun cell record layout (.ok true (layout.bound cell record bel .user))
  | stopped {stop : Stop DesignError}
      (obstacle : layout.Obstacle cell record stop) :
      BareRun cell record layout (.error stop layout)

theorem placeCell_bare {layout : Layout κ} {cell : Symbol} {record : Cell}
    (found : layout.design.cells.get? cell = some record)
    (bare : record.bel = none) :
    BareRun cell record layout
      (placeCell layout.design.locationKey cell layout) := by
  unfold placeCell
  rw [Edit.bind_get]
  simp only [found]
  cases located : record.attrs.get? layout.design.locationKey with
  | none => exact .skipped (by simp [Layout.located, located])
  | some location =>
      dsimp only
      rw [Edit.bind_reading]
      cases aimed : target layout (layout.design.display cell) record
          location with
      | error stop => exact .stopped (obstacle_of_target located aimed)
      | ok bel =>
          obtain ⟨named, belType, typed, fits⟩ := target_eq_ok aimed
          have elsewhere : record.bel ≠ some bel := by simp [bare]
          dsimp only
          rw [if_neg elsewhere]
          cases vacant : layout.fabric.cellAt bel with
          | some occupant =>
              exact .stopped (.refused
                (.occupied located named typed fits vacant))
          | none =>
              have released := unbindBel_of_found found
              have stored : (layout.released cell record).design.cells.get?
                  cell = some { record with bel := none, strength := .unbound } := by
                rw [get?_cells_released, if_pos rfl]
              have bound := bindBel_of_found stored bel .user
              rw [bound_released] at bound
              dsimp only
              rw [Edit.bind_of_ok released, Edit.bind_of_ok bound]
              exact .bound ⟨location, located, named⟩
                ⟨vacant, belType, typed, fits⟩

/-- The ways in which the pass can end, with the entries `done` bound and the
entries `rest` to come: all are bound, or the pass stops at the first that
cannot be. -/
inductive PassRun (before : Layout κ) (done rest : List (Symbol × Cell)) :
    EStateM.Result (Stop DesignError) (Layout κ) (List Symbol) → Prop where
  | bound {after : Layout κ} (satisfiable : before.Satisfiable (done ++ rest))
      (pinned : Pinned (done ++ rest) before after) :
      PassRun before done rest
        (.ok ((rest.filter (fun entry => before.located entry.2)).map Prod.fst)
          after)
  | stopped {ahead behind : List (Symbol × Cell)} {cell : Symbol}
      {record : Cell} {stop : Stop DesignError} {reached : Layout κ}
      (turn : done ++ rest = ahead ++ (cell, record) :: behind)
      (satisfiable : before.Satisfiable ahead)
      (pinned : Pinned ahead before reached)
      (obstacle : reached.Obstacle cell record stop) :
      PassRun before done rest (.error stop reached)

theorem PassRun.next {before middle reached : Layout κ} {key : Symbol}
    {done rest : List (Symbol × Cell)} {entry : Symbol × Cell}
    (placed : placeCell key entry.1 middle =
      .ok (before.located entry.2) reached)
    (run : PassRun before (done ++ [entry]) rest
      (placeCells key (rest.map Prod.fst) reached)) :
    PassRun before done (entry :: rest)
      (placeCells key ((entry :: rest).map Prod.fst) middle) := by
  rw [List.map_cons, placeCells, Edit.bind_of_ok placed]
  cases later : placeCells key (rest.map Prod.fst) reached with
  | ok others after =>
      rw [later] at run
      rw [Edit.bind_of_ok later]
      cases run with
      | bound satisfiable pinned =>
          rw [List.append_assoc, List.singleton_append] at satisfiable pinned
          have answer := PassRun.bound satisfiable pinned
          rw [List.filter_cons] at answer
          split at answer
          · rename_i located
            rw [located]
            exact answer
          · rename_i unlocated
            rw [eq_false_of_ne_true unlocated]
            exact answer
  | error stop after =>
      rw [later] at run
      rw [Edit.bind_of_error later]
      cases run with
      | stopped turn satisfiable pinned obstacle =>
          rw [List.append_assoc, List.singleton_append] at turn
          exact .stopped turn satisfiable pinned obstacle

theorem placeCells_run {before middle : Layout κ}
    {done rest : List (Symbol × Cell)}
    (whole : before.design.cells.toList = done ++ rest)
    (bare : ∀ entry ∈ rest, entry.2.bel = none)
    (satisfiable : before.Satisfiable done)
    (pinned : Pinned done before middle) :
    PassRun before done rest
      (placeCells before.design.locationKey (rest.map Prod.fst) middle) := by
  induction rest generalizing done middle with
  | nil =>
      rw [← List.append_nil done] at satisfiable pinned
      exact .bound satisfiable pinned
  | cons entry rest induction =>
      obtain ⟨cell, record⟩ := entry
      have fresh : ∀ entry ∈ done, entry.1 ≠ cell := by
        intro entry member
        have keys := Table.nodup_keys before.design.cells
        rw [Table.keys, whole, List.map_append, List.map_cons] at keys
        obtain ⟨-, -, apart⟩ := List.nodup_append.mp keys
        exact apart entry.1 (List.mem_map_of_mem member) cell List.mem_cons_self
      have listed : (cell, record) ∈ before.design.cells.toList := by
        rw [whole]
        exact List.mem_append_right _ List.mem_cons_self
      have found : middle.design.cells.get? cell = some record := by
        rw [pinned.otherCells cell
          (fun entry member same => absurd same (fresh entry member))]
        exact Table.mem_toList_iff.mp listed
      have unplaced : record.bel = none := bare _ List.mem_cons_self
      have run := placeCell_bare found unplaced
      rw [pinned.locationKey] at run
      generalize placed : placeCell before.design.locationKey cell middle =
        result at run
      have split : before.design.cells.toList =
          (done ++ [(cell, record)]) ++ rest := by
        rw [whole, List.append_assoc, List.singleton_append]
      have others : ∀ entry ∈ rest, entry.2.bel = none :=
        fun entry member => bare entry (List.mem_cons_of_mem _ member)
      cases run with
      | skipped free =>
          rw [pinned.located_eq] at free
          rw [← free] at placed
          apply PassRun.next placed
          apply induction split others
          · apply satisfiable.snoc (pinnable_of_not_located free)
            exact fun _ _ bel _ => not_names_of_not_located free bel
          · exact pinned.skip free
      | @bound bel names suits =>
          have asks := pinned.names_iff.mp names
          obtain ⟨free, unnamed⟩ := pinned.suits_iff.mp suits
          have located : before.located record = true := by
            obtain ⟨location, located, -⟩ := asks
            simp [Layout.located, located]
          rw [← located] at placed
          apply PassRun.next placed
          apply induction split others
          · apply satisfiable.snoc (pinnable_of_names asks free)
            intro entry member other earlier again
            cases asks.unique again
            exact unnamed entry member earlier
          · exact pinned.bind fresh unplaced asks unnamed
      | stopped obstacle =>
          rw [List.map_cons, placeCells, Edit.bind_of_error placed]
          exact .stopped rfl satisfiable pinned obstacle

/-- On a design without placed cells the constraint pass succeeds exactly if the
locations can be met; it then binds the cells with a location, answers them in
table order and changes nothing else.  If it fails, then over the first cell
whose location cannot be met, and only the cells before it have been bound.
Either way the name of the location attribute has been interned. -/
theorem place_iff_satisfiable {layout : Layout κ}
    (bare : ∀ cell record, layout.design.cells.get? cell = some record →
      record.bel = none) :
    ((∃ located after, place layout = .ok located after) ↔
      layout.prepared.Satisfiable layout.design.cells.toList) ∧
    (∀ located after, place layout = .ok located after ↔
      layout.prepared.Satisfiable layout.design.cells.toList ∧
      located = (layout.design.cells.toList.filter
        (fun entry => layout.prepared.located entry.2)).map Prod.fst ∧
      Pinned layout.design.cells.toList layout.prepared after) ∧
    ∀ error reached, place layout = .error (.failed error) reached →
      ∃ ahead cell record behind,
        layout.design.cells.toList = ahead ++ (cell, record) :: behind ∧
        layout.prepared.Satisfiable ahead ∧
        Pinned ahead layout.prepared reached ∧
        reached.Refusal cell record error := by
  have start : place layout = placeCells layout.prepared.design.locationKey
      (layout.prepared.design.cells.toList.map Prod.fst) layout.prepared := by
    have key : layout.prepared.design.locationKey = layout.design.locationKey :=
      layout.design.locationKey_intern
    rw [key]
    rfl
  have unplaced : ∀ entry ∈ layout.prepared.design.cells.toList,
      entry.2.bel = none :=
    fun entry member => bare entry.1 entry.2 (Table.mem_toList_iff.mp member)
  have run := placeCells_run (List.nil_append _).symm unplaced (.nil _) (.nil _)
  rw [← start] at run
  cases ended : place layout with
  | ok located after =>
      rw [ended] at run
      cases run with
      | bound satisfiable pinned =>
          refine ⟨⟨fun _ => satisfiable, fun _ => ⟨_, _, rfl⟩⟩, ?_, nofun⟩
          intro answer reached
          constructor
          · intro same
            cases same
            exact ⟨satisfiable, rfl, pinned⟩
          · rintro ⟨-, rfl, also⟩
            rw [pinned.unique also]
            rfl
  | error stop reached =>
      rw [ended] at run
      cases run with
      | stopped turn satisfiable pinned obstacle =>
          have unmet :
              ¬ layout.prepared.Satisfiable layout.design.cells.toList := by
            intro whole
            change layout.prepared.Satisfiable
              ([] ++ layout.prepared.design.cells.toList) at whole
            rw [turn] at whole
            exact obstacle.unfit (whole.pinnable_next pinned)
          refine ⟨⟨nofun, fun whole => absurd whole unmet⟩, ?_, ?_⟩
          · exact fun _ _ => ⟨nofun, fun met => absurd met.1 unmet⟩
          · intro error _ same
            cases same
            cases obstacle with
            | refused refusal =>
                exact ⟨_, _, _, _, turn, satisfiable, pinned, refusal⟩

/-- Two cells on a device with two bels, both fixed on the second bel. -/
def contested : Layout Int :=
  let (key, layout) := halfFixed.intern locationAttribute
  let fixed :=
    { Cell.unplaced ⟨3⟩ ⟨2⟩ with attrs := Table.empty.insert key "B1" }
  { layout with design := layout.design.setCell ⟨3⟩ fixed }

/-- The first cell gets the bel, and the error over the second names the first. -/
theorem place_iff_satisfiable_of_contested :
    place contested = .error (.failed (.belOccupied "b" "B1" "a"))
        (place.after contested) ∧
      ∃ ahead cell record behind,
        contested.design.cells.toList = ahead ++ (cell, record) :: behind ∧
        contested.Satisfiable ahead ∧
        Pinned ahead contested (place.after contested) ∧
        (place.after contested).Refusal cell record
          (.belOccupied "b" "B1" "a") := by
  have entries : ∀ entry ∈ contested.design.cells.toList,
      entry.2.bel = none := by
    decide
  have bare : ∀ cell record, contested.design.cells.get? cell = some record →
      record.bel = none :=
    fun _ _ found => entries _ (Table.mem_toList_iff.mpr found)
  have conflict : place.outcome contested =
      .error (.failed (.belOccupied "b" "B1" "a")) := rfl
  have failed := Edit.outcome_eq_error conflict
  have knows : contested.design.KnowsLocation :=
    halfFixed.design.knowsLocation_intern
  obtain ⟨-, -, refused⟩ := place_iff_satisfiable bare
  rw [prepared_of_knows knows] at refused
  exact ⟨failed, refused _ _ failed⟩

end Constraints

end FpgaPlacer
