import FpgaPlacer.Proofs.Capacity
import FpgaPlacer.Proofs.SeedIndependence

/-!
# Improvement passes lose nothing

A cell that is placed again gives up its bel before it looks for one.  Where
availability depends on the holder of a bel alone, and the rule does not look at
the placement, the bel that it has given up is a candidate again, whatever has
moved in the meantime.  So a pass over cells that were placed once never fails,
and the number of passes does not decide which cells have a bel in the end.
-/

namespace FpgaPlacer

variable {κ : Type}

/-- Whether a bel is available depends on who holds it, and on nothing else of
the occupancy; a bel that is available while held is available when released. -/
structure Device.OwnAvailability (device : Device κ) : Prop where
  own : ∀ {left right : Occupancy} {bel},
    left.bels.get? bel = right.bels.get? bel →
    device.available left bel = device.available right bel
  released : ∀ {occupancy : Occupancy} {bel},
    device.available occupancy bel = true →
    device.available (occupancy.unbindBel bel) bel = true

theorem Device.LocalAvailability.ownAvailability {device : Device κ}
    (isLocal : device.LocalAvailability) : device.OwnAvailability := by
  refine ⟨isLocal.own, ?_⟩
  intro occupancy bel available
  have vacant : occupancy.bels.get? bel = none :=
    Option.map_eq_none_iff.mp (isLocal.free occupancy bel available)
  have same : (occupancy.unbindBel bel).bels.get? bel = occupancy.bels.get? bel := by
    rw [vacant, Occupancy.unbindBel, Table.get?_erase, if_pos rfl]
  exact (isLocal.own same).trans available

/-- What a cell is, wherever it is placed. -/
def Cell.unseated (cell : Cell) (key : Symbol) : Cell :=
  { cell with bel := none, strength := .unbound, attrs := cell.attrs.erase key }

namespace Layout

/-- The same design on the same device, perhaps placed in another way. -/
structure SameDesign (left right : Layout κ) : Prop where
  device : right.fabric.device = left.fabric.device
  names : right.design.names = left.design.names
  nets : right.design.nets = left.design.nets
  cells : ∀ cell,
    (right.design.cells.get? cell).map (·.unseated left.design.locationKey) =
      (left.design.cells.get? cell).map (·.unseated left.design.locationKey)

end Layout

/-- A rule that looks at what the cell is and at the bel, but not at where cells
are. -/
def LegalityRule.IgnoresPlacement (rule : LegalityRule κ) : Prop :=
  ∀ {left right}, Layout.SameDesign left right →
    ∀ cell bel, rule right cell bel = rule left cell bel

namespace Layout

theorem sameDesign_withRandom (layout : Layout κ) (random : Generator) :
    SameDesign layout (layout.withRandom random) :=
  ⟨rfl, rfl, rfl, fun _ => rfl⟩

end Layout

theorem LegalityRule.IgnoresPlacement.ignoresRandom {rule : LegalityRule κ}
    (ignores : rule.IgnoresPlacement) : rule.IgnoresRandom :=
  fun layout random => ignores (Layout.sameDesign_withRandom layout random)

/-- Denied sites may be given by the name of a cell. -/
theorem SiteRules.ignoresPlacement [BEq κ] {rules : SiteRules}
    (unlimited : rules.columnLimit = none) :
    (rules.rule : LegalityRule κ).IgnoresPlacement := by
  intro left right same cell bel
  simp [rule, unlimited, Design.display, same.names]

namespace Layout

variable {layout : Layout κ} {cell : Symbol} {record : Cell} {bel : BelId}
  {text : String}

theorem sameDesign_released (found : layout.design.cells.get? cell = some record) :
    SameDesign layout (layout.released cell record) := by
  refine ⟨rfl, rfl, rfl, ?_⟩
  intro query
  rw [get?_cells_released]
  split
  · rename_i same
    rw [same, found]
    rfl
  · rfl

theorem sameDesign_assigned (knows : layout.design.KnowsLocation)
    (found : layout.design.cells.get? cell = some record) :
    SameDesign layout (layout.assigned cell record bel .weak text) := by
  have names := congrArg Design.names knows.intern_eq
  refine ⟨rfl, names, rfl, ?_⟩
  intro query
  rw [get?_cells_assigned]
  split
  · rename_i same
    rw [same, found]
    simp [Cell.unseated, Table.erase_insert_self]
  · rfl

theorem belOf_released {holder : Option Symbol} {query : BelId}
    (held : (layout.released cell record).design.belOf holder = some query) :
    layout.design.belOf holder = some query := by
  obtain ⟨other, rfl, rest⟩ := Option.bind_eq_some_iff.mp held
  obtain ⟨current, present, placed⟩ := Option.bind_eq_some_iff.mp rest
  rw [get?_cells_released] at present
  split at present
  · cases present
    cases placed
  · rw [Design.belOf_of_found present]
    exact placed

theorem belOf_assigned {holder : Option Symbol} {query : BelId}
    (held : (layout.assigned cell record bel .weak text).design.belOf holder =
      some query) : layout.design.belOf holder = some query ∨ query = bel := by
  obtain ⟨other, rfl, rest⟩ := Option.bind_eq_some_iff.mp held
  obtain ⟨current, present, placed⟩ := Option.bind_eq_some_iff.mp rest
  rw [get?_cells_assigned] at present
  split at present
  · cases present
    cases placed
    exact .inr rfl
  · left
    rw [Design.belOf_of_found present]
    exact placed

end Layout

open Layout

namespace Greedy

/-! ## Positions that a cost needs -/

theorem mem_neighbourBels_iff {design : Design} {fanoutLimit : Nat} {cell : Cell}
    {bel : BelId} :
    bel ∈ neighbourBels design fanoutLimit cell ↔
      ∃ port ∈ cell.ports.values, ∃ net,
        port.net.bind design.nets.get? = some net ∧
          ∃ holder ∈ countedEnds fanoutLimit net,
            design.belOf holder = some bel := by
  rw [neighbourBels, List.mem_flatMap]
  refine exists_congr fun port => and_congr_right fun _ => ?_
  cases joined : port.net.bind design.nets.get? with
  | none => simp
  | some net => simp [List.mem_filterMap]

/-- The device knows where the placed neighbours of a cell are. -/
def Priceable (fanoutLimit : Nat) (layout : Layout κ) (record : Cell) : Prop :=
  ∀ bel ∈ neighbourBels layout.design fanoutLimit record,
    ∃ place, layout.fabric.device.position bel = some place

/-- Neighbours may be placed elsewhere, as long as it is known where that is. -/
theorem Priceable.of_bels {fanoutLimit : Nat} {before after : Layout κ}
    {old new : Cell} (priceable : Priceable fanoutLimit before old)
    (nets : after.design.nets = before.design.nets)
    (device : after.fabric.device = before.fabric.device)
    (ports : new.ports = old.ports)
    (bels : ∀ {holder bel}, after.design.belOf holder = some bel →
      before.design.belOf holder = some bel ∨
        ∃ place, before.fabric.device.position bel = some place) :
    Priceable fanoutLimit after new := by
  intro bel neighbour
  rw [mem_neighbourBels_iff, nets, ports] at neighbour
  obtain ⟨port, listed, net, joined, holder, counted, held⟩ := neighbour
  rw [device]
  rcases bels held with before | known
  · apply priceable
    rw [mem_neighbourBels_iff]
    exact ⟨port, listed, net, joined, holder, counted, before⟩
  · exact known

theorem Priceable.assigned {fanoutLimit : Nat} {layout : Layout κ} {old new : Cell}
    {cell : Symbol} {record : Cell} {bel : BelId} {text : String}
    (priceable : Priceable fanoutLimit layout old) (ports : new.ports = old.ports)
    (known : ∃ place, layout.fabric.device.position bel = some place) :
    Priceable fanoutLimit (layout.assigned cell record bel .weak text) new := by
  apply priceable.of_bels _ _ ports
  · intro holder query held
    apply (belOf_assigned held).imp_right
    rintro rfl
    exact known
  · rfl
  · rfl

/-! ## Secure cells -/

/-- What placing cells again relies on. -/
structure Workable (layout : Layout κ) : Prop where
  knows : layout.design.KnowsLocation
  own : layout.fabric.device.OwnAvailability
  described : layout.fabric.device.Described

theorem Workable.touches {cells : List Symbol} {before after : Layout κ}
    (workable : Workable before) (touches : Touches cells before after) :
    Workable after := by
  refine ⟨touches.knows workable.knows, ?_, ?_⟩
  · rw [touches.device]
    exact workable.own
  · rw [touches.device]
    exact workable.described

theorem Workable.withRandom {layout : Layout κ} (workable : Workable layout)
    (random : Generator) : Workable (layout.withRandom random) :=
  ⟨workable.knows, workable.own, workable.described⟩

/-- The cell is on a bel that is a candidate for it as soon as nobody holds that
bel, and it is known where its neighbours are. -/
inductive Secure (rule : LegalityRule κ) (fanoutLimit : Nat) (layout : Layout κ)
    (cell : Symbol) : Prop where
  | intro {record : Cell} {bel : BelId} {belType : BelType}
      (found : layout.design.cells.get? cell = some record)
      (placed : record.bel = some bel)
      (typed : layout.typeFor record.cellType = .ok belType)
      (enumerated : bel ∈ layout.fabric.device.bels)
      (fits : layout.fabric.device.belType bel = some belType)
      (reopens : ∀ occupancy : Occupancy, occupancy.bels.get? bel = none →
        layout.fabric.device.available occupancy bel = true)
      (accepted : rule layout cell bel = true)
      (priceable : Priceable fanoutLimit layout record) :
      Secure rule fanoutLimit layout cell

theorem Secure.withRandom {rule : LegalityRule κ} {fanoutLimit : Nat}
    {layout : Layout κ} {cell : Symbol} (ignores : rule.IgnoresPlacement)
    (secure : Secure rule fanoutLimit layout cell) (random : Generator) :
    Secure rule fanoutLimit (layout.withRandom random) cell := by
  have same := sameDesign_withRandom layout random
  cases secure with
  | intro found placed typed enumerated fits reopens accepted priceable =>
      have still := (ignores same cell _).trans accepted
      exact .intro found placed typed enumerated fits reopens still priceable

theorem Secure.placed {rule : LegalityRule κ} {fanoutLimit : Nat}
    {layout : Layout κ} {cell : Symbol}
    (secure : Secure rule fanoutLimit layout cell) :
    (layout.design.belOf (some cell)).isSome = true := by
  cases secure with
  | intro found placed typed enumerated fits reopens accepted priceable =>
      rw [Design.belOf_of_found found, placed]
      rfl

/-! ## Choosing again -/

variable [Scalar κ]

theorem addDistances_ok_iff {fabric : Fabric κ} {position : Position κ}
    {cost : κ} {bels : List BelId} :
    (∃ total, addDistances fabric position cost bels = .ok total) ↔
      ∀ bel ∈ bels, ∃ place, fabric.device.position bel = some place := by
  induction bels generalizing cost with
  | nil => simp [addDistances]
  | cons bel rest induction =>
      rw [List.forall_mem_cons]
      constructor
      · rintro ⟨total, run⟩
        obtain ⟨place, asked, later⟩ := checked_bind_eq_ok_iff.mp run
        exact ⟨⟨place, Query.ofOption_eq_ok_iff.mp asked⟩,
          induction.mp ⟨total, later⟩⟩
      · rintro ⟨⟨place, there⟩, known⟩
        obtain ⟨total, later⟩ := induction.mpr known
        have asked : fabric.position bel = .ok place :=
          Query.ofOption_eq_ok_iff.mpr there
        exact ⟨total, checked_bind_eq_ok_iff.mpr ⟨place, asked, later⟩⟩

theorem withCosts_ok {layout : Layout κ} {fanoutLimit : Nat} {record : Cell}
    (priceable : Priceable fanoutLimit layout record) {bels : List BelId}
    (known : ∀ bel ∈ bels,
      ∃ place, layout.fabric.device.position bel = some place) :
    ∃ priced, withCosts layout fanoutLimit record bels = .ok priced := by
  induction bels with
  | nil => exact ⟨[], rfl⟩
  | cons bel rest induction =>
      rw [List.forall_mem_cons] at known
      obtain ⟨⟨place, there⟩, others⟩ := known
      have asked : layout.fabric.position bel = .ok place :=
        Query.ofOption_eq_ok_iff.mpr there
      obtain ⟨total, costs⟩ :
          ∃ total, cost layout fanoutLimit record place = .ok total :=
        addDistances_ok_iff.mpr priceable
      obtain ⟨priced, later⟩ := induction others
      refine ⟨(bel, total) :: priced, ?_⟩
      rw [withCosts]
      apply checked_bind_eq_ok_iff.mpr
      refine ⟨place, asked, checked_bind_eq_ok_iff.mpr ⟨total, costs, ?_⟩⟩
      exact checked_bind_eq_ok_iff.mpr ⟨priced, later, rfl⟩

theorem choose_ok {rule : LegalityRule κ} {options : PlaceOptions}
    {layout : Layout κ} {cell : Symbol} {record : Cell} {belType : BelType}
    {bel : BelId} (described : layout.fabric.device.Described)
    (priceable : Priceable options.fanoutLimit layout record)
    (typed : layout.typeFor record.cellType = .ok belType)
    (offered : bel ∈ candidates rule layout belType cell) :
    ∃ chosen, choose rule options cell record layout = .ok chosen := by
  have positions : ∀ other ∈ candidates rule layout belType cell,
      ∃ place, layout.fabric.device.position other = some place := by
    intro other member
    obtain ⟨-, fits, -⟩ := mem_candidates_iff.mp member
    exact described.position fits
  obtain ⟨priced, costs⟩ := withCosts_ok priceable positions
  have bels := bels_withCosts costs
  cases priced with
  | nil =>
      rw [← bels] at offered
      cases offered
  | cons candidate rest =>
      refine ⟨(cheapestFrom options.tieBreak candidate rest).1, ?_⟩
      simp only [choose, typed]
      rw [costs]
      rfl

theorem priceable_of_choose {rule : LegalityRule κ} {options : PlaceOptions}
    {layout : Layout κ} {cell : Symbol} {record : Cell} {bel : BelId}
    (chosen : choose rule options cell record layout = .ok bel) :
    Priceable options.fanoutLimit layout record := by
  obtain ⟨belType, typed, candidate⟩ := candidate_of_choose chosen
  simp only [choose, typed] at chosen
  obtain ⟨priced, asked, -⟩ := checked_bind_eq_ok_iff.mp chosen
  have costs := Query.stop_eq_ok_iff.mp asked
  cases offered : candidates rule layout belType cell with
  | nil =>
      rw [offered] at candidate
      cases candidate
  | cons first rest =>
      rw [offered, withCosts] at costs
      obtain ⟨position, -, costs⟩ := checked_bind_eq_ok_iff.mp costs
      obtain ⟨total, here, -⟩ := checked_bind_eq_ok_iff.mp costs
      exact addDistances_ok_iff.mp ⟨total, here⟩

/-! ## What keeps cells secure -/

section Secure

variable {rule : LegalityRule κ} {options : PlaceOptions}
  {before after layout : Layout κ} {cell other : Symbol}

theorem Secure.of_moves (ignores : rule.IgnoresPlacement)
    (workable : Workable before)
    (move : Moves (picks rule options) cell before after) :
    Secure rule options.fanoutLimit after cell := by
  have touches := move.touches workable.knows
  cases move with
  | @intro record bel text found picked named =>
      obtain ⟨belType, typed, candidate⟩ := candidate_of_choose picked
      obtain ⟨enumerated, fits, available, accepted⟩ :=
        mem_candidates_iff.mp candidate
      have stored := get?_cells_assigned before cell cell record bel .weak text
      rw [if_pos rfl] at stored
      apply Secure.intro stored rfl _ enumerated fits
      · intro occupancy vacant
        have opened := workable.own.released available
        have unheld : occupancy.bels.get? bel =
            ((before.released cell record).fabric.occupancy.unbindBel
              bel).bels.get? bel := by
          rw [vacant, Occupancy.unbindBel, Table.get?_erase, if_pos rfl]
        exact (workable.own.own unheld).trans opened
      · have bound : SameDesign before
            (before.assigned cell record bel .weak text) :=
          sameDesign_assigned workable.knows found
        have free := ignores (sameDesign_released found) cell bel
        exact ((ignores bound cell bel).trans free.symm).trans accepted
      · rw [← assigned_released]
        have known := priceable_of_choose picked
        exact known.assigned rfl (workable.described.position fits)
      · rw [touches.typeFor]
        exact typed

/-- A secure cell stays secure while others move, whoever takes its bel. -/
theorem Secure.moves (ignores : rule.IgnoresPlacement)
    (workable : Workable before)
    (secure : Secure rule options.fanoutLimit before other)
    (move : Moves (picks rule options) cell before after)
    (different : other ≠ cell) :
    Secure rule options.fanoutLimit after other := by
  have touches := move.touches workable.knows
  have kept := move.others different
  cases move with
  | @intro record bel text found picked named =>
      obtain ⟨belType, -, candidate⟩ := candidate_of_choose picked
      obtain ⟨-, fits, -⟩ := mem_candidates_iff.mp candidate
      cases secure with
      | intro present placed typed enumerated fitsToo reopens accepted priceable =>
          apply Secure.intro (kept.trans present) placed _ enumerated fitsToo
            reopens
          · have bound : SameDesign before
                (before.assigned cell record bel .weak text) :=
              sameDesign_assigned workable.knows found
            exact (ignores bound other _).trans accepted
          · exact priceable.assigned rfl (workable.described.position fits)
          · rw [touches.typeFor]
            exact typed

/-- The cells of a chain all end up secure, and so does every cell that was
secure before. -/
theorem Secure.chain (ignores : rule.IgnoresPlacement) {cells : List Symbol}
    (run : Chain (picks rule options) cells before after)
    (workable : Workable before)
    (reached : cell ∈ cells ∨ Secure rule options.fanoutLimit before cell) :
    Secure rule options.fanoutLimit after cell := by
  induction run with
  | nil layout => exact reached.resolve_left List.not_mem_nil
  | draw random rest induction =>
      apply induction (workable.withRandom random)
      exact reached.imp_right (fun secure => secure.withRandom ignores random)
  | @cons first cells before middle after move rest induction =>
      apply induction (workable.touches (move.touches workable.knows))
      by_cases same : cell = first
      · rw [same]
        exact .inr (.of_moves ignores workable move)
      · rcases reached with member | secure
        · exact .inl ((List.mem_cons.mp member).resolve_left same)
        · exact .inr (secure.moves ignores workable move same)

end Secure

/-! ## Passes over secure cells -/

section Passes

variable {rule : LegalityRule κ} {options : PlaceOptions} {layout : Layout κ}

omit [Scalar κ] in
/-- The bel that a secure cell gives up is a candidate for it again. -/
theorem Secure.offered (ignores : rule.IgnoresPlacement) {cell : Symbol}
    (secure : Secure rule options.fanoutLimit layout cell) :
    ∃ record bel belType, layout.design.cells.get? cell = some record ∧
      record.bel = some bel ∧
      (layout.released cell record).typeFor record.cellType = .ok belType ∧
      bel ∈ candidates rule (layout.released cell record) belType cell ∧
      Priceable options.fanoutLimit (layout.released cell record) record := by
  cases secure with
  | @intro record bel belType found placed typed enumerated fits reopens accepted
      priceable =>
      have vacant : (layout.released cell record).fabric.occupancy.bels.get?
          bel = none := by
        simp [released, Fabric.withOccupancy, placed]
      have still := (ignores (sameDesign_released found) cell bel).trans accepted
      have offered : bel ∈ candidates rule (layout.released cell record) belType
          cell :=
        mem_candidates_iff.mpr ⟨enumerated, fits, reopens _ vacant, still⟩
      have known : Priceable options.fanoutLimit (layout.released cell record)
          record :=
        priceable.of_bels rfl rfl rfl (fun held => .inl (belOf_released held))
      exact ⟨record, bel, belType, found, placed, typed, offered, known⟩

theorem placeCell_of_secure (ignores : rule.IgnoresPlacement)
    (workable : Workable layout) {cell : Symbol}
    (secure : Secure rule options.fanoutLimit layout cell) :
    ∃ moved after, placeCell rule options cell layout = .ok moved after := by
  obtain ⟨record, bel, belType, found, -, typed, offered, known⟩ :=
    secure.offered ignores
  have described : (layout.released cell record).fabric.device.Described :=
    workable.described
  obtain ⟨chosen, choice⟩ := choose_ok described known typed offered
  obtain ⟨_, -, candidate⟩ := candidate_of_choose choice
  obtain ⟨-, chosenFits, -⟩ := mem_candidates_iff.mp candidate
  obtain ⟨text, named⟩ := workable.described.name chosenFits
  exact ⟨_, _, placeCell_eq_ok_iff.mpr
    ⟨record, chosen, text, found, choice, named, rfl, rfl⟩⟩

theorem replaceAll_of_secure (ignores : rule.IgnoresPlacement)
    {cells : List Symbol} (workable : Workable layout)
    (secure : ∀ cell ∈ cells, Secure rule options.fanoutLimit layout cell) :
    ∃ moved after, replaceAll rule options cells layout = .ok moved after := by
  induction cells generalizing layout with
  | nil => exact ⟨0, layout, rfl⟩
  | cons cell rest induction =>
      obtain ⟨moved, middle, first⟩ :=
        placeCell_of_secure ignores workable (secure cell List.mem_cons_self)
      have move := moves_of_placeCell first
      have single : Chain (picks rule options) [cell] layout middle :=
        .cons move (.nil middle)
      obtain ⟨others, after, later⟩ :=
        induction (workable.touches (move.touches workable.knows))
          (fun other member => Secure.chain ignores single workable
            (.inr (secure other (List.mem_cons_of_mem cell member))))
      refine ⟨(if moved then 1 else 0) + others, after, ?_⟩
      rw [replaceAll, Edit.bind_of_ok first, Edit.bind_of_ok later]
      rfl

theorem improve_of_secure (ignores : rule.IgnoresPlacement) {cells : List Symbol}
    (workable : Workable layout)
    (secure : ∀ cell ∈ cells, Secure rule options.fanoutLimit layout cell)
    (passes : Nat) :
    ∃ after, improve rule options passes cells layout = .ok () after := by
  induction passes generalizing cells layout with
  | zero => exact ⟨layout, rfl⟩
  | succ passes induction =>
      obtain ⟨order, random, drawn, members⟩ := shuffled_ok cells layout
      have drawnWorkable := workable.withRandom random
      have still : ∀ cell ∈ order,
          Secure rule options.fanoutLimit (layout.withRandom random) cell := by
        intro cell member
        exact (secure cell ((members cell).mp member)).withRandom ignores random
      obtain ⟨moved, after, pass⟩ :=
        replaceAll_of_secure ignores drawnWorkable still
      have chain := replaceAll_chain pass
      rw [improve, Edit.bind_of_ok drawn, Edit.bind_of_ok pass]
      split
      · exact ⟨after, rfl⟩
      · apply induction
        · exact drawnWorkable.touches (chain.touches drawnWorkable.knows)
        · exact fun cell member => Secure.chain ignores chain drawnWorkable
            (.inl member)

end Passes

/-! ## The whole placer -/

/-- The options without improvement passes, so that nothing is left for the
stopping rule to decide. -/
def withoutPasses (options : PlaceOptions) : PlaceOptions :=
  { options with improvementPasses := 0, stopWhenStable := true }

theorem placeUnplaced_withoutPasses (rule : LegalityRule κ)
    (options : PlaceOptions) (cells : List Symbol) :
    placeUnplaced rule (withoutPasses options) cells =
      placeUnplaced rule options cells := by
  induction cells with
  | nil => rfl
  | cons cell rest induction =>
      rw [placeUnplaced, placeUnplaced, induction]
      rfl

theorem place_withoutPasses (rule : LegalityRule κ) (options : PlaceOptions) :
    place rule (withoutPasses options) =
      start rule options >>= fun _ => pure () := by
  rw [place_eq_start]
  simp only [start, placeUnplaced_withoutPasses]
  rfl

/-- The cells that the first placement answers are secure when it is over. -/
theorem start_secure {rule : LegalityRule κ} (ignores : rule.IgnoresPlacement)
    {options : PlaceOptions} {before after : Layout κ} {placed : List Symbol}
    (own : before.fabric.device.OwnAvailability)
    (described : before.fabric.device.Described)
    (run : start rule options before = .ok placed after) :
    Workable after ∧
      ∀ cell ∈ placed, Secure rule options.fanoutLimit after cell := by
  obtain ⟨located, middle, pass, run⟩ := Edit.bind_eq_ok_iff.mp run
  rw [Edit.bind_get] at run
  obtain ⟨knows, fixes⟩ := Constraints.place_fixes pass
  have device : middle.fabric.device = before.fabric.device :=
    fixes.touches.device
  have workable : Workable middle := ⟨knows, device ▸ own, device ▸ described⟩
  obtain ⟨chain, -⟩ := placeUnplaced_chain (Table.nodup_keys _) run
  refine ⟨workable.touches (chain.touches knows), ?_⟩
  exact fun cell member => Secure.chain ignores chain workable (.inl member)

end Greedy

namespace Layout

/-- The same cells have a bel. -/
def SamePlaced (left right : Layout κ) : Prop :=
  ∀ cell, (left.design.belOf (some cell)).isSome =
    (right.design.belOf (some cell)).isSome

end Layout

/-- However many improvement passes the greedy placer makes, whether or not it
stops early, and whatever random numbers it draws, it ends as without such
passes, and the same cells have a bel then. -/
theorem Greedy.place_ends_withoutPasses [Scalar κ] {rule : LegalityRule κ}
    (ignores : rule.IgnoresPlacement) {layout : Layout κ}
    (own : layout.fabric.device.OwnAvailability)
    (described : layout.fabric.device.Described) (options : PlaceOptions)
    (random : Generator) :
    (place rule options).outcome (layout.withRandom random) =
        (place rule (withoutPasses options)).outcome layout ∧
      SamePlaced ((place rule options).after (layout.withRandom random))
        ((place rule (withoutPasses options)).after layout) := by
  rw [place_eq_start rule options, place_withoutPasses]
  have begun := seedFree_start ignores.ignoresRandom options layout random
  cases run : start rule options layout with
  | error stop reached =>
      rw [run] at begun
      have stopped (next : List Symbol → LayoutEdit κ Unit) :
          (start rule options >>= next) (layout.withRandom random) =
            .error stop (reached.withRandom random) := Edit.bind_of_error begun
      have same : (start rule options >>= fun _ => pure ()) layout =
          .error stop reached := Edit.bind_of_error run
      rw [Edit.outcome_of_error (stopped _), Edit.outcome_of_error same,
        Edit.after_of_error (stopped _), Edit.after_of_error same]
      exact ⟨rfl, fun _ => rfl⟩
  | ok placed reached =>
      rw [run] at begun
      obtain ⟨workable, secure⟩ := start_secure ignores own described run
      have still : ∀ cell ∈ placed,
          Secure rule options.fanoutLimit (reached.withRandom random) cell :=
        fun cell member => (secure cell member).withRandom ignores random
      obtain ⟨after, improved⟩ :=
        improve_of_secure ignores (workable.withRandom random) still
          options.improvementPasses
      have left := (Edit.bind_of_ok begun).trans improved
      have right : (start rule options >>= fun _ => pure ()) layout =
          .ok () reached := Edit.bind_of_ok run
      rw [Edit.outcome_of_ok left, Edit.outcome_of_ok right,
        Edit.after_of_ok left, Edit.after_of_ok right]
      refine ⟨rfl, ?_⟩
      intro cell
      obtain ⟨visits, chain, inside⟩ := improve_chain improved
      rw [Bool.eq_iff_iff, chain.placed_iff]
      apply or_iff_right_of_imp
      intro visited
      exact (secure cell (inside cell visited)).placed

/-- A rule that keeps the first cell of a design of two off the first bel. -/
def reserved : SiteRules := ⟨[(some "a", ⟨0⟩)], none⟩

/-- The free cell finds its place, however often it is placed again. -/
theorem Greedy.place_ends_withoutPasses_of_halfFixed :
    (place reserved.rule ⟨7, false, 2, .preferFirst⟩).outcome
        (halfFixed.withRandom (.ofSeed 5)) = .ok () ∧
      SamePlaced ((place reserved.rule ⟨7, false, 2, .preferFirst⟩).after
          (halfFixed.withRandom (.ofSeed 5)))
        ((place reserved.rule
          (withoutPasses ⟨7, false, 2, .preferFirst⟩)).after halfFixed) := by
  have own : halfFixed.fabric.device.OwnAvailability :=
    (Grid.localAvailability _).ownAvailability
  have described : halfFixed.fabric.device.Described := Grid.described _
  have ignores : (reserved.rule : LegalityRule Int).IgnoresPlacement :=
    SiteRules.ignoresPlacement rfl
  obtain ⟨same, placed⟩ := place_ends_withoutPasses ignores own described
    ⟨7, false, 2, .preferFirst⟩ (.ofSeed 5)
  refine ⟨same.trans ?_, placed⟩
  obtain ⟨_, run⟩ := Edit.run_of_isOk
    (by decide +kernel : ((place reserved.rule
      (withoutPasses ⟨7, false, 2, .preferFirst⟩)).outcome halfFixed).isOk = true)
  exact Edit.outcome_of_ok run

end FpgaPlacer
