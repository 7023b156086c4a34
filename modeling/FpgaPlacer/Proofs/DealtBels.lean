import FpgaPlacer.Proofs.GreedyCapacity

/-!
# First fit deals bels in order

With the rule that accepts every bel, first fit deals the available bels of a
type like cards from a pile.  The walk of a type name passes over bels of other
types and bels that are held, and nothing else, so the bel that it comes to is
always the first that is still open.  A walk for another name of the same type
starts at the first bel again and finds the pile as the walk before left it.
So the cells of one type, by type name and then in table order, sit on the
first bels of the pile, in order and without gaps.
-/

namespace FpgaPlacer

variable {κ : Type}

/-! ## Sorted groups -/

section Groups

variable {α : Type} {key : α → String}

/-- In a list sorted by a key, the items with the least key come first. -/
theorem filter_least_append {least : String} {items : List α}
    (sorted : items.Pairwise (fun left right => key left ≤ key right))
    (bounded : ∀ item ∈ items, least ≤ key item) :
    items.filter (fun item => key item = least) ++
      items.filter (fun item => key item ≠ least) = items := by
  induction items with
  | nil => rfl
  | cons item rest induction =>
      obtain ⟨below, restSorted⟩ := List.pairwise_cons.mp sorted
      by_cases same : key item = least
      · have whole := induction restSorted
          (fun other member => bounded other (List.mem_cons_of_mem item member))
        rw [List.filter_cons_of_pos (by simpa using same),
          List.filter_cons_of_neg (by simpa using same), List.cons_append, whole]
      · have greater : ∀ other ∈ item :: rest, key other ≠ least := by
          intro other member equal
          have atLeast := bounded item List.mem_cons_self
          rcases List.mem_cons.mp member with rfl | later
          · exact same equal
          · have above := below other later
            rw [equal] at above
            exact same (String.le_antisymm above atLeast)
        rw [List.filter_eq_nil_iff.mpr (by simpa using greater),
          List.filter_eq_self.mpr (by simpa using greater), List.nil_append]

/-- A list sorted by a key is made of the groups of its keys. -/
theorem flatMap_groups {names : List String}
    (ascending : names.Pairwise (· < ·)) {items : List α}
    (sorted : items.Pairwise (fun left right => key left ≤ key right))
    (covered : ∀ item ∈ items, key item ∈ names) :
    names.flatMap (fun name => items.filter (fun item => key item = name)) =
      items := by
  induction names generalizing items with
  | nil =>
      cases items with
      | nil => rfl
      | cons item rest => exact absurd (covered item List.mem_cons_self) (by simp)
  | cons least names induction =>
      obtain ⟨below, ascending⟩ := List.pairwise_cons.mp ascending
      have bounded : ∀ item ∈ items, least ≤ key item := by
        intro item member
        rcases List.mem_cons.mp (covered item member) with same | later
        · exact same ▸ String.le_refl _
        · exact String.not_lt.mp (String.lt_asymm (below _ later))
      have others : names.flatMap (fun name =>
            (items.filter (fun item => key item ≠ least)).filter
              (fun item => key item = name)) =
          items.filter (fun item => key item ≠ least) := by
        apply induction ascending (sorted.filter _)
        intro item member
        obtain ⟨inside, different⟩ := List.mem_filter.mp member
        have known := List.mem_cons.mp (covered item inside)
        exact known.resolve_left (of_decide_eq_true different)
      have groups : names.flatMap (fun name =>
            (items.filter (fun item => key item ≠ least)).filter
              (fun item => key item = name)) =
          names.flatMap (fun name =>
            items.filter (fun item => key item = name)) := by
        apply List.flatMap_congr
        intro name member
        rw [List.filter_filter]
        apply List.filter_congr
        intro item _
        have later : name ≠ least := by
          rintro rfl
          exact String.lt_irrefl _ (below _ member)
        by_cases same : key item = name
        · simp [same, later]
        · simp [same]
      rw [List.flatMap_cons, ← groups, others]
      exact filter_least_append sorted bounded

theorem filter_mergeSort (items : List α) (name : String) :
    (items.mergeSort (fun left right => key left ≤ key right)).filter
        (fun item => key item = name) =
      items.filter (fun item => key item = name) := by
  let group := items.filter (fun item => key item = name)
  have alike : group.Pairwise (fun left right =>
      decide (key left ≤ key right) = true) := by
    apply List.pairwise_of_forall_mem_list
    intro left inLeft right inRight
    have leftKey := of_decide_eq_true (List.mem_filter.mp inLeft).2
    have rightKey := of_decide_eq_true (List.mem_filter.mp inRight).2
    rw [leftKey, rightKey]
    exact decide_eq_true (String.le_refl name)
  have kept := (List.sublist_mergeSort
    (FirstFit.trans_of_key key) (FirstFit.total_of_key key) alike
    List.filter_sublist).filter (fun item => key item = name)
  have whole : group.filter (fun item => key item = name) = group := by
    simp [group, List.filter_filter]
  rw [whole] at kept
  have sameLength := ((List.mergeSort_perm items
    (fun left right => key left ≤ key right)).filter
      (fun item => key item = name)).length_eq
  exact (kept.eq_of_length sameLength.symm).symm

theorem eraseDups_filter [BEq α] [LawfulBEq α] (accepts : α → Bool) :
    (items : List α) →
      (items.filter accepts).eraseDups = items.eraseDups.filter accepts
  | [] => rfl
  | item :: rest => by
      have later := eraseDups_filter accepts
        (rest.filter (fun other => !other == item))
      rw [List.eraseDups_cons]
      by_cases accepted : accepts item = true
      · rw [List.filter_cons_of_pos accepted, List.filter_cons_of_pos accepted,
          List.eraseDups_cons, ← later, List.filter_comm]
      · have absent : ∀ other ∈ rest.filter accepts, (!other == item) = true := by
          intro other member
          have allowed := (List.mem_filter.mp member).2
          simp only [Bool.not_eq_true', beq_eq_false_iff_ne]
          rintro rfl
          exact accepted allowed
        rw [List.filter_cons_of_neg accepted, List.filter_cons_of_neg accepted,
          ← later, List.filter_comm, List.filter_eq_self.mpr absent]
termination_by items => items.length
decreasing_by exact Nat.lt_succ_of_le (List.length_filter_le _ rest)

end Groups

namespace Layout

/-! ## Piles and queues -/

/-- The cells without a bel, by type name and then in table order. -/
def waiting (layout : Layout κ) : List (Symbol × Cell) :=
  (FirstFit.unplaced layout.design).mergeSort (fun left right =>
    typeNameOf layout.design left.2 ≤ typeNameOf layout.design right.2)

/-- The cells without a bel that ask for a bel type, whatever name they know it
by, in the same order. -/
def queue (layout : Layout κ) (belType : BelType) : List Symbol :=
  (layout.waiting.filter (fun entry =>
    (layout.typeFor entry.2.cellType).toOption = some belType)).map Prod.fst

/-- The available bels of a type in enumeration order, each of them once. -/
def pile (layout : Layout κ) (belType : BelType) : List BelId :=
  ((layout.fabric.device.belsOfType belType).filter
    layout.fabric.available).eraseDups

theorem mem_pile_iff {layout : Layout κ} {belType : BelType} {bel : BelId} :
    bel ∈ layout.pile belType ↔ bel ∈ layout.openings belType := by
  rw [pile, openings, List.mem_eraseDups, List.mem_toFinset]

theorem nodup_pile (layout : Layout κ) (belType : BelType) :
    (layout.pile belType).Nodup :=
  FirstFit.nodup_eraseDups _

/-- The fabric cannot contradict a cell without a bel. -/
theorem owns_of_waiting (layout : Layout κ) (cell : Symbol)
    (waits : cell ∈ layout.waiting.map Prod.fst) : layout.Owns cell := by
  intro record bel found placed
  obtain ⟨entry, member, rfl⟩ := List.mem_map.mp waits
  obtain ⟨stored, bare⟩ := FirstFit.mem_unplaced_iff.mp
    (List.mem_mergeSort.mp member)
  rw [found] at stored
  cases stored
  rw [placed] at bare
  cases bare

theorem Settled.cellAt {layout : Layout κ} {cell : Symbol} {bel : BelId}
    (settled : layout.Settled cell)
    (placed : layout.design.belOf (some cell) = some bel) :
    layout.fabric.cellAt bel = some cell := by
  obtain ⟨record, found, holds⟩ := Option.bind_eq_some_iff.mp placed
  exact settled.owns found holds

theorem queue_eq (layout : Layout κ) (belType : BelType) :
    layout.queue belType = (layout.waiting.map Prod.fst).filter
      (fun cell => cell ∈ layout.awaiting belType) := by
  rw [queue, List.filter_map]
  congr 1
  apply List.filter_congr
  rintro ⟨cell, record⟩ member
  obtain ⟨found, bare⟩ := FirstFit.mem_unplaced_iff.mp
    (List.mem_mergeSort.mp member)
  apply decide_eq_decide.mpr
  rw [checked_toOption_eq_some_iff, mem_awaiting]
  constructor
  · intro typed
    exact ⟨record, found, bare, typed⟩
  · rintro ⟨other, again, -, typed⟩
    rw [found] at again
    cases again
    exact typed

theorem Fills.pile {cell : Symbol} {bel : BelId} {before after : Layout κ}
    (fills : Fills cell bel before after)
    (isLocal : before.fabric.device.LocalAvailability) (belType : BelType) :
    after.pile belType = (before.pile belType).filter (· ≠ bel) := by
  have device := (fills.assigns isLocal.free).touches.device
  rw [Layout.pile, Layout.pile, device, ← eraseDups_filter, List.filter_filter]
  congr 1
  apply List.filter_congr
  intro query _
  have available := fills.available_iff isLocal query
  rw [Bool.eq_iff_iff, available]
  simp

theorem Fills.belOf {cell : Symbol} {bel : BelId} {before after : Layout κ}
    (fills : Fills cell bel before after) :
    after.design.belOf (some cell) = some bel := by
  cases fills with
  | @intro record belType text knows found bare typed opening named =>
      have stored := get?_cells_assigned before cell cell record bel .weak text
      rw [if_pos rfl] at stored
      exact Design.belOf_of_found stored

/-! ## Dealing -/

/-- A cell without a bel goes to the first bel of the pile it asks for. -/
structure Deals (cell : Symbol) (bel : BelId) (before after : Layout κ) :
    Prop where
  fills : Fills cell bel before after
  first : ∀ belType, cell ∈ before.awaiting belType →
    (before.pile belType).head? = some bel

namespace Deals

variable {cell : Symbol} {bel : BelId} {before after : Layout κ}

theorem pile_of_waiting (deals : Deals cell bel before after)
    (isLocal : before.fabric.device.LocalAvailability) {belType : BelType}
    (waits : cell ∈ before.awaiting belType) :
    before.pile belType = bel :: after.pile belType := by
  obtain ⟨others, top⟩ := List.head?_eq_some_iff.mp (deals.first belType waits)
  have distinct := before.nodup_pile belType
  rw [top] at distinct
  obtain ⟨fresh, -⟩ := List.nodup_cons.mp distinct
  have kept : ∀ other ∈ others, decide (other ≠ bel) = true := by
    intro other member
    apply decide_eq_true
    rintro rfl
    exact fresh member
  rw [deals.fills.pile isLocal, top, List.filter_cons_of_neg (by simp),
    List.filter_eq_self.mpr kept]

theorem pile_of_other (deals : Deals cell bel before after)
    (isLocal : before.fabric.device.LocalAvailability) {belType : BelType}
    (other : cell ∉ before.awaiting belType) :
    before.pile belType = after.pile belType := by
  obtain ⟨asked, waits, opening, -⟩ := deals.fills.openings isLocal
  rw [deals.fills.pile isLocal, List.filter_eq_self.mpr]
  intro query member
  apply decide_eq_true
  rintro rfl
  have same := openings_unique (mem_pile_iff.mp member) opening
  exact other (same ▸ waits)

end Deals

/-- The given cells are dealt bels, one after the other. -/
inductive Dealings : List Symbol → Layout κ → Layout κ → Prop where
  | nil (layout : Layout κ) : Dealings [] layout layout
  | cons {cell : Symbol} {bel : BelId} {cells : List Symbol}
      {before middle after : Layout κ} (first : Deals cell bel before middle)
      (rest : Dealings cells middle after) :
      Dealings (cell :: cells) before after

namespace Dealings

variable {cells more : List Symbol} {before middle after : Layout κ}

theorem append (first : Dealings cells before middle)
    (second : Dealings more middle after) :
    Dealings (cells ++ more) before after := by
  induction first with
  | nil => exact second
  | cons step rest induction => exact .cons step (induction second)

theorem fillings (run : Dealings cells before after) :
    Fillings cells before after := by
  induction run with
  | nil layout => exact .nil layout
  | cons step rest induction => exact .cons step.fills induction

theorem assignments (run : Dealings cells before after)
    (free : before.fabric.device.AvailableIsFree) :
    Assignments cells before after := by
  induction run with
  | nil layout => exact .nil layout
  | cons step rest induction =>
      have assigns := step.fills.assigns free
      exact .cons assigns (induction (assigns.touches.device ▸ free))

/-- A pile is made of the bels dealt from it, in the order of the cells that
asked for them, and of what is left. -/
theorem pile_eq (run : Dealings cells before after)
    (isLocal : before.fabric.device.LocalAvailability) (distinct : cells.Nodup)
    (belType : BelType) :
    (before.pile belType).map some =
      (cells.filter (fun cell => cell ∈ before.awaiting belType)).map
        (fun cell => after.design.belOf (some cell)) ++
          (after.pile belType).map some := by
  induction run with
  | nil layout => rfl
  | @cons cell bel cells before middle after step rest induction =>
      obtain ⟨fresh, distinct⟩ := List.nodup_cons.mp distinct
      have touches := (step.fills.assigns isLocal.free).touches
      have locally := touches.device ▸ isLocal
      have later := induction locally distinct
      have sameQueue : cells.filter (fun cell =>
            cell ∈ middle.awaiting belType) =
          cells.filter (fun cell => cell ∈ before.awaiting belType) := by
        apply List.filter_congr
        intro other member
        have different : other ≠ cell := by
          rintro rfl
          exact fresh member
        rw [step.fills.awaiting isLocal.free]
        simp [different]
      rw [sameQueue] at later
      by_cases waits : cell ∈ before.awaiting belType
      · have seated : after.design.belOf (some cell) = some bel := by
          have kept := (rest.fillings.touches locally.free).others cell fresh
          rw [← step.fills.belOf]
          exact congrArg (fun stored => stored.bind Cell.bel) kept
        rw [step.pile_of_waiting isLocal waits,
          List.filter_cons_of_pos (by simpa using waits), List.map_cons,
          List.map_cons, List.cons_append, seated, later]
      · rw [step.pile_of_other isLocal waits,
          List.filter_cons_of_neg (by simpa using waits), later]

end Dealings

end Layout

open Layout

namespace FirstFit

theorem filter_nextFit {accepts : BelId → Bool} {bels rest : List BelId}
    {bel : BelId} (next : nextFit accepts bels = some (bel, rest)) :
    bels.filter accepts = bel :: rest.filter accepts := by
  induction bels with
  | nil => cases next
  | cons first others induction =>
      rw [nextFit] at next
      split at next
      · rename_i accepted
        cases next
        exact List.filter_cons_of_pos accepted
      · rename_i refused
        rw [List.filter_cons_of_neg refused]
        exact induction next

/-- Whether a bel is an available bel of a type. -/
def opens (layout : Layout κ) (belType : BelType) (bel : BelId) : Bool :=
  layout.fabric.device.belType bel = some belType && layout.fabric.available bel

theorem admits_anyBel (layout : Layout κ) (belType : BelType) (cell : Symbol) :
    admits .anyBel layout belType cell = opens layout belType := by
  funext bel
  simp [admits, opens, LegalityRule.anyBel]

theorem pile_eq (layout : Layout κ) (belType : BelType) :
    layout.pile belType =
      (layout.fabric.device.bels.filter (opens layout belType)).eraseDups := by
  rw [Layout.pile, Device.belsOfType, List.filter_filter]
  congr 1
  apply List.filter_congr
  intro bel _
  exact Bool.and_comm _ _

/-- The walk over the given bels has the whole pile of the type ahead of it. -/
def AtPile (layout : Layout κ) (belType : BelType) (bels : List BelId) : Prop :=
  layout.pile belType = (bels.filter (opens layout belType)).eraseDups

theorem AtPile.onwards {layout middle : Layout κ} {belType : BelType}
    {cell : Symbol} {bel : BelId} {bels others : List BelId}
    (atPile : AtPile layout belType bels)
    (isLocal : layout.fabric.device.LocalAvailability)
    (next : nextFit (opens layout belType) bels = some (bel, others))
    (step : Fills cell bel layout middle) : AtPile middle belType others := by
  have device := (step.assigns isLocal.free).touches.device
  have stillOpen : ∀ query, opens middle belType query =
      (decide (query ≠ bel) && opens layout belType query) := by
    intro query
    have available := step.available_iff isLocal query
    rw [Bool.eq_iff_iff]
    simp only [opens, device, Bool.and_eq_true, decide_eq_true_eq, available]
    exact and_left_comm
  have dealt : (bels.filter (opens layout belType)).filter (· ≠ bel) =
      others.filter (opens middle belType) := by
    rw [filter_nextFit next, List.filter_cons_of_neg (by simp),
      List.filter_filter]
    exact List.filter_congr (fun query _ => (stillOpen query).symm)
  rw [AtPile, step.pile isLocal, atPile, ← eraseDups_filter, dealt]

theorem placeCells_dealt {typeName : String} {belType : BelType}
    {cells : List Symbol} {bels : List BelId} {before after : Layout κ}
    (knows : before.design.KnowsLocation)
    (isLocal : before.fabric.device.LocalAvailability) (distinct : cells.Nodup)
    (waits : ∀ cell ∈ cells, cell ∈ before.awaiting belType)
    (atPile : AtPile before belType bels)
    (run : placeCells .anyBel typeName belType cells bels before =
      .ok () after) : Dealings cells before after := by
  induction cells generalizing bels before with
  | nil =>
      cases run
      exact .nil _
  | cons cell rest induction =>
      obtain ⟨fresh, distinct⟩ := List.nodup_cons.mp distinct
      obtain ⟨bel, others, record, text, next, found, named, run⟩ :=
        placeCells_cons_ok run
      rw [admits_anyBel] at next
      have asks := waits cell List.mem_cons_self
      obtain ⟨own, present, bare, typed⟩ := mem_awaiting.mp asks
      rw [found] at present
      cases present
      have top : before.pile belType =
          bel :: ((others.filter (opens before belType)).filter
            (fun other => !other == bel)).eraseDups := by
        rw [atPile, filter_nextFit next, List.eraseDups_cons]
      have opening : bel ∈ before.openings belType := by
        rw [← mem_pile_iff, top]
        exact List.mem_cons_self
      have step : Fills cell bel before
          (before.assigned cell record bel .weak text) :=
        .intro knows found bare typed opening named
      have deals : Deals cell bel before
          (before.assigned cell record bel .weak text) := by
        refine ⟨step, ?_⟩
        intro asked waitsToo
        rw [awaiting_unique waitsToo asks, top]
        rfl
      have touches := (step.assigns isLocal.free).touches
      apply Dealings.cons deals
      have waiting := step.stillAwaiting isLocal.free fresh
        (fun other member => waits other (List.mem_cons_of_mem cell member))
      exact induction (touches.knows knows) (touches.device ▸ isLocal) distinct
        waiting (atPile.onwards isLocal next step) run

theorem placeBuckets_dealt {groups : List Bucket} {bels : List BelId}
    {before after : Layout κ} (knows : before.design.KnowsLocation)
    (isLocal : before.fabric.device.LocalAvailability)
    (whole : bels = before.fabric.device.bels)
    (distinct : (groups.flatMap Bucket.cells).Nodup)
    (waits : ∀ bucket ∈ groups, ∀ cell ∈ bucket.cells,
      cell ∈ before.awaiting bucket.belType)
    (run : placeBuckets .anyBel bels groups before = .ok () after) :
    Dealings (groups.flatMap Bucket.cells) before after := by
  induction groups generalizing before with
  | nil =>
      cases run
      exact .nil _
  | cons bucket rest induction =>
      rw [List.flatMap_cons] at distinct ⊢
      obtain ⟨here, later, disjoint⟩ := List.nodup_append'.mp distinct
      rw [placeBuckets] at run
      obtain ⟨_, middle, first, run⟩ := Edit.bind_eq_ok_iff.mp run
      have atPile : AtPile before bucket.belType bels := by
        rw [AtPile, whole]
        exact pile_eq before bucket.belType
      have dealt := placeCells_dealt knows isLocal here
        (waits bucket List.mem_cons_self) atPile first
      have touches := dealt.fillings.touches isLocal.free
      apply dealt.append
      apply induction (touches.knows knows) (touches.device ▸ isLocal)
        (whole.trans (congrArg Device.bels touches.device.symm)) later _ run
      intro other member cell inside
      apply dealt.fillings.awaiting isLocal.free
      · intro placedHere
        exact disjoint placedHere (List.mem_flatMap.mpr ⟨other, member, inside⟩)
      · exact waits other (List.mem_cons_of_mem bucket member) cell inside

theorem cells_of_named {layout : Layout κ} {names : List String}
    (named : ∀ name ∈ names, ∃ belType,
      layout.fabric.device.typeNamed name = some belType) :
    (names.filterMap (fun name => (layout.fabric.device.typeNamed name).map
        (bucketOf layout name))).flatMap Bucket.cells =
      (names.flatMap (fun name => (unplaced layout.design).filter (fun entry =>
        typeNameOf layout.design entry.2 = name))).map Prod.fst := by
  induction names with
  | nil => rfl
  | cons name rest induction =>
      obtain ⟨belType, known⟩ := named name List.mem_cons_self
      have others := induction
        (fun other member => named other (List.mem_cons_of_mem name member))
      rw [List.filterMap_cons, known, Option.map_some, List.flatMap_cons,
        List.flatMap_cons, List.map_append, others]
      rfl

/-- The buckets one after the other list the cells without a bel by type name and
then in table order. -/
theorem cells_of_buckets {layout : Layout κ} {groups : List Bucket}
    (grouped : buckets layout = .ok groups) :
    groups.flatMap Bucket.cells = layout.waiting.map Prod.fst := by
  obtain ⟨known, answer⟩ := checked_then_eq_ok_iff.mp grouped
  cases answer
  let entries := unplaced layout.design
  let nameOf (entry : Symbol × Cell) : String := typeNameOf layout.design entry.2
  let names := sortedDistinct (entries.map nameOf)
  have named : ∀ name ∈ names, ∃ belType,
      layout.fabric.device.typeNamed name = some belType := by
    intro name member
    obtain ⟨entry, listed, rfl⟩ := List.mem_map.mp (mem_sortedDistinct.mp member)
    obtain ⟨belType, typed⟩ := checkTypes_ok known listed
    exact ⟨belType, typeFor_eq_ok_iff.mp typed⟩
  have covered : ∀ entry ∈ layout.waiting, nameOf entry ∈ names := by
    intro entry member
    apply mem_sortedDistinct.mpr
    exact List.mem_map_of_mem (List.mem_mergeSort.mp member)
  have groups : names.flatMap (fun name =>
        entries.filter (fun entry => nameOf entry = name)) = layout.waiting := by
    refine Eq.trans ?_ (flatMap_groups (pairwise_sortedDistinct _)
      (pairwise_mergeSort_key nameOf entries) covered)
    apply List.flatMap_congr
    intro name _
    exact (filter_mergeSort entries name).symm
  refine (cells_of_named named).trans ?_
  exact congrArg (List.map Prod.fst) groups

/-- With the rule that accepts every bel, the cells of a type that the fixed
locations leave without a bel, by type name and then in table order, are put on
the bels of the type that the fixed locations leave available, in enumeration
order and without gaps. -/
theorem place_deals_in_order {layout after : Layout κ}
    (isLocal : layout.fabric.device.LocalAvailability)
    (run : place .anyBel layout = .ok () after) :
    ∃ located middle, Constraints.place layout = .ok located middle ∧
      ∀ belType (index : Nat) cell, (middle.queue belType)[index]? = some cell →
        ∃ bel, (middle.pile belType)[index]? = some bel ∧
          after.design.belOf (some cell) = some bel ∧
          after.fabric.cellAt bel = some cell := by
  obtain ⟨located, middle, groups, pass, grouped, rest⟩ := place_eq_ok_iff.mp run
  obtain ⟨ready, fixes⟩ := Constraints.place_ok isLocal.free pass
  refine ⟨located, middle, pass, ?_⟩
  have locally : middle.fabric.device.LocalAvailability :=
    fixes.touches.device ▸ isLocal
  have distinct := nodup_buckets grouped
  have dealt := placeBuckets_dealt ready.knows locally rfl distinct
    (awaiting_of_buckets grouped) rest
  rw [cells_of_buckets grouped] at dealt distinct
  intro belType index cell next
  have piles := dealt.pile_eq locally distinct belType
  rw [← queue_eq] at piles
  have inside : index < (middle.queue belType).length :=
    (List.getElem?_eq_some_iff.mp next).1
  have seat : (middle.pile belType)[index]?.map some =
      some (after.design.belOf (some cell)) := by
    rw [← List.getElem?_map, piles,
      List.getElem?_append_left (by simpa using inside), List.getElem?_map, next]
    rfl
  obtain ⟨bel, dealtBel, placed⟩ := Option.map_eq_some_iff.mp seat
  have visited : cell ∈ middle.waiting.map Prod.fst := by
    have queued := List.mem_of_getElem? next
    rw [queue_eq] at queued
    exact List.mem_of_mem_filter queued
  have settled := (dealt.assignments locally.free).settled
    (fun _ member => member) (owns_of_waiting middle) (.inl visited)
  exact ⟨bel, dealtBel, placed.symm, settled.cellAt placed.symm⟩

/-- Two cells on a device that takes every type name for that of its bels. -/
def twoNames : Layout Int :=
  let grid := Grid.uniform "g" 2 1 "LUT"
  let device :=
    { grid.device Int with typeNamed := fun _ => grid.typeNamed "LUT" }
  ((fresh device).editDesign (Design.createCell "a" "LUT")).editDesign
    (Design.createCell "b" "CARRY")

/-- The greedy placer finds room for both cells, so first fit does. -/
theorem place_deals_in_order_of_twoNames :
    ∃ after, place .anyBel twoNames = .ok () after ∧
      ∃ located middle, Constraints.place twoNames = .ok located middle ∧
        ∀ belType (index : Nat) cell,
          (middle.queue belType)[index]? = some cell →
          ∃ bel, (middle.pile belType)[index]? = some bel ∧
            after.design.belOf (some cell) = some bel ∧
            after.fabric.cellAt bel = some cell := by
  have grids := @Grid.localAvailability Int _ (Grid.uniform "g" 2 1 "LUT")
  have details := @Grid.described Int _ (Grid.uniform "g" 2 1 "LUT")
  have isLocal : twoNames.fabric.device.LocalAvailability :=
    ⟨grids.free, grids.own⟩
  have described : twoNames.fabric.device.Described :=
    ⟨details.name, details.position⟩
  obtain ⟨_, greedy⟩ := Edit.run_of_isOk
    (by decide +kernel :
      ((Greedy.place .anyBel .default).outcome twoNames).isOk = true)
  have placeable := Greedy.placeable_of_outcome isLocal described
    (Edit.outcome_of_ok greedy)
  have run := Edit.outcome_eq_ok
    (outcome_of_placeable isLocal described placeable)
  exact ⟨_, run, place_deals_in_order isLocal run⟩

end FirstFit

end FpgaPlacer
