import Mathlib.Algebra.BigOperators.Group.List.Basic
import Mathlib.Algebra.BigOperators.Ring.List
import Mathlib.Tactic.LinearCombination
import FpgaPlacer.Proofs.ImprovementPasses
import FpgaPlacer.Proofs.Reciprocity

/-!
# The length of the wiring

With exact coordinates, the wiring of a layout has a length: the distances of all pairs
of ends, net by net.  The share of one cell in it is what the greedy placer computes as
the cost of the cell.  The placer goes from port to port, and the length is taken net by
net; the two agree because each end of a net on the cell is one of its ports, and each
connected port is one end.
-/

namespace FpgaPlacer

def Net.ends (net : Net) : List NetEnd := net.driver :: net.users

/-- The sum over all unordered pairs of positions in a list. -/
def pairSum {α : Type} (weight : α → α → Int) : List α → Int
  | [] => 0
  | first :: rest => (rest.map (weight first)).sum + pairSum weight rest

namespace Layout

/-- Where a net end is, if its cell is placed. -/
def endPosition {κ : Type} (layout : Layout κ) (netEnd : NetEnd) : Option (Position κ) :=
  (layout.design.belOf netEnd.cell).bind layout.fabric.device.position

variable (layout : Layout Int)

/-- The distance of a net end from a position; none for an end that is not placed. -/
def reach (position : Position Int) (netEnd : NetEnd) : Int :=
  (layout.endPosition netEnd).elim 0 position.manhattan

/-- The distance of two ends on different placed cells. -/
def span (first second : NetEnd) : Int :=
  if first.cell = second.cell then 0
  else (layout.endPosition first).elim 0 (layout.reach · second)

/-- The distances of all pairs of ends, net by net. -/
def wiringLength : Int :=
  (layout.design.nets.values.map (fun net => pairSum layout.span net.ends)).sum

/-- What the wiring would be longer by if a cell were at a position: for each net, its
ends on the cell times the distances of the others. -/
def share (cell : Symbol) (position : Position Int) : Int :=
  (layout.design.nets.values.map (fun net =>
    (net.ends.countP (·.cell = some cell) : Int) *
      (net.ends.map (layout.reach position)).sum)).sum

end Layout

/-! ## Sums over pairs -/

section PairSum

variable {α : Type}

/-- Weights that differ by a product of what each side adds. -/
theorem pairSum_add_mul {weight more : α → α → Int} {count cost : α → Int}
    (apart : ∀ item, count item * cost item = 0)
    (split : ∀ first second, more first second = weight first second +
      (count first * cost second + count second * cost first)) (items : List α) :
    pairSum more items =
      pairSum weight items + (items.map count).sum * (items.map cost).sum := by
  induction items with
  | nil => simp [pairSum]
  | cons first rest induction =>
      have row : (rest.map (more first)).sum = (rest.map (weight first)).sum +
          (count first * (rest.map cost).sum + (rest.map count).sum * cost first) := by
        rw [funext (split first), List.sum_map_add, List.sum_map_add,
          List.sum_map_mul_left, List.sum_map_mul_right]
      have alone := apart first
      simp only [pairSum, row, induction, List.map_cons, List.sum_cons]
      linear_combination -alone

theorem sum_map_ite_one (holds : α → Prop) [DecidablePred holds] (items : List α) :
    (items.map (fun item => if holds item then (1 : Int) else 0)).sum =
      items.countP (holds ·) := by
  induction items with
  | nil => rfl
  | cons item rest induction =>
      rw [List.map_cons, List.sum_cons, induction, List.countP_cons, Int.add_comm]
      by_cases here : holds item <;> simp [here]

theorem sum_map_flatMap {β : Type} (weight : β → Int) (parts : α → List β)
    (items : List α) :
    ((items.flatMap parts).map weight).sum =
      (items.map (fun item => ((parts item).map weight).sum)).sum := by
  induction items with
  | nil => rfl
  | cons item rest induction =>
      rw [List.flatMap_cons, List.map_append, List.sum_append, induction, List.map_cons,
        List.sum_cons]

end PairSum

/-! ## Sums over look-ups -/

namespace Table

variable {kind : HandleKind} {α : Type}

theorem sum_get? (table : Table kind α) (weight : α → Int) (query : Handle kind) :
    (table.toList.map (fun entry =>
        if some query = some entry.1 then weight entry.2 else 0)).sum =
      (table.get? query).elim 0 weight := by
  obtain ⟨entries, sorted⟩ := table
  change _ = (Entries.get? query entries).elim 0 weight
  induction entries with
  | nil => rfl
  | cons head rest induction =>
      obtain ⟨handle, value⟩ := head
      obtain ⟨above, restSorted⟩ := List.pairwise_cons.mp sorted
      rw [List.map_cons, List.sum_cons, Entries.get?]
      by_cases same : handle = query
      · have others := induction restSorted
        rw [Entries.get?_eq_none_of_forall_ne (fun entry member =>
          same ▸ (Handle.ne_of_lt (above entry member)).symm)] at others
        rw [others, if_pos same, if_pos (congrArg some same.symm)]
        exact Int.add_zero _
      · rw [induction restSorted, if_neg same,
          if_neg (fun found => same (Option.some.inj found).symm)]
        exact Int.zero_add _

/-- Looking handles up one by one counts each entry as often as its handle occurs. -/
theorem sum_lookups (table : Table kind α) (weight : α → Int)
    (queries : List (Option (Handle kind))) :
    (queries.map (fun query => (query.bind table.get?).elim 0 weight)).sum =
      (table.toList.map (fun entry =>
        (queries.countP (· = some entry.1) : Int) * weight entry.2)).sum := by
  induction queries with
  | nil => simp
  | cons query rest induction =>
      have one : (query.bind table.get?).elim 0 weight =
          (table.toList.map (fun entry =>
            if query = some entry.1 then weight entry.2 else 0)).sum := by
        cases query with
        | none => simp
        | some handle => exact (table.sum_get? weight handle).symm
      rw [List.map_cons, List.sum_cons, induction, one, ← List.sum_map_add]
      congr 2
      funext entry
      rw [List.countP_cons]
      by_cases asked : query = some entry.1
      · simp only [asked, decide_true, if_true]
        rw [Int.natCast_add, Int.add_mul, Int.add_comm]
        simp
      · simp [asked]

end Table

/-! ## Ports and ends -/

namespace Design

/-- Each connected port is exactly one end of its net, and each end on a cell is a port
that is connected to the net. -/
structure Matched (design : Design) : Prop where
  port : ∀ {cell port record key}, design.portAt cell port = some record →
    record.net = some key →
    ∃ net, design.nets.get? key = some net ∧
      net.ends.countP (·.isAt cell port) = 1
  netEnd : ∀ {key net netEnd cell}, design.nets.get? key = some net →
    netEnd ∈ net.ends → netEnd.cell = some cell →
    ∃ record, design.portAt cell netEnd.port = some record ∧ record.net = some key

theorem Reciprocal.matched {design : Design} (reciprocal : design.Reciprocal) :
    design.Matched := by
  constructor
  · intro cell port record key present joined
    obtain ⟨net, known, joins⟩ := reciprocal.net present joined
    refine ⟨net, known, ?_⟩
    rw [Net.ends, List.countP_cons]
    by_cases output : record.direction = .output
    · rw [Net.Joins, if_pos output] at joins
      have unused : net.users.countP (·.isAt cell port) = 0 := by
        apply List.countP_eq_zero.mpr
        intro netEnd member located
        obtain ⟨onCell, onPort⟩ := NetEnd.isAt_iff.mp located
        obtain ⟨user, other, named, place, -, input⟩ := reciprocal.user known member
        cases named.symm.trans onCell
        rw [onPort, present] at place
        cases place
        exact input output
      rw [unused, if_pos joins]
    · rw [Net.Joins, if_neg output] at joins
      have undriven : net.driver.isAt cell port ≠ true := by
        intro located
        obtain ⟨onCell, onPort⟩ := NetEnd.isAt_iff.mp located
        obtain ⟨other, place, -, driving⟩ := reciprocal.driver known onCell
        rw [onPort, present] at place
        cases place
        exact output driving
      rw [if_neg undriven]
      exact joins
  · intro key net netEnd cell known member onCell
    rcases List.mem_cons.mp member with rfl | user
    · obtain ⟨record, place, connected, -⟩ := reciprocal.driver known onCell
      exact ⟨record, place, connected⟩
    · obtain ⟨other, record, named, place, connected, -⟩ := reciprocal.user known user
      cases named.symm.trans onCell
      exact ⟨record, place, connected⟩

theorem Matched.of_same {before after : Design} (matched : before.Matched)
    (nets : after.nets = before.nets)
    (ports : ∀ cell port, after.portAt cell port = before.portAt cell port) :
    after.Matched := by
  constructor
  · intro cell port record key present joined
    rw [nets]
    rw [ports] at present
    exact matched.port present joined
  · intro key net netEnd cell known member onCell
    rw [nets] at known
    rw [ports]
    exact matched.netEnd known member onCell

/-- It does not matter where the cells are placed. -/
theorem Matched.of_unseated {before after : Design} (matched : before.Matched)
    (nets : after.nets = before.nets) {key : Symbol}
    (cells : ∀ cell, (after.cells.get? cell).map (·.unseated key) =
      (before.cells.get? cell).map (·.unseated key)) : after.Matched := by
  have ports (design : Design) (cell port : Symbol) : design.portAt cell port =
      ((design.cells.get? cell).map (·.unseated key)).bind (·.ports.get? port) := by
    rw [portAt, Option.bind_map]
    rfl
  apply matched.of_same nets
  intro cell port
  rw [ports, ports, cells]

theorem Matched.countP_isAt_le {design : Design} (matched : design.Matched)
    {key : Symbol} {net : Net} (known : design.nets.get? key = some net)
    (cell port : Symbol) : net.ends.countP (·.isAt cell port) ≤ 1 := by
  by_cases unused : net.ends.countP (·.isAt cell port) = 0
  · rw [unused]
    exact Nat.zero_le 1
  · obtain ⟨netEnd, member, located⟩ :=
      List.countP_pos_iff.mp (Nat.pos_of_ne_zero unused)
    obtain ⟨onCell, onPort⟩ := NetEnd.isAt_iff.mp located
    obtain ⟨record, place, joined⟩ := matched.netEnd known member onCell
    rw [onPort] at place
    obtain ⟨other, knownToo, once⟩ := matched.port place joined
    cases known.symm.trans knownToo
    exact Nat.le_of_eq once

/-- The ends of a net on a cell are the ports of the cell that are connected to it. -/
theorem Matched.exists_end_iff {design : Design} (matched : design.Matched)
    {cell key : Symbol} {record : Cell} {net : Net}
    (found : design.cells.get? cell = some record)
    (known : design.nets.get? key = some net) {port : Symbol} :
    (∃ netEnd ∈ net.ends, netEnd.cell = some cell ∧ netEnd.port = port) ↔
      ∃ stored, record.ports.get? port = some stored ∧ stored.net = some key := by
  rw [← portAt_of_found found]
  constructor
  · rintro ⟨netEnd, member, onCell, rfl⟩
    exact matched.netEnd known member onCell
  · rintro ⟨stored, place, joined⟩
    obtain ⟨other, knownToo, once⟩ := matched.port place joined
    cases known.symm.trans knownToo
    obtain ⟨netEnd, member, located⟩ :=
      List.countP_pos_iff.mp (once ▸ Nat.zero_lt_one)
    exact ⟨netEnd, member, NetEnd.isAt_iff.mp located⟩

/-- A net has as many ends on a cell as the cell has ports connected to it. -/
theorem Matched.countP_ends {design : Design} (matched : design.Matched)
    {cell key : Symbol} {record : Cell} {net : Net}
    (found : design.cells.get? cell = some record)
    (known : design.nets.get? key = some net) :
    net.ends.countP (·.cell = some cell) =
      record.ports.values.countP (·.net = some key) := by
  let ended := (net.ends.filter (·.cell = some cell)).map NetEnd.port
  let joined := (record.ports.toList.filter (·.2.net = some key)).map Prod.fst
  have endedOnce : ended.Nodup := by
    apply List.nodup_iff_count_le_one.mpr
    intro port
    have located : (fun netEnd : NetEnd =>
        ((fun name => name == port) ∘ NetEnd.port) netEnd &&
          decide (netEnd.cell = some cell)) = (·.isAt cell port) := by
      funext netEnd
      simp [NetEnd.isAt, Bool.and_comm, Bool.beq_eq_decide_eq]
    rw [List.count, List.countP_map, List.countP_filter, located]
    exact matched.countP_isAt_le known cell port
  have joinedOnce : joined.Nodup :=
    (Table.nodup_keys record.ports).sublist (List.filter_sublist.map Prod.fst)
  have same : ended.Perm joined := by
    apply (List.perm_ext_iff_of_nodup endedOnce joinedOnce).mpr
    intro port
    simpa [ended, joined, and_assoc, Table.mem_toList_iff] using
      matched.exists_end_iff found known
  rw [Table.values, List.countP_map, List.countP_eq_length_filter,
    List.countP_eq_length_filter]
  simpa [ended, joined, Function.comp_def] using same.length_eq

end Design

/-- Every net has so few users that all of them count towards the wiring cost. -/
def Design.Sparse (design : Design) (fanoutLimit : Nat) : Prop :=
  ∀ ⦃key net⦄, design.nets.get? key = some net → net.users.length < fanoutLimit

/-! ## The share of a cell -/

namespace Layout

/-- The second layout is the first with a cell put at a position. -/
structure Seats (cell : Symbol) (position : Position Int) (bare seated : Layout Int) :
    Prop where
  nets : seated.design.nets = bare.design.nets
  onCell : ∀ {netEnd : NetEnd}, netEnd.cell = some cell →
    bare.endPosition netEnd = none ∧ seated.endPosition netEnd = some position
  offCell : ∀ {netEnd : NetEnd}, netEnd.cell ≠ some cell →
    seated.endPosition netEnd = bare.endPosition netEnd

theorem manhattan_comm (left right : Position Int) :
    left.manhattan right = right.manhattan left := by
  change ((left.1 - right.1).natAbs : Int) + (left.2 - right.2).natAbs =
    (right.1 - left.1).natAbs + (right.2 - left.2).natAbs
  omega

section Seats

variable {cell : Symbol} {position : Position Int} {bare seated : Layout Int}
  (seats : Seats cell position bare seated)

include seats

/-- An end on the cell adds the distance of the other end from the new position. -/
theorem Seats.span (first second : NetEnd) :
    seated.span first second = bare.span first second +
      ((if first.cell = some cell then 1 else 0) * bare.reach position second +
        (if second.cell = some cell then 1 else 0) * bare.reach position first) := by
  by_cases here : first.cell = some cell
  · by_cases there : second.cell = some cell
    · simp [Layout.span, reach, here, there, (seats.onCell here).1,
        (seats.onCell there).1]
    · have apart : some cell ≠ second.cell := fun same => there same.symm
      simp [Layout.span, reach, here, there, apart, seats.onCell here,
        seats.offCell there]
  · by_cases there : second.cell = some cell
    · cases placed : bare.endPosition first with
      | none =>
          simp [Layout.span, reach, here, there, seats.onCell there,
            seats.offCell here, placed]
      | some other =>
          simp [Layout.span, reach, here, there, seats.onCell there,
            seats.offCell here, placed, manhattan_comm]
    · simp [Layout.span, reach, here, there, seats.offCell here, seats.offCell there]

/-- The wiring gets longer by the share of the cell. -/
theorem Seats.wiringLength :
    seated.wiringLength = bare.wiringLength + bare.share cell position := by
  rw [Layout.wiringLength, Layout.wiringLength, share, seats.nets, ← List.sum_map_add]
  congr 2
  funext net
  have apart : ∀ netEnd : NetEnd,
      (if netEnd.cell = some cell then 1 else 0) * bare.reach position netEnd = 0 := by
    intro netEnd
    split
    · rename_i here
      simp [reach, (seats.onCell here).1]
    · exact Int.zero_mul _
  rw [pairSum_add_mul apart seats.span, sum_map_ite_one]

end Seats

end Layout

namespace Greedy

open Layout

theorem addDistances_eq_ok {fabric : Fabric Int} {position : Position Int}
    {cost total : Int} {bels : List BelId}
    (answer : addDistances fabric position cost bels = .ok total) :
    total = cost + (bels.map (fun bel =>
      (fabric.device.position bel).elim 0 position.manhattan)).sum := by
  induction bels generalizing cost with
  | nil =>
      cases answer
      simp
  | cons bel rest induction =>
      obtain ⟨other, asked, later⟩ := checked_bind_eq_ok_iff.mp answer
      have there := Query.ofOption_eq_ok_iff.mp asked
      rw [induction later, List.map_cons, List.sum_cons, there]
      exact Int.add_assoc ..

/-- Where every net has few users, all its ends count. -/
theorem neighbourBels_of_sparse {design : Design} {fanoutLimit : Nat}
    (sparse : design.Sparse fanoutLimit) (record : Cell) :
    neighbourBels design fanoutLimit record =
      record.ports.values.flatMap (fun port =>
        (port.net.bind design.nets.get?).elim []
          (fun net => (net.ends.map NetEnd.cell).filterMap design.belOf)) := by
  rw [neighbourBels]
  congr 1
  funext port
  cases joined : port.net.bind design.nets.get? with
  | none => rfl
  | some net =>
      obtain ⟨key, -, known⟩ := Option.bind_eq_some_iff.mp joined
      simp only [countedEnds, if_pos (sparse known)]
      rfl

/-- The neighbours across one net are its placed ends. -/
theorem sum_neighbours (layout : Layout Int) (position : Position Int)
    (ends : List NetEnd) :
    (((ends.map NetEnd.cell).filterMap layout.design.belOf).map (fun bel =>
        (layout.fabric.device.position bel).elim 0 position.manhattan)).sum =
      (ends.map (layout.reach position)).sum := by
  induction ends with
  | nil => rfl
  | cons first rest induction =>
      rw [List.map_cons, List.map_cons, List.sum_cons, ← induction]
      cases placed : layout.design.belOf first.cell with
      | none => simp [reach, endPosition, placed]
      | some bel => simp [reach, endPosition, placed]

/-- The cost of a cell that is not placed is its share of the wiring. -/
theorem cost_eq_share {layout : Layout Int} (matched : layout.design.Matched)
    {fanoutLimit : Nat} (sparse : layout.design.Sparse fanoutLimit)
    {cell : Symbol} {stored record : Cell}
    (found : layout.design.cells.get? cell = some stored)
    (ports : stored.ports = record.ports) {position : Position Int} {total : Int}
    (priced : cost layout fanoutLimit record position = .ok total) :
    total = layout.share cell position := by
  let distance (bel : BelId) : Int :=
    (layout.fabric.device.position bel).elim 0 position.manhattan
  let reaches (net : Net) : Int := (net.ends.map (layout.reach position)).sum
  have perPort : ∀ net : Option Net,
      ((net.elim [] (fun net =>
          (net.ends.map NetEnd.cell).filterMap layout.design.belOf)).map distance).sum =
        net.elim 0 reaches := by
    intro net
    cases net with
    | none => rfl
    | some net => exact sum_neighbours layout position net.ends
  have perNet : ∀ entry ∈ layout.design.nets.toList,
      ((record.ports.values.map Port.net).countP (· = some entry.1) : Int) *
          reaches entry.2 =
        (entry.2.ends.countP (·.cell = some cell) : Int) * reaches entry.2 := by
    intro entry member
    have known := Table.mem_toList_iff.mp member
    rw [matched.countP_ends found known, ports, List.countP_map]
    rfl
  calc
    total = ((neighbourBels layout.design fanoutLimit record).map distance).sum :=
      (addDistances_eq_ok priced).trans (Int.zero_add _)
    _ = (record.ports.values.map (fun port =>
          (port.net.bind layout.design.nets.get?).elim 0 reaches)).sum := by
      rw [neighbourBels_of_sparse sparse, sum_map_flatMap]
      exact congrArg List.sum (List.map_congr_left fun port _ => perPort _)
    _ = ((record.ports.values.map Port.net).map (fun query =>
          (query.bind layout.design.nets.get?).elim 0 reaches)).sum := by
      rw [List.map_map]
      rfl
    _ = layout.share cell position := by
      rw [Table.sum_lookups, List.map_congr_left perNet, share, Table.values,
        List.map_map]
      rfl

end Greedy

end FpgaPlacer
