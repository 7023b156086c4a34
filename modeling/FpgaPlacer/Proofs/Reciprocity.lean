import FpgaPlacer.Design.Construct
import FpgaPlacer.Proofs.BelBinding

/-!
# Ports and net ends

The check follows every connected port to its net but never a net back to its
ports.  A stale user entry would pass it until the port is connected again, so
the check alone is not kept by further edits.  `Design.Reciprocal` adds the way
back and is kept by every edit that does not drop a connected port.
-/

namespace FpgaPlacer

/-- The place of a net end, without its budget. -/
def NetEnd.place (netEnd : NetEnd) : Option Symbol × Symbol :=
  (netEnd.cell, netEnd.port)

theorem NetEnd.isAt_iff {netEnd : NetEnd} {cell port : Symbol} :
    netEnd.isAt cell port = true ↔
      netEnd.cell = some cell ∧ netEnd.port = port := by
  simp [NetEnd.isAt]

def Cell.withPort (record : Cell) (key : Symbol) (port : Port) : Cell :=
  { record with ports := record.ports.insert key port }

namespace Net

/-- A port of the given direction is an end of the net: its driver if it is an
output, and exactly one of its users otherwise. -/
def Joins (net : Net) (direction : Direction) (cell port : Symbol) : Prop :=
  if direction = .output then net.driver.isAt cell port = true
  else Layout.userCount net cell port = 1

/-- Two nets have the same ends up to budgets. -/
structure SameEnds (old new : Net) : Prop where
  driver : new.driver.place = old.driver.place
  users : new.users.map NetEnd.place = old.users.map NetEnd.place

private theorem isAt_eq_place (netEnd : NetEnd) (cell port : Symbol) :
    netEnd.isAt cell port =
      (netEnd.place.1 == some cell && netEnd.place.2 == port) := rfl

theorem SameEnds.userCount {old new : Net} (same : SameEnds old new)
    (cell port : Symbol) :
    Layout.userCount new cell port = Layout.userCount old cell port := by
  have counted (net : Net) : Layout.userCount net cell port =
      (net.users.map NetEnd.place).countP
        (fun place => place.1 == some cell && place.2 == port) := by
    rw [List.countP_map]
    rfl
  rw [counted new, counted old, same.users]

theorem SameEnds.joins_iff {old new : Net} (same : SameEnds old new)
    (direction : Direction) (cell port : Symbol) :
    new.Joins direction cell port ↔ old.Joins direction cell port := by
  rw [Joins, Joins, same.userCount, isAt_eq_place, isAt_eq_place, same.driver]

/-- The net with a port as a new end. -/
def withEnd (net : Net) (direction : Direction) (cell port : Symbol) : Net :=
  if direction = .output then { net with driver := .ofPort cell port }
  else { net with users := net.users ++ [.ofPort cell port] }

@[simp] theorem name_withEnd (net : Net) (direction : Direction)
    (cell port : Symbol) : (net.withEnd direction cell port).name = net.name := by
  unfold withEnd
  split <;> rfl

@[simp] theorem wires_withEnd (net : Net) (direction : Direction)
    (cell port : Symbol) :
    (net.withEnd direction cell port).wires = net.wires := by
  unfold withEnd
  split <;> rfl

theorem withEnd_joins_self {net : Net} {direction : Direction}
    {cell port : Symbol} (fresh : Layout.userCount net cell port = 0) :
    (net.withEnd direction cell port).Joins direction cell port := by
  by_cases output : direction = .output
  · simp [Joins, withEnd, output, NetEnd.isAt, NetEnd.ofPort]
  · have appended : Layout.userCount (net.withEnd direction cell port) cell port =
        Layout.userCount net cell port + 1 := by
      simp [withEnd, output, Layout.userCount, NetEnd.isAt, NetEnd.ofPort]
    rw [Joins, if_neg output, appended, fresh]

/-- A new end leaves the other ends of a net alone; a net with a driver takes
no further output. -/
theorem withEnd_joins_other {net : Net} {direction role : Direction}
    {cell port query queryPort : Symbol}
    (undriven : direction = .output → net.driver.cell = none)
    (other : ¬ (query = cell ∧ queryPort = port))
    (joins : net.Joins role query queryPort) :
    (net.withEnd direction cell port).Joins role query queryPort := by
  by_cases output : direction = .output
  · by_cases driving : role = .output
    · rw [Joins, if_pos driving, NetEnd.isAt_iff, undriven output] at joins
      cases joins.1
    · simpa [Joins, withEnd, output, driving, Layout.userCount] using joins
  · have elsewhere : (NetEnd.ofPort cell port).isAt query queryPort = false := by
      rw [Bool.eq_false_iff]
      intro located
      obtain ⟨sameCell, samePort⟩ := NetEnd.isAt_iff.mp located
      exact other ⟨(Option.some.inj sameCell).symm, samePort.symm⟩
    simpa [Joins, withEnd, output, Layout.userCount, elsewhere] using joins

theorem mem_users_withEnd {net : Net} {direction : Direction}
    {cell port : Symbol} {netEnd : NetEnd}
    (member : netEnd ∈ (net.withEnd direction cell port).users) :
    netEnd ∈ net.users ∨
      netEnd = .ofPort cell port ∧ direction ≠ .output := by
  by_cases output : direction = .output
  · simp only [withEnd, output, if_true] at member
    exact .inl member
  · simp only [withEnd, output, if_false, List.mem_append,
      List.mem_singleton] at member
    exact member.imp id (fun isNew => ⟨isNew, output⟩)

theorem driver_withEnd {net : Net} {direction : Direction}
    {cell port driving : Symbol}
    (driven : (net.withEnd direction cell port).driver.cell = some driving) :
    (net.driver.cell = some driving ∧
        (net.withEnd direction cell port).driver = net.driver) ∨
      driving = cell ∧ (net.withEnd direction cell port).driver.port = port ∧
        direction = .output := by
  by_cases output : direction = .output
  · simp only [withEnd, output, if_true, NetEnd.ofPort,
      Option.some.injEq] at driven
    exact .inr ⟨driven.symm, by simp [withEnd, output, NetEnd.ofPort], output⟩
  · simp only [withEnd, output, if_false] at driven
    exact .inl ⟨driven, by simp [withEnd, output]⟩

end Net

namespace Design

/-- The record of a port, if its cell exists and has it. -/
def portAt (design : Design) (cell port : Symbol) : Option Port :=
  (design.cells.get? cell).bind (fun record => record.ports.get? port)

/-- Connected ports and net ends name each other. -/
structure Reciprocal (design : Design) : Prop where
  net : ∀ {cell port record key}, design.portAt cell port = some record →
    record.net = some key →
    ∃ net, design.nets.get? key = some net ∧
      net.Joins record.direction cell port
  driver : ∀ {key net cell}, design.nets.get? key = some net →
    net.driver.cell = some cell →
    ∃ record, design.portAt cell net.driver.port = some record ∧
      record.net = some key ∧ record.direction = .output
  user : ∀ {key net netEnd}, design.nets.get? key = some net →
    netEnd ∈ net.users →
    ∃ cell record, netEnd.cell = some cell ∧
      design.portAt cell netEnd.port = some record ∧
      record.net = some key ∧ record.direction ≠ .output

theorem portAt_of_found {design : Design} {cell : Symbol} {record : Cell}
    (found : design.cells.get? cell = some record) (port : Symbol) :
    design.portAt cell port = record.ports.get? port := by
  simp [portAt, found]

theorem portAt_setCell (design : Design) (cell query port : Symbol)
    (record : Cell) :
    (design.setCell cell record).portAt query port =
      if query = cell then record.ports.get? port
      else design.portAt query port := by
  by_cases same : query = cell <;> simp [portAt, same]

theorem portAt_withPort {design : Design} {cell : Symbol} {record : Cell}
    (found : design.cells.get? cell = some record) (port : Symbol) (new : Port)
    (query queryPort : Symbol) :
    (design.setCell cell (record.withPort port new)).portAt query queryPort =
      if query = cell ∧ queryPort = port then some new
      else design.portAt query queryPort := by
  rw [portAt_setCell]
  by_cases sameCell : query = cell
  · rw [if_pos sameCell, Cell.withPort, Table.get?_insert, sameCell,
      portAt_of_found found]
    by_cases samePort : queryPort = port
    · rw [if_pos samePort, if_pos ⟨rfl, samePort⟩]
    · rw [if_neg samePort, if_neg (fun both => samePort both.2)]
  · rw [if_neg sameCell, if_neg (fun both => sameCell both.1)]

/-- A connected port is another one than a port that is free or missing. -/
theorem elsewhere_of_connected {design : Design}
    {cell port query queryPort key : Symbol} {old : Port}
    (free : ∀ record, design.portAt cell port = some record → record.net = none)
    (present : design.portAt query queryPort = some old)
    (connected : old.net = some key) : ¬ (query = cell ∧ queryPort = port) := by
  rintro ⟨rfl, rfl⟩
  rw [free old present] at connected
  cases connected

theorem portAt_setCell_same {design : Design} {cell : Symbol} {old new : Cell}
    (found : design.cells.get? cell = some old) (ports : new.ports = old.ports)
    (query port : Symbol) :
    (design.setCell cell new).portAt query port = design.portAt query port := by
  rw [portAt_setCell]
  split
  · rename_i same
    rw [same, portAt_of_found found, ports]
  · rfl

namespace Reciprocal

variable {design : Design}

theorem connected (reciprocal : design.Reciprocal) : design.Connected := by
  constructor
  intro key cell portKey port netKey found has joined
  have present : design.portAt key portKey = some port := by
    rw [portAt_of_found found, has]
  obtain ⟨net, known, joins⟩ := reciprocal.net present joined
  refine ⟨net, known, ?_, ?_⟩
  · intro output
    rwa [Net.Joins, if_pos output] at joins
  · intro input
    rwa [Net.Joins, if_neg (by simp [input])] at joins

/-- A port that is an end of a net, in either role, is connected to it. -/
theorem net_eq_some_of_joins (reciprocal : design.Reciprocal)
    {cell port key : Symbol} {record : Port} {net : Net}
    (present : design.portAt cell port = some record)
    (known : design.nets.get? key = some net)
    (joins : net.Joins record.direction cell port) : record.net = some key := by
  unfold Net.Joins at joins
  split at joins
  · obtain ⟨onCell, onPort⟩ := NetEnd.isAt_iff.mp joins
    obtain ⟨driving, place, connected, _⟩ := reciprocal.driver known onCell
    rw [onPort, present] at place
    exact Option.some.inj place ▸ connected
  · have listed : 0 < Layout.userCount net cell port := by omega
    obtain ⟨netEnd, member, located⟩ := List.countP_pos_iff.mp listed
    obtain ⟨onCell, onPort⟩ := NetEnd.isAt_iff.mp located
    obtain ⟨user, joined, named, place, connected, _⟩ :=
      reciprocal.user known member
    rw [onCell] at named
    cases named
    rw [onPort, present] at place
    exact Option.some.inj place ▸ connected

theorem userCount_eq_zero (reciprocal : design.Reciprocal)
    {cell port key : Symbol} {record : Port} {net : Net}
    (present : design.portAt cell port = some record)
    (unconnected : record.net = none)
    (known : design.nets.get? key = some net) :
    Layout.userCount net cell port = 0 := by
  apply List.countP_eq_zero.mpr
  intro netEnd member located
  obtain ⟨onCell, onPort⟩ := NetEnd.isAt_iff.mp located
  obtain ⟨user, joined, named, place, connected, _⟩ :=
    reciprocal.user known member
  rw [onCell] at named
  cases named
  rw [onPort, present] at place
  cases place
  rw [unconnected] at connected
  cases connected

theorem of_same {after : Design} (reciprocal : design.Reciprocal)
    (ports : ∀ cell port, after.portAt cell port = design.portAt cell port)
    (nets : after.nets = design.nets) : after.Reciprocal := by
  constructor
  · intro cell port record key present connected
    rw [nets]
    exact reciprocal.net (ports cell port ▸ present) connected
  · intro key net cell known driven
    rw [ports]
    exact reciprocal.driver (nets ▸ known) driven
  · intro key net netEnd known member
    obtain ⟨cell, record, named, place, rest⟩ :=
      reciprocal.user (nets ▸ known) member
    exact ⟨cell, record, named, (ports _ _).trans place, rest⟩

theorem setNet_sameEnds (reciprocal : design.Reciprocal) {key : Symbol}
    {old new : Net} (known : design.nets.get? key = some old)
    (same : Net.SameEnds old new) : (design.setNet key new).Reciprocal := by
  have place : new.driver.cell = old.driver.cell ∧
      new.driver.port = old.driver.port :=
    Prod.mk.inj same.driver
  constructor
  · intro cell port record netKey present connected
    obtain ⟨net, stored, joins⟩ := reciprocal.net present connected
    rw [get?_nets_setNet]
    split
    · rename_i isKey
      rw [isKey, known] at stored
      cases stored
      exact ⟨new, rfl, (same.joins_iff ..).mpr joins⟩
    · exact ⟨net, stored, joins⟩
  · intro netKey net cell stored driven
    rw [get?_nets_setNet] at stored
    split at stored
    · rename_i isKey
      cases stored
      rw [place.1] at driven
      rw [isKey, place.2]
      exact reciprocal.driver known driven
    · exact reciprocal.driver stored driven
  · intro netKey net netEnd stored member
    rw [get?_nets_setNet] at stored
    split at stored
    · rename_i isKey
      cases stored
      have mapped : netEnd.place ∈ old.users.map NetEnd.place :=
        same.users ▸ List.mem_map_of_mem member
      obtain ⟨former, listed, samePlace⟩ := List.mem_map.mp mapped
      obtain ⟨sameCell, samePort⟩ := Prod.mk.inj samePlace
      rw [isKey, ← sameCell, ← samePort]
      exact reciprocal.user known listed
    · exact reciprocal.user stored member

theorem setNet_undriven (reciprocal : design.Reciprocal) {key : Symbol}
    (absent : design.nets.get? key = none) (name placeholder : Symbol) :
    (design.setNet key (.undriven name placeholder)).Reciprocal := by
  constructor
  · intro cell port record netKey present connected
    obtain ⟨net, stored, joins⟩ := reciprocal.net present connected
    have different : netKey ≠ key := by
      rintro rfl
      rw [absent] at stored
      cases stored
    rw [get?_nets_setNet, if_neg different]
    exact ⟨net, stored, joins⟩
  · intro netKey net cell stored driven
    rw [get?_nets_setNet] at stored
    split at stored
    · cases stored
      cases driven
    · exact reciprocal.driver stored driven
  · intro netKey net netEnd stored member
    rw [get?_nets_setNet] at stored
    split at stored
    · cases stored
      cases member
    · exact reciprocal.user stored member

/-- Adding an unconnected port keeps the design reciprocal, unless the cell
already has a connected port of that name. -/
theorem setPort_unconnected (reciprocal : design.Reciprocal)
    {cell port : Symbol} {record : Cell}
    (found : design.cells.get? cell = some record)
    (free : ∀ old, design.portAt cell port = some old → old.net = none)
    (direction : Direction) :
    (design.setCell cell
      (record.withPort port ⟨port, direction, none⟩)).Reciprocal := by
  have ports := portAt_withPort found port ⟨port, direction, none⟩
  have kept {query queryPort : Symbol} {old : Port} {key : Symbol}
      (present : design.portAt query queryPort = some old)
      (connected : old.net = some key) :
      (design.setCell cell (record.withPort port ⟨port, direction, none⟩)).portAt
        query queryPort = some old := by
    rw [ports, if_neg (elsewhere_of_connected free present connected)]
    exact present
  constructor
  · intro query queryPort current key present connected
    rw [ports] at present
    split at present
    · cases present
      cases connected
    · exact reciprocal.net present connected
  · intro key net query stored driven
    obtain ⟨old, present, connected, output⟩ := reciprocal.driver stored driven
    exact ⟨old, kept present connected, connected, output⟩
  · intro key net netEnd stored member
    obtain ⟨user, old, named, present, connected, role⟩ :=
      reciprocal.user stored member
    exact ⟨user, old, named, kept present connected, connected, role⟩

theorem connect (reciprocal : design.Reciprocal) {net cell port : Symbol}
    {netRecord : Net} {cellRecord : Cell} {portRecord : Port}
    (known : design.nets.get? net = some netRecord)
    (found : design.cells.get? cell = some cellRecord)
    (has : cellRecord.ports.get? port = some portRecord)
    (unconnected : portRecord.net = none)
    (undriven : portRecord.direction = .output → netRecord.driver.cell = none) :
    ((design.setNet net
        (netRecord.withEnd portRecord.direction cell port)).setCell cell
      (cellRecord.withPort port { portRecord with net := some net })).Reciprocal := by
  have present : design.portAt cell port = some portRecord := by
    rw [portAt_of_found found, has]
  have fresh := reciprocal.userCount_eq_zero present unconnected known
  have ports (query queryPort : Symbol) :
      ((design.setNet net
          (netRecord.withEnd portRecord.direction cell port)).setCell cell
        (cellRecord.withPort port
          { portRecord with net := some net })).portAt query queryPort =
        if query = cell ∧ queryPort = port
        then some { portRecord with net := some net }
        else design.portAt query queryPort :=
    portAt_withPort found port _ query queryPort
  have kept {query queryPort key : Symbol} {old : Port}
      (there : design.portAt query queryPort = some old)
      (connected : old.net = some key) :
      ¬ (query = cell ∧ queryPort = port) := by
    apply elsewhere_of_connected _ there connected
    intro current same
    rw [present] at same
    cases same
    exact unconnected
  constructor
  · intro query queryPort record key there connected
    rw [ports] at there
    rw [nets_setCell, get?_nets_setNet]
    split at there
    · rename_i self
      cases there
      cases connected
      rw [if_pos rfl, self.1, self.2]
      exact ⟨_, rfl, Net.withEnd_joins_self fresh⟩
    · rename_i other
      obtain ⟨old, stored, joins⟩ := reciprocal.net there connected
      split
      · rename_i isNet
        rw [isNet, known] at stored
        cases stored
        exact ⟨_, rfl, Net.withEnd_joins_other undriven other joins⟩
      · exact ⟨old, stored, joins⟩
  · intro key record driving stored driven
    rw [nets_setCell, get?_nets_setNet] at stored
    rw [ports]
    split at stored
    · rename_i isNet
      cases stored
      rcases Net.driver_withEnd driven with ⟨former, same⟩ | ⟨isCell, isPort, output⟩
      · obtain ⟨old, there, connected, output⟩ := reciprocal.driver known former
        rw [same, if_neg (kept there connected), isNet]
        exact ⟨old, there, connected, output⟩
      · rw [if_pos ⟨isCell, isPort⟩, isNet]
        exact ⟨_, rfl, rfl, output⟩
    · obtain ⟨old, there, connected, output⟩ := reciprocal.driver stored driven
      rw [if_neg (kept there connected)]
      exact ⟨old, there, connected, output⟩
  · intro key record netEnd stored member
    rw [nets_setCell, get?_nets_setNet] at stored
    split at stored
    · rename_i isNet
      cases stored
      rcases Net.mem_users_withEnd member with former | ⟨isNew, role⟩
      · obtain ⟨user, old, named, there, connected, role⟩ :=
          reciprocal.user known former
        refine ⟨user, old, named, ?_, isNet ▸ connected, role⟩
        rw [ports, if_neg (kept there connected)]
        exact there
      · subst isNew
        refine ⟨cell, { portRecord with net := some net }, rfl, ?_, ?_, role⟩
        · rw [ports, if_pos ⟨rfl, rfl⟩]
        · rw [isNet]
    · obtain ⟨user, old, named, there, connected, role⟩ :=
        reciprocal.user stored member
      refine ⟨user, old, named, ?_, connected, role⟩
      rw [ports, if_neg (kept there connected)]
      exact there

end Reciprocal

end Design

end FpgaPlacer
