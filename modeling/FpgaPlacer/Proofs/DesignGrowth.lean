import FpgaPlacer.Proofs.ConstructionSteps

/-!
# What building calls do to ports and nets

Adding a port replaces its record and with it the link to a net, but the net
keeps its end.  A design built by any calls is therefore reciprocal only in
part: a connected output still drives its net, and any other connected port is
listed at least once.  `Design.Growth` says once what a call can do to the
tables, and what is kept is read off it.
-/

namespace FpgaPlacer

/-- The net serves a port: the port drives it, or is listed by it at least
once. -/
def Net.Serves (net : Net) (direction : Direction) (cell port : Symbol) : Prop :=
  if direction = .output then net.driver.isAt cell port = true
  else 0 < Layout.userCount net cell port

namespace Net

theorem userCount_withEnd (net : Net) (direction : Direction)
    (cell port query queryPort : Symbol) :
    Layout.userCount (net.withEnd direction cell port) query queryPort =
      Layout.userCount net query queryPort +
        if direction ≠ .output ∧ query = cell ∧ queryPort = port then 1
        else 0 := by
  by_cases output : direction = .output
  · simp [withEnd, output, Layout.userCount]
  · have located : (NetEnd.ofPort cell port).isAt query queryPort = true ↔
        query = cell ∧ queryPort = port := by
      rw [NetEnd.isAt_iff, NetEnd.ofPort, Option.some.injEq, eq_comm,
        eq_comm (a := port)]
    simp [withEnd, output, Layout.userCount, List.countP_singleton, located]

theorem withEnd_serves_self (net : Net) (direction : Direction)
    (cell port : Symbol) :
    (net.withEnd direction cell port).Serves direction cell port := by
  by_cases output : direction = .output
  · simp [Serves, withEnd, output, NetEnd.isAt, NetEnd.ofPort]
  · rw [Serves, if_neg output, userCount_withEnd,
      if_pos ⟨output, rfl, rfl⟩]
    exact Nat.succ_pos _

/-- A new end takes no other end away; a net with a driver takes no further
output. -/
theorem Serves.withEnd {net : Net} {direction role : Direction}
    {cell port query queryPort : Symbol}
    (serves : net.Serves role query queryPort)
    (undriven : direction = .output → net.driver.cell = none) :
    (net.withEnd direction cell port).Serves role query queryPort := by
  unfold Serves at serves ⊢
  split
  · rename_i driving
    rw [if_pos driving] at serves
    have output : direction ≠ .output := by
      intro output
      rw [NetEnd.isAt_iff, undriven output] at serves
      cases serves.1
    simpa [Net.withEnd, output] using serves
  · rename_i listed
    rw [if_neg listed] at serves
    rw [userCount_withEnd]
    exact Nat.lt_of_lt_of_le serves (Nat.le_add_right _ _)

end Net

namespace Design

/-- What a building call does to the tables, whether it succeeds or fails; only
a call that asks for a connection makes one. -/
inductive Growth (before : Design) (asked : Option (Symbol × Symbol × Symbol))
    (after : Design) : Prop where
  | refused (nets : after.nets = before.nets) (cells : after.cells = before.cells)
  | cell {key cellType : Symbol} (free : before.cells.get? key = none)
      (nets : after.nets = before.nets)
      (cells : after.cells = before.cells.insert key (.unplaced key cellType))
  | net {key placeholder : Symbol} (free : before.nets.get? key = none)
      (nets : after.nets = before.nets.insert key (.undriven key placeholder))
      (cells : after.cells = before.cells)
  | port {cell port : Symbol} {record : Cell} {direction : Direction}
      (found : before.cells.get? cell = some record)
      (nets : after.nets = before.nets)
      (cells : after.cells =
        before.cells.insert cell (record.withPort port ⟨port, direction, none⟩))
  | link {net cell port : Symbol} {netRecord : Net} {cellRecord : Cell}
      {portRecord : Port} (request : asked = some (net, cell, port))
      (ready : before.Connectable net cell port netRecord cellRecord portRecord)
      (nets : after.nets = before.nets.insert net
        (netRecord.withEnd portRecord.direction cell port))
      (cells : after.cells = before.cells.insert cell
        (cellRecord.withPort port { portRecord with net := some net }))

theorem growth_createCell (design : Design) (name cellType : String) :
    design.Growth none ((createCell name cellType).after design) := by
  cases taken : design.cells.contains (design.intern name).1 with
  | true =>
      rw [Edit.after_of_error (createCell_of_taken cellType taken)]
      exact .refused rfl rfl
  | false =>
      rw [Edit.after_of_ok (createCell_of_free cellType taken)]
      have free : design.cells.get? (design.intern name).1 = none := by
        simpa [Table.contains] using taken
      exact .cell free rfl rfl

theorem growth_createNet (design : Design) (name : String) :
    design.Growth none ((createNet name).after design) := by
  cases taken : design.nets.contains (design.intern name).1 with
  | true =>
      rw [Edit.after_of_error (createNet_of_taken taken)]
      exact .refused rfl rfl
  | false =>
      rw [Edit.after_of_ok (createNet_of_free taken)]
      have free : design.nets.get? (design.intern name).1 = none := by
        simpa [Table.contains] using taken
      exact .net free rfl rfl

theorem growth_addPort (design : Design) (cell : Symbol) (port : String)
    (direction : Direction) :
    design.Growth none ((addPort cell port direction).after design) := by
  cases found : design.cells.get? cell with
  | none =>
      rw [Edit.after_of_error (addPort_of_absent port direction found)]
      exact .refused rfl rfl
  | some record =>
      rw [Edit.after_of_ok (addPort_of_found port direction found)]
      exact .port found rfl rfl

theorem growth_connectPort (design : Design) (net cell port : Symbol) :
    design.Growth (some (net, cell, port))
      ((connectPort net cell port).after design) := by
  rcases connectPort_cases design net cell port with
    ⟨stop, run⟩ | ⟨netRecord, cellRecord, portRecord, ready⟩
  · rw [Edit.after_of_error run]
    exact .refused rfl rfl
  · rw [Edit.after_of_ok (connectPort_of_connectable ready)]
    exact .link rfl ready rfl rfl

/-- A connected input port that its net lists more than once. -/
def Overlisted (design : Design) (cell port : Symbol) : Prop :=
  ∃ record key net, design.portAt cell port = some record ∧
    record.direction = .input ∧ record.net = some key ∧
    design.nets.get? key = some net ∧ 1 < Layout.userCount net cell port

/-- An input port that is free to be connected to a net which lists it
already. -/
def Relisting (design : Design) (net cell port : Symbol) : Prop :=
  ∃ netRecord cellRecord portRecord,
    design.Connectable net cell port netRecord cellRecord portRecord ∧
    portRecord.direction = .input ∧ 0 < Layout.userCount netRecord cell port

/-- A design as building calls leave it: nothing is routed or placed, and of
reciprocity there is the half that survives a port being added again. -/
structure Drafted (design : Design) : Prop where
  filed : design.Filed
  unrouted : ∀ {key net}, design.nets.get? key = some net → net.wires = .empty
  unplaced : ∀ {key cell}, design.cells.get? key = some cell → cell.bel = none
  linked : ∀ {cell port record key}, design.portAt cell port = some record →
    record.net = some key →
    ∃ net, design.nets.get? key = some net ∧
      net.Serves record.direction cell port

theorem portAt_insert_withPort {before after : Design} {cell : Symbol}
    {record : Cell} {port : Symbol} {new : Port}
    (found : before.cells.get? cell = some record)
    (cells : after.cells = before.cells.insert cell (record.withPort port new))
    (query queryPort : Symbol) :
    after.portAt query queryPort =
      if query = cell ∧ queryPort = port then some new
      else before.portAt query queryPort := by
  rw [← portAt_withPort found]
  simp only [portAt, cells, setCell]

/-- A new cell has no ports, and neither had the absent one. -/
theorem portAt_insert_unplaced {before after : Design} {key cellType : Symbol}
    (free : before.cells.get? key = none)
    (cells : after.cells = before.cells.insert key (.unplaced key cellType))
    (query queryPort : Symbol) :
    after.portAt query queryPort = before.portAt query queryPort := by
  simp only [portAt, cells, Table.get?_insert]
  split
  · rename_i same
    rw [same, free]
    rfl
  · rfl

/-- A net serves what another one serves, and lists the connected ports of the
design as often. -/
structure NetExtends (design : Design) (net kept : Net) : Prop where
  serves : ∀ {role cell port}, net.Serves role cell port →
    kept.Serves role cell port
  counts : ∀ {cell port record linked}, design.portAt cell port = some record →
    record.net = some linked →
    Layout.userCount kept cell port = Layout.userCount net cell port

theorem NetExtends.refl (design : Design) (net : Net) :
    design.NetExtends net net :=
  ⟨fun serves => serves, fun _ _ => rfl⟩

theorem Connectable.netExtends {design : Design} {net cell port : Symbol}
    {netRecord : Net} {cellRecord : Cell} {portRecord : Port}
    (ready : design.Connectable net cell port netRecord cellRecord portRecord) :
    design.NetExtends netRecord
      (netRecord.withEnd portRecord.direction cell port) := by
  constructor
  · exact fun serves => serves.withEnd ready.undriven
  · intro query queryPort record linked present connected
    have other : ¬ (query = cell ∧ queryPort = port) := by
      apply elsewhere_of_connected _ present connected
      intro old there
      rw [portAt_of_found ready.found, ready.has] at there
      cases there
      exact ready.unconnected
    rw [Net.userCount_withEnd, if_neg (fun all => other all.2), Nat.add_zero]

namespace Growth

variable {before after : Design} {asked : Option (Symbol × Symbol × Symbol)}

/-- A port is as it was before the call, or was just added, or just linked. -/
theorem port_cases (growth : before.Growth asked after) {cell port : Symbol}
    {record : Port} (present : after.portAt cell port = some record) :
    before.portAt cell port = some record ∨ record.net = none ∨
      ∃ net netRecord cellRecord portRecord, asked = some (net, cell, port) ∧
        before.Connectable net cell port netRecord cellRecord portRecord ∧
        record = { portRecord with net := some net } ∧
        after.nets = before.nets.insert net
          (netRecord.withEnd portRecord.direction cell port) := by
  cases growth with
  | refused nets cells =>
      rw [portAt, cells] at present
      exact .inl present
  | cell free nets cells =>
      rw [portAt_insert_unplaced free cells] at present
      exact .inl present
  | net free nets cells =>
      rw [portAt, cells] at present
      exact .inl present
  | port found nets cells =>
      rw [portAt_insert_withPort found cells] at present
      split at present
      · cases present
        exact .inr (.inl rfl)
      · exact .inl present
  | link request ready nets cells =>
      rw [portAt_insert_withPort ready.found cells] at present
      split at present
      · rename_i self
        obtain ⟨rfl, rfl⟩ := self
        cases present
        exact .inr (.inr ⟨_, _, _, _, request, ready, rfl, nets⟩)
      · exact .inl present

theorem net_kept (growth : before.Growth asked after) {key : Symbol} {net : Net}
    (known : before.nets.get? key = some net) :
    ∃ kept, after.nets.get? key = some kept ∧ before.NetExtends net kept := by
  have unchanged (stored : after.nets.get? key = some net) :
      ∃ kept, after.nets.get? key = some kept ∧ before.NetExtends net kept :=
    ⟨net, stored, .refl before net⟩
  cases growth with
  | refused nets cells => exact unchanged (nets ▸ known)
  | cell free nets cells => exact unchanged (nets ▸ known)
  | port found nets cells => exact unchanged (nets ▸ known)
  | net free nets cells =>
      apply unchanged
      rw [nets, Table.get?_insert]
      split
      · rename_i same
        rw [same, free] at known
        cases known
      · exact known
  | link request ready nets cells =>
      rw [nets, Table.get?_insert]
      split
      · rename_i same
        rw [same, ready.known] at known
        cases known
        exact ⟨_, rfl, ready.netExtends⟩
      · exact ⟨net, known, .refl before net⟩

theorem net_cases (growth : before.Growth asked after) {key : Symbol} {net : Net}
    (stored : after.nets.get? key = some net) :
    before.nets.get? key = some net ∨
      (∃ placeholder, net = .undriven key placeholder) ∨
      ∃ old role cell port, before.nets.get? key = some old ∧
        net = old.withEnd role cell port := by
  cases growth with
  | refused nets cells => exact .inl (nets ▸ stored)
  | cell free nets cells => exact .inl (nets ▸ stored)
  | port found nets cells => exact .inl (nets ▸ stored)
  | net free nets cells =>
      rw [nets] at stored
      rcases Table.get?_insert_cases stored with ⟨rfl, rfl⟩ | former
      · exact .inr (.inl ⟨_, rfl⟩)
      · exact .inl former
  | link request ready nets cells =>
      rw [nets] at stored
      rcases Table.get?_insert_cases stored with ⟨rfl, rfl⟩ | former
      · exact .inr (.inr ⟨_, _, _, _, ready.known, rfl⟩)
      · exact .inl former

theorem cell_cases (growth : before.Growth asked after) {key : Symbol}
    {cell : Cell} (stored : after.cells.get? key = some cell) :
    before.cells.get? key = some cell ∨
      (∃ cellType, cell = .unplaced key cellType) ∨
      ∃ old port new, before.cells.get? key = some old ∧
        cell = old.withPort port new := by
  cases growth with
  | refused nets cells => exact .inl (cells ▸ stored)
  | net free nets cells => exact .inl (cells ▸ stored)
  | cell free nets cells =>
      rw [cells] at stored
      rcases Table.get?_insert_cases stored with ⟨rfl, rfl⟩ | former
      · exact .inr (.inl ⟨_, rfl⟩)
      · exact .inl former
  | port found nets cells =>
      rw [cells] at stored
      rcases Table.get?_insert_cases stored with ⟨rfl, rfl⟩ | former
      · exact .inr (.inr ⟨_, _, _, found, rfl⟩)
      · exact .inl former
  | link request ready nets cells =>
      rw [cells] at stored
      rcases Table.get?_insert_cases stored with ⟨rfl, rfl⟩ | former
      · exact .inr (.inr ⟨_, _, _, ready.found, rfl⟩)
      · exact .inl former

theorem drafted (growth : before.Growth asked after) (start : before.Drafted) :
    after.Drafted := by
  constructor
  · constructor
    · intro key net stored
      rcases growth.net_cases stored with
        former | ⟨placeholder, rfl⟩ | ⟨old, role, cell, port, former, rfl⟩
      · exact start.filed.net former
      · rfl
      · rw [Net.name_withEnd]
        exact start.filed.net former
    · intro key cell stored
      rcases growth.cell_cases stored with
        former | ⟨cellType, rfl⟩ | ⟨old, port, new, former, rfl⟩
      · exact start.filed.cell former
      · rfl
      · have name : old.name = key := start.filed.cell former
        exact name
  · intro key net stored
    rcases growth.net_cases stored with
      former | ⟨placeholder, rfl⟩ | ⟨old, role, cell, port, former, rfl⟩
    · exact start.unrouted former
    · rfl
    · rw [Net.wires_withEnd]
      exact start.unrouted former
  · intro key cell stored
    rcases growth.cell_cases stored with
      former | ⟨cellType, rfl⟩ | ⟨old, port, new, former, rfl⟩
    · exact start.unplaced former
    · rfl
    · have bel : old.bel = none := start.unplaced former
      exact bel
  · intro cell port record key present connected
    rcases growth.port_cases present with former | unlinked |
      ⟨net, netRecord, cellRecord, portRecord, _, _, rfl, nets⟩
    · obtain ⟨net, known, serves⟩ := start.linked former connected
      obtain ⟨kept, stored, extension⟩ := growth.net_kept known
      exact ⟨kept, stored, extension.serves serves⟩
    · rw [unlinked] at connected
      cases connected
    · cases connected
      refine ⟨_, ?_, netRecord.withEnd_serves_self portRecord.direction cell port⟩
      rw [nets, Table.get?_insert, if_pos rfl]

/-- A port becomes overlisted only by a connection to a net that lists it. -/
theorem overlisted_cases (growth : before.Growth asked after)
    (start : before.Drafted) {cell port : Symbol}
    (relisted : after.Overlisted cell port) :
    before.Overlisted cell port ∨
      ∃ net, asked = some (net, cell, port) ∧ before.Relisting net cell port := by
  obtain ⟨record, key, net, present, input, connected, stored, often⟩ := relisted
  rcases growth.port_cases present with former | unlinked |
    ⟨target, netRecord, cellRecord, portRecord, request, ready, rfl, nets⟩
  · obtain ⟨old, known, serves⟩ := start.linked former connected
    obtain ⟨kept, same, extension⟩ := growth.net_kept known
    rw [stored] at same
    cases same
    rw [extension.counts former connected] at often
    exact .inl ⟨record, key, old, former, input, connected, known, often⟩
  · rw [unlinked] at connected
    cases connected
  · cases connected
    rw [nets, Table.get?_insert, if_pos rfl] at stored
    cases stored
    have appended : portRecord.direction ≠ .output ∧ cell = cell ∧
        port = port := by
      refine ⟨?_, rfl, rfl⟩
      intro output
      rw [output] at input
      cases input
    rw [Net.userCount_withEnd, if_pos appended] at often
    exact .inr ⟨_, request, netRecord, cellRecord, portRecord, ready, input,
      Nat.lt_of_succ_lt_succ often⟩

end Growth

theorem Relisting.overlisted {design : Design} {net cell port : Symbol}
    (relisting : design.Relisting net cell port) :
    ((connectPort net cell port).after design).Overlisted cell port := by
  obtain ⟨netRecord, cellRecord, portRecord, ready, input, listed⟩ := relisting
  have output : portRecord.direction ≠ .output := by
    rw [input]
    decide
  rw [Edit.after_of_ok (connectPort_of_connectable ready)]
  refine ⟨{ portRecord with net := some net }, net,
    netRecord.withEnd portRecord.direction cell port, ?_, input, rfl, ?_, ?_⟩
  · rw [portAt_insert_withPort ready.found rfl, if_pos ⟨rfl, rfl⟩]
  · exact (get?_nets_setNet ..).trans (if_pos rfl)
  · rw [Net.userCount_withEnd, if_pos ⟨output, rfl, rfl⟩]
    exact Nat.succ_lt_succ listed

end Design

end FpgaPlacer
