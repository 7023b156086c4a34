import FpgaPlacer.Proofs.EditRuns
import FpgaPlacer.Proofs.Reciprocity

/-!
# What one construction step does

Every way in which an edit of the design graph can end, with the design it
leaves.  A refused edit leaves the tables alone and at most knows one more
name.
-/

namespace FpgaPlacer.Design

variable {design : Design}

theorem createCell_of_taken {name : String} (cellType : String)
    (taken : design.cells.contains (design.intern name).1 = true) :
    createCell name cellType design =
      .error (.failed (.duplicateName .cell name)) (design.intern name).2 := by
  simp only [createCell, cells_intern, taken, if_true]

theorem createCell_of_free {name : String} (cellType : String)
    (free : design.cells.contains (design.intern name).1 = false) :
    createCell name cellType design =
      .ok (design.intern name).1
        (((design.intern name).2.intern cellType).2.setCell (design.intern name).1
          (.unplaced (design.intern name).1
            ((design.intern name).2.intern cellType).1)) := by
  simp only [createCell, cells_intern, free, Bool.false_eq_true, if_false]

theorem createNet_of_taken {name : String}
    (taken : design.nets.contains (design.intern name).1 = true) :
    createNet name design =
      .error (.failed (.duplicateName .net name)) (design.intern name).2 := by
  simp only [createNet, nets_intern, taken, if_true]

theorem createNet_of_free {name : String}
    (free : design.nets.contains (design.intern name).1 = false) :
    createNet name design =
      .ok (design.intern name).1
        ((design.intern name).2.setNet (design.intern name).1
          (.undriven (design.intern name).1 emptyName)) := by
  simp only [createNet, nets_intern, free, Bool.false_eq_true, if_false]

theorem addPort_of_absent {cell : Symbol} (port : String)
    (direction : Direction) (absent : design.cells.get? cell = none) :
    addPort cell port direction design =
      .error (.failed (.unknownCell ((design.intern port).2.display cell)))
        (design.intern port).2 := by
  simp only [addPort, cells_intern, absent]

theorem addPort_of_found {cell : Symbol} {record : Cell} (port : String)
    (direction : Direction) (found : design.cells.get? cell = some record) :
    addPort cell port direction design =
      .ok (design.intern port).1
        ((design.intern port).2.setCell cell
          (record.withPort (design.intern port).1
            ⟨(design.intern port).1, direction, none⟩)) := by
  simp only [addPort, cells_intern, found, Cell.withPort]

/-- The records that a port connection touches, when they are ready for it. -/
structure Connectable (design : Design) (net cell port : Symbol)
    (netRecord : Net) (cellRecord : Cell) (portRecord : Port) : Prop where
  known : design.nets.get? net = some netRecord
  found : design.cells.get? cell = some cellRecord
  has : cellRecord.ports.get? port = some portRecord
  unconnected : portRecord.net = none
  undriven : portRecord.direction = .output → netRecord.driver.cell = none

/-- The design after a port has been connected. -/
def withConnection (design : Design) (net cell port : Symbol) (netRecord : Net)
    (cellRecord : Cell) (portRecord : Port) : Design :=
  (design.setNet net
    (netRecord.withEnd portRecord.direction cell port)).setCell cell
      (cellRecord.withPort port { portRecord with net := some net })

theorem connectPort_of_connectable {net cell port : Symbol} {netRecord : Net}
    {cellRecord : Cell} {portRecord : Port}
    (ready : design.Connectable net cell port netRecord cellRecord portRecord) :
    connectPort net cell port design =
      .ok () (design.withConnection net cell port netRecord cellRecord
        portRecord) := by
  have notDriven : ¬ (portRecord.direction = .output ∧
      netRecord.driver.cell.isSome = true) := by
    rintro ⟨output, driven⟩
    rw [ready.undriven output] at driven
    cases driven
  simp only [connectPort, ready.known, ready.found, ready.has,
    ready.unconnected, Option.isSome_none, Bool.false_eq_true, if_false,
    notDriven, withConnection, Net.withEnd, Cell.withPort]

/-- Connecting a port either is refused and changes nothing, or finds all three
records ready. -/
theorem connectPort_cases (design : Design) (net cell port : Symbol) :
    (∃ stop, connectPort net cell port design = .error stop design) ∨
      ∃ netRecord cellRecord portRecord,
        design.Connectable net cell port netRecord cellRecord portRecord := by
  cases known : design.nets.get? net with
  | none =>
      left
      exact ⟨_, by simp only [connectPort, known]; rfl⟩
  | some netRecord =>
    cases found : design.cells.get? cell with
    | none =>
        left
        exact ⟨_, by simp only [connectPort, known, found]; rfl⟩
    | some cellRecord =>
      cases has : cellRecord.ports.get? port with
      | none =>
          left
          exact ⟨_, by simp only [connectPort, known, found, has]; rfl⟩
      | some portRecord =>
        cases connected : portRecord.net with
        | some other =>
            left
            exact ⟨_, by
              simp only [connectPort, known, found, has, connected,
                Option.isSome_some, if_true]
              rfl⟩
        | none =>
          by_cases driven : portRecord.direction = .output ∧
              netRecord.driver.cell.isSome = true
          · left
            exact ⟨_, by
              simp only [connectPort, known, found, has, connected, driven,
                Option.isSome_none, Bool.false_eq_true, if_false, and_self,
                if_true]
              rfl⟩
          · right
            refine ⟨netRecord, cellRecord, portRecord, known, found, has,
              connected, ?_⟩
            intro output
            simpa [output] using driven

theorem budgetFirst_place {cell port : Symbol} {budget : Float}
    {ends changed : List NetEnd}
    (run : budgetFirst cell port budget ends = some changed) :
    changed.map NetEnd.place = ends.map NetEnd.place := by
  induction ends generalizing changed with
  | nil => cases run
  | cons netEnd rest induction =>
      rw [budgetFirst] at run
      split at run
      · cases run
        rfl
      · obtain ⟨others, later, rfl⟩ := Option.map_eq_some_iff.mp run
        rw [List.map_cons, List.map_cons, induction later]

/-- Setting a budget either is refused and changes nothing, or replaces a net
by one with the same ends and routing. -/
theorem setBudget_cases (design : Design) (net cell port : Symbol)
    (budget : Float) :
    (∃ stop, setBudget net cell port budget design = .error stop design) ∨
      ∃ old new, design.nets.get? net = some old ∧ new.name = old.name ∧
        Net.SameEnds old new ∧ new.wires = old.wires ∧
        setBudget net cell port budget design = .ok () (design.setNet net new) := by
  cases known : design.nets.get? net with
  | none =>
      left
      exact ⟨_, by simp only [setBudget, known]; rfl⟩
  | some record =>
    by_cases driving : record.driver.isAt cell port = true
    · right
      refine ⟨record, { record with driver := { record.driver with budget } },
        rfl, rfl, ⟨rfl, rfl⟩, rfl, ?_⟩
      simp only [setBudget, known, driving, if_true]
    · cases budgeted : budgetFirst cell port budget record.users with
      | none =>
          left
          exact ⟨_, by
            simp only [setBudget, known, driving, budgeted,
              Bool.false_eq_true, if_false]
            rfl⟩
      | some users =>
          right
          refine ⟨record, { record with users }, rfl, rfl,
            ⟨rfl, budgetFirst_place budgeted⟩, rfl, ?_⟩
          simp only [setBudget, known, driving, budgeted,
            Bool.false_eq_true, if_false]

end FpgaPlacer.Design
