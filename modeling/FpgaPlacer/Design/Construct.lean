import FpgaPlacer.Design.Basic

/-!
# Building a design

Cells and nets are created by name, ports are added to cells and connected to
nets.  An edit that fails changes neither table; it may have interned a name.
-/

namespace FpgaPlacer.Design

/-- An edit of a design. -/
abbrev DesignEdit (α : Type) := Edit DesignError Design α

/-- Adds an unplaced cell without ports. -/
def createCell (name cellType : String) : DesignEdit Symbol := fun design =>
  let (symbol, design) := design.intern name
  if design.cells.contains symbol then
    .error (.failed (.duplicateName .cell name)) design
  else
    let (typeSymbol, design) := design.intern cellType
    .ok symbol (design.setCell symbol (.unplaced symbol typeSymbol))

/-- Adds a net without driver and users. -/
def createNet (name : String) : DesignEdit Symbol := fun design =>
  let (symbol, design) := design.intern name
  if design.nets.contains symbol then
    .error (.failed (.duplicateName .net name)) design
  else
    .ok symbol (design.setNet symbol (.undriven symbol emptyName))

/-- Adds an unconnected port to a cell, replacing a port of the same name. -/
def addPort (cell : Symbol) (port : String) (direction : Direction) :
    DesignEdit Symbol := fun design =>
  let (symbol, design) := design.intern port
  match design.cells.get? cell with
  | none => .error (.failed (.unknownCell (design.display cell))) design
  | some record =>
      let ports := record.ports.insert symbol ⟨symbol, direction, none⟩
      .ok symbol (design.setCell cell { record with ports })

/-- Connects a port of a cell to a net: an output becomes the driver, any
other port is appended to the users. -/
def connectPort (net cell port : Symbol) : DesignEdit Unit := fun design =>
  let fail (error : DesignError) := EStateM.Result.error (Stop.failed error) design
  match design.nets.get? net with
  | none => fail (.unknownNet (design.display net))
  | some netRecord =>
    match design.cells.get? cell with
    | none => fail (.unknownCell (design.display cell))
    | some cellRecord =>
      match cellRecord.ports.get? port with
      | none => fail (.unknownPort (design.display cell) (design.display port))
      | some portRecord =>
        let connected := portRecord.net.isSome
        let driven := portRecord.direction = .output ∧ netRecord.driver.cell.isSome
        if connected then
          fail (.internal (.portConnected (design.display port) (design.display cell)))
        else if driven then
          fail (.internal (.netDriven (design.display net)))
        else
          let netRecord :=
            if portRecord.direction = .output then
              { netRecord with driver := .ofPort cell port }
            else
              { netRecord with users := netRecord.users ++ [.ofPort cell port] }
          let ports := cellRecord.ports.insert port { portRecord with net := some net }
          .ok () ((design.setNet net netRecord).setCell cell { cellRecord with ports })

/-- Sets the budget of the first of the given ends that is at a port. -/
def budgetFirst (cell port : Symbol) (budget : Float) :
    List NetEnd → Option (List NetEnd)
  | [] => none
  | netEnd :: rest =>
      if netEnd.isAt cell port then some ({ netEnd with budget } :: rest)
      else (budgetFirst cell port budget rest).map (netEnd :: ·)

/-- Sets the timing budget of the net end at a port; the driver is looked at
before the users. -/
def setBudget (net cell port : Symbol) (budget : Float) : DesignEdit Unit :=
  fun design =>
    match design.nets.get? net with
    | none => .error (.failed (.unknownNet (design.display net))) design
    | some record =>
      if record.driver.isAt cell port then
        .ok () (design.setNet net
          { record with driver := { record.driver with budget } })
      else
        match budgetFirst cell port budget record.users with
        | some users => .ok () (design.setNet net { record with users })
        | none =>
            .error (.failed (.unknownPort (design.display cell) (design.display port)))
              design

end FpgaPlacer.Design
