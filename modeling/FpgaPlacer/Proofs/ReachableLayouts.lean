import FpgaPlacer.Fabric.Grid
import FpgaPlacer.Proofs.ConstructionSteps
import FpgaPlacer.Proofs.WireBinding

/-!
# Layouts reached by edits

A layout is reached from an empty design on a device with nothing bound by any
sequence of graph calls, each of which may fail.  The caller has to see to two
things: a connected port is not added again, and a resource is bound only when
it is free or already held by the same user.  Every layout so reached passes
the check, and its ports and net ends name each other.
-/

namespace FpgaPlacer

variable {κ : Type}

/-- The calls that build a design and bind the resources of its fabric. -/
inductive GraphCall where
  | createCell (name cellType : String)
  | createNet (name : String)
  | addPort (cell : Symbol) (port : String) (direction : Direction)
  | connectPort (net cell port : Symbol)
  | setBudget (net cell port : Symbol) (budget : Float)
  | bindBel (cell : Symbol) (bel : BelId) (strength : Strength)
  | unbindBel (cell : Symbol)
  | bindWire (net : Symbol) (wire : WireId) (strength : Strength)
  | bindPip (net : Symbol) (pip : PipId) (strength : Strength)
  | unbindWire (net : Symbol) (wire : WireId)

namespace Layout

/-- An empty design on a device with nothing bound. -/
def fresh (device : Device κ) : Layout κ := ⟨.empty, ⟨device, .empty⟩⟩

/-- Edits the design and leaves the fabric alone. -/
def editDesign {α : Type} (layout : Layout κ) (edit : Design.DesignEdit α) :
    Layout κ :=
  { layout with design := edit.after layout.design }

end Layout

namespace GraphCall

/-- The layout that a call leaves behind, whether it succeeds or fails. -/
def after : GraphCall → Layout κ → Layout κ
  | createCell name cellType, layout =>
      layout.editDesign (Design.createCell name cellType)
  | createNet name, layout => layout.editDesign (Design.createNet name)
  | addPort cell port direction, layout =>
      layout.editDesign (Design.addPort cell port direction)
  | connectPort net cell port, layout =>
      layout.editDesign (Design.connectPort net cell port)
  | setBudget net cell port budget, layout =>
      layout.editDesign (Design.setBudget net cell port budget)
  | bindBel cell bel strength, layout =>
      (Layout.bindBel cell bel strength).after layout
  | unbindBel cell, layout => (Layout.unbindBel cell).after layout
  | bindWire net wire strength, layout =>
      (Layout.bindWire net wire strength).after layout
  | bindPip net pip strength, layout =>
      (Layout.bindPip net pip strength).after layout
  | unbindWire net wire, layout => (Layout.unbindWire net wire).after layout

/-- What the caller has to see to: a connected port is not added again, and
bels, wires and pips are free or already held by the same cell or net. -/
def Allowed (layout : Layout κ) : GraphCall → Prop
  | addPort cell port _ =>
      ∀ old, layout.design.portAt cell (layout.design.intern port).1 = some old →
        old.net = none
  | bindBel cell bel _ => Layout.FreeFor cell (layout.fabric.cellAt bel)
  | bindWire net wire _ => Layout.FreeFor net (layout.fabric.netOnWire wire)
  | bindPip net pip _ =>
      (∀ wire, layout.fabric.pipTarget pip = .ok wire →
        Layout.FreeFor net (layout.fabric.netOnWire wire)) ∧
      Layout.FreeFor net (layout.fabric.netOnPip pip)
  | _ => True

def run (calls : List GraphCall) (layout : Layout κ) : Layout κ :=
  calls.foldl (fun reached call => after call reached) layout

end GraphCall

namespace Layout

theorem editDesign_of_ok {layout : Layout κ} {α : Type}
    {edit : Design.DesignEdit α} {value : α} {design : Design}
    (run : edit layout.design = .ok value design) :
    layout.editDesign edit = { layout with design } := by
  rw [editDesign, Edit.after_of_ok run]

theorem editDesign_of_error {layout : Layout κ} {α : Type}
    {edit : Design.DesignEdit α} {stop : Stop DesignError} {design : Design}
    (run : edit layout.design = .error stop design) :
    layout.editDesign edit = { layout with design } := by
  rw [editDesign, Edit.after_of_error run]

/-- The layouts reached from an empty one by allowed calls. -/
inductive Reachable (device : Device κ) : Layout κ → Prop where
  | fresh : Reachable device (.fresh device)
  | step {layout : Layout κ} (reached : Reachable device layout)
      (call : GraphCall) (allowed : call.Allowed layout) :
      Reachable device (call.after layout)

/-- The invariant of reachable layouts: what the check tests, with the
connections strengthened to both ways. -/
structure Sound (layout : Layout κ) : Prop where
  filed : layout.design.Filed
  routed : layout.Routed
  seated : layout.Seated
  reciprocal : layout.design.Reciprocal

theorem Sound.consistent {layout : Layout κ} (sound : layout.Sound) :
    layout.Consistent :=
  ⟨sound.filed, sound.routed, sound.seated, sound.reciprocal.connected⟩

theorem sound_fresh (device : Device κ) : (fresh device).Sound := by
  constructor
  · constructor
    · intro key net stored
      cases stored
    · intro key cell stored
      cases stored
  · constructor
    · intro key net wire hop stored
      cases stored
    · intro key net wire hop pip stored
      cases stored
    · intro key net wire hop pip stored
      cases stored
    · intro wire key enumerated held
      cases held
  · constructor
    intro key cell bel stored
    cases stored
  · constructor
    · intro cell port record key present
      cases present
    · intro key net cell stored
      cases stored
    · intro key net netEnd stored
      cases stored

namespace Sound

variable {layout : Layout κ}

/-- The invariant does not depend on names and random numbers. -/
theorem of_tables (sound : layout.Sound) {design : Design}
    (nets : design.nets = layout.design.nets)
    (cells : design.cells = layout.design.cells) :
    ({ layout with design } : Layout κ).Sound := by
  constructor
  · exact sound.filed.of_same nets cells
  · exact sound.routed.of_same nets rfl rfl rfl
  · exact sound.seated.of_same cells rfl
  · apply sound.reciprocal.of_same
    · intro cell port
      simp [Design.portAt, cells]
    · exact nets

theorem intern (sound : layout.Sound) (text : String) :
    ({ layout with design := (layout.design.intern text).2 } : Layout κ).Sound :=
  sound.of_tables rfl rfl

/-- Storing a cell that keeps its name and bel keeps everything but the
connections, which have to be looked at. -/
theorem setCell (sound : layout.Sound) {cell : Symbol} {record : Cell}
    (name : record.name = cell)
    (seat : ∀ bel, record.bel = some bel →
      layout.fabric.cellAt bel = some cell)
    (reciprocal : (layout.design.setCell cell record).Reciprocal) :
    ({ layout with design := layout.design.setCell cell record } :
      Layout κ).Sound := by
  constructor
  · exact sound.filed.setCell name
  · exact sound.routed.of_same rfl rfl rfl rfl
  · exact sound.seated.setCell seat
  · exact reciprocal

theorem setNet (sound : layout.Sound) {net : Symbol} {record : Net}
    (name : record.name = net)
    (routed : ({ layout with design := layout.design.setNet net record } :
      Layout κ).Routed)
    (reciprocal : (layout.design.setNet net record).Reciprocal) :
    ({ layout with design := layout.design.setNet net record } :
      Layout κ).Sound where
  filed := sound.filed.setNet name
  routed := routed
  seated := ⟨fun stored placed => sound.seated.occupant stored placed⟩
  reciprocal := reciprocal

/-! ## Calls on the design -/

theorem createCell (sound : layout.Sound) (name cellType : String) :
    (layout.editDesign (Design.createCell name cellType)).Sound := by
  cases taken : layout.design.cells.contains (layout.design.intern name).1 with
  | true =>
      rw [editDesign_of_error (Design.createCell_of_taken cellType taken)]
      exact sound.intern name
  | false =>
      rw [editDesign_of_ok (Design.createCell_of_free cellType taken)]
      have interned := (sound.intern name).intern cellType
      apply interned.setCell
      · rfl
      · intro bel placed
        cases placed
      · apply interned.reciprocal.of_same
        · intro query port
          rw [Design.portAt_setCell]
          split
          · rename_i same
            have absent : layout.design.cells.get? query = none := by
              rw [same]
              simpa [Table.contains] using taken
            simp [Design.portAt, absent, Cell.unplaced]
          · rfl
        · rfl

theorem createNet (sound : layout.Sound) (name : String) :
    (layout.editDesign (Design.createNet name)).Sound := by
  cases taken : layout.design.nets.contains (layout.design.intern name).1 with
  | true =>
      rw [editDesign_of_error (Design.createNet_of_taken taken)]
      exact sound.intern name
  | false =>
      rw [editDesign_of_ok (Design.createNet_of_free taken)]
      have absent :
          layout.design.nets.get? (layout.design.intern name).1 = none := by
        simpa [Table.contains] using taken
      have interned := sound.intern name
      apply interned.setNet
      · rfl
      · exact interned.routed.setNet_undriven absent _ _
      · exact interned.reciprocal.setNet_undriven absent _ _

theorem addPort (sound : layout.Sound) {cell : Symbol} {port : String}
    (free : ∀ old,
      layout.design.portAt cell (layout.design.intern port).1 = some old →
        old.net = none)
    (direction : Direction) :
    (layout.editDesign (Design.addPort cell port direction)).Sound := by
  have interned := sound.intern port
  cases found : layout.design.cells.get? cell with
  | none =>
      rw [editDesign_of_error (Design.addPort_of_absent port direction found)]
      exact interned
  | some record =>
      rw [editDesign_of_ok (Design.addPort_of_found port direction found)]
      have name := sound.filed.cell found
      apply interned.setCell
      · exact name
      · exact fun bel placed => sound.seated.occupant found placed
      · exact interned.reciprocal.setPort_unconnected found free direction

theorem connectPort (sound : layout.Sound) (net cell port : Symbol) :
    (layout.editDesign (Design.connectPort net cell port)).Sound := by
  rcases Design.connectPort_cases layout.design net cell port with
    ⟨stop, run⟩ | ⟨netRecord, cellRecord, portRecord, ready⟩
  · rw [editDesign_of_error run]
    exact sound
  · rw [editDesign_of_ok (Design.connectPort_of_connectable ready)]
    have netName : (netRecord.withEnd portRecord.direction cell port).name =
        net := by
      rw [Net.name_withEnd]
      exact sound.filed.net ready.known
    have cellName : cellRecord.name = cell := sound.filed.cell ready.found
    constructor
    · exact (sound.filed.setNet netName).setCell cellName
    · have rerouted := sound.routed.setNet_sameWires ready.known
        (Net.wires_withEnd netRecord portRecord.direction cell port)
      exact rerouted.of_same rfl rfl rfl rfl
    · have seated : ({ layout with
          design := layout.design.setNet net
            (netRecord.withEnd portRecord.direction cell port) } :
              Layout κ).Seated :=
        ⟨fun stored placed => sound.seated.occupant stored placed⟩
      exact seated.setCell
        (fun bel placed => sound.seated.occupant ready.found placed)
    · exact sound.reciprocal.connect ready.known ready.found ready.has
        ready.unconnected ready.undriven

theorem setBudget (sound : layout.Sound) (net cell port : Symbol)
    (budget : Float) :
    (layout.editDesign (Design.setBudget net cell port budget)).Sound := by
  rcases Design.setBudget_cases layout.design net cell port budget with
    ⟨stop, run⟩ | ⟨old, new, known, name, ends, wires, run⟩
  · rw [editDesign_of_error run]
    exact sound
  · rw [editDesign_of_ok run]
    apply sound.setNet
    · rw [name]
      exact sound.filed.net known
    · exact sound.routed.setNet_sameWires known wires
    · exact sound.reciprocal.setNet_sameEnds known ends

/-! ## Calls on the fabric -/

/-- Giving a cell another seat leaves its name and ports alone. -/
private theorem reseat (sound : layout.Sound) {cell : Symbol} {old : Cell}
    (found : layout.design.cells.get? cell = some old) (new : Cell)
    (name : new.name = old.name) (ports : new.ports = old.ports) :
    (layout.design.setCell cell new).Filed ∧
      (layout.design.setCell cell new).Reciprocal := by
  constructor
  · exact sound.filed.setCell (name.trans (sound.filed.cell found))
  · apply sound.reciprocal.of_same
    · exact Design.portAt_setCell_same found ports
    · rfl

theorem bindBel (sound : layout.Sound) {cell : Symbol} {bel : BelId}
    (free : FreeFor cell (layout.fabric.cellAt bel)) (strength : Strength) :
    ((Layout.bindBel cell bel strength).after layout).Sound := by
  cases found : layout.design.cells.get? cell with
  | none =>
      rw [Edit.after_of_error (bindBel_of_absent found bel strength)]
      exact sound
  | some record =>
      rw [Edit.after_of_ok (bindBel_of_found found bel strength)]
      obtain ⟨filed, reciprocal⟩ := sound.reseat found
        { record with bel := some bel, strength } rfl rfl
      exact {
        filed
        routed := sound.routed.of_same rfl rfl (wires_releaseBel ..)
          (pips_releaseBel ..)
        seated := sound.seated.bound found free strength
        reciprocal }

theorem unbindBel (sound : layout.Sound) (cell : Symbol) :
    ((Layout.unbindBel cell).after layout).Sound := by
  cases found : layout.design.cells.get? cell with
  | none =>
      rw [Edit.after_of_error (unbindBel_of_absent found)]
      exact sound
  | some record =>
      rw [Edit.after_of_ok (unbindBel_of_found found)]
      obtain ⟨filed, reciprocal⟩ := sound.reseat found
        { record with bel := none, strength := .unbound } rfl rfl
      exact {
        filed
        routed := sound.routed.of_same rfl rfl (wires_releaseBel ..)
          (pips_releaseBel ..)
        seated := sound.seated.released found
        reciprocal }

/-- Rerouting a net changes nothing but routing. -/
private theorem reroute (sound : layout.Sound) {net : Symbol} {old : Net}
    (known : layout.design.nets.get? net = some old) (wires : Table .wire Hop)
    {fabric : Fabric κ}
    (bels : fabric.occupancy.bels = layout.fabric.occupancy.bels)
    (routed : (⟨layout.design.setNet net { old with wires }, fabric⟩ :
      Layout κ).Routed) :
    (⟨layout.design.setNet net { old with wires }, fabric⟩ :
      Layout κ).Sound := by
  have name : old.name = net := sound.filed.net known
  constructor
  · exact sound.filed.setNet name
  · exact routed
  · constructor
    intro key cell bel stored placed
    have held := sound.seated.occupant stored placed
    rw [Fabric.cellAt, Occupancy.cellAt] at held ⊢
    rw [bels]
    exact held
  · exact sound.reciprocal.setNet_sameEnds known ⟨rfl, rfl⟩

private theorem bels_claimPip (occupancy : Occupancy) (net : Symbol)
    (hop : Hop) : (claimPip occupancy net hop).bels = occupancy.bels := by
  unfold claimPip
  split <;> rfl

private theorem bels_releasePip (occupancy : Occupancy) (hop : Hop) :
    (releasePip occupancy hop).bels = occupancy.bels := by
  unfold releasePip
  split <;> rfl

theorem bindWire (sound : layout.Sound) {net : Symbol} {wire : WireId}
    (free : FreeFor net (layout.fabric.netOnWire wire)) (strength : Strength) :
    ((Layout.bindWire net wire strength).after layout).Sound := by
  have ways := bindWire_run net wire strength layout
  generalize (Layout.bindWire net wire strength).after layout = reached at ways ⊢
  cases ways with
  | unknownNet absent => exact sound
  | added known =>
      apply sound.reroute known
      · exact bels_claimPip ..
      · apply sound.routed.withHop known free
        · intro pip reached
          cases reached
        · intro pip reached
          cases reached

theorem bindPip (sound : layout.Sound) {net : Symbol} {pip : PipId}
    (wireFree : ∀ wire, layout.fabric.pipTarget pip = .ok wire →
      FreeFor net (layout.fabric.netOnWire wire))
    (pipFree : FreeFor net (layout.fabric.netOnPip pip)) (strength : Strength) :
    ((Layout.bindPip net pip strength).after layout).Sound := by
  have ways := bindPip_run net pip strength layout
  generalize (Layout.bindPip net pip strength).after layout = reached at ways ⊢
  cases ways with
  | unknownPip lost => exact sound
  | unknownNet absent => exact sound
  | @added record wire known target =>
      apply sound.reroute known
      · exact bels_claimPip ..
      · apply sound.routed.withHop known (wireFree wire target)
        · intro reaching reached
          cases reached
          exact target
        · intro reaching reached
          cases reached
          exact pipFree

theorem unbindWire (sound : layout.Sound) (net : Symbol) (wire : WireId) :
    ((Layout.unbindWire net wire).after layout).Sound := by
  have ways := unbindWire_run net wire layout
  generalize (Layout.unbindWire net wire).after layout = reached at ways ⊢
  cases ways with
  | unknownNet absent => exact sound
  | unrouted known elsewhere => exact sound
  | removed known routed =>
      apply sound.reroute known
      · exact bels_releasePip ..
      · exact sound.routed.withoutHop known routed

/-- Every allowed call keeps the invariant. -/
theorem step (sound : layout.Sound) {call : GraphCall}
    (allowed : call.Allowed layout) : (call.after layout).Sound := by
  cases call with
  | createCell name cellType => exact sound.createCell name cellType
  | createNet name => exact sound.createNet name
  | addPort cell port direction => exact sound.addPort allowed direction
  | connectPort net cell port => exact sound.connectPort net cell port
  | setBudget net cell port budget => exact sound.setBudget net cell port budget
  | bindBel cell bel strength => exact sound.bindBel allowed strength
  | unbindBel cell => exact sound.unbindBel cell
  | bindWire net wire strength => exact sound.bindWire allowed strength
  | bindPip net pip strength => exact sound.bindPip allowed.1 allowed.2 strength
  | unbindWire net wire => exact sound.unbindWire net wire

end Sound

theorem Reachable.sound {device : Device κ} {layout : Layout κ}
    (reached : Reachable device layout) : layout.Sound := by
  induction reached with
  | fresh => exact sound_fresh device
  | step reached call allowed induction => exact induction.step allowed

/-- Every reachable layout passes the check, a port is connected to a net
exactly when it is one of its ends, and every end of a net is a port connected
to it. -/
theorem Reachable.check_and_reciprocal {device : Device κ} {layout : Layout κ}
    (reached : Reachable device layout) :
    layout.check = .ok () ∧
      (∀ cell port record key, layout.design.portAt cell port = some record →
        (record.net = some key ↔
          ∃ net, layout.design.nets.get? key = some net ∧
            net.Joins record.direction cell port)) ∧
      (∀ key net cell, layout.design.nets.get? key = some net →
        net.driver.cell = some cell →
        ∃ record, layout.design.portAt cell net.driver.port = some record ∧
          record.net = some key) ∧
      (∀ key net netEnd, layout.design.nets.get? key = some net →
        netEnd ∈ net.users →
        ∃ cell record, netEnd.cell = some cell ∧
          layout.design.portAt cell netEnd.port = some record ∧
          record.net = some key) := by
  have sound := reached.sound
  refine ⟨check_eq_ok_iff.mpr sound.consistent, ?_, ?_, ?_⟩
  · intro cell port record key present
    constructor
    · exact sound.reciprocal.net present
    · rintro ⟨net, known, joins⟩
      exact sound.reciprocal.net_eq_some_of_joins present known joins
  · intro key net cell known driven
    obtain ⟨record, present, connected, _⟩ := sound.reciprocal.driver known driven
    exact ⟨record, present, connected⟩
  · intro key net netEnd known member
    obtain ⟨cell, record, named, present, connected, _⟩ :=
      sound.reciprocal.user known member
    exact ⟨cell, record, named, present, connected⟩

def tinyDevice : Device Int :=
  (((Grid.empty "g").addBel "B0" "LUT" 0 0).2.addWire "W0" 1.0).2.device Int

/-- A placed and routed cell that drives itself. -/
theorem Reachable.check_and_reciprocal_of_loop :
    ∃ layout, Reachable tinyDevice layout ∧
      layout.fabric.cellAt ⟨0⟩ = some ⟨1⟩ ∧
      layout.fabric.netOnWire ⟨0⟩ = some ⟨5⟩ ∧
      layout.check = .ok () ∧
      ∃ net, layout.design.nets.get? ⟨5⟩ = some net ∧
        net.Joins .output ⟨1⟩ ⟨3⟩ ∧ net.Joins .input ⟨1⟩ ⟨4⟩ := by
  have start : Reachable tinyDevice (.fresh tinyDevice) := .fresh
  have cell := start.step (.createCell "a" "LUT") trivial
  have output := cell.step (.addPort ⟨1⟩ "Q" .output)
    (fun _ present => nomatch present)
  have input := output.step (.addPort ⟨1⟩ "D" .input)
    (fun _ present => nomatch present)
  have net := input.step (.createNet "n") trivial
  have driven := net.step (.connectPort ⟨5⟩ ⟨1⟩ ⟨3⟩) trivial
  have used := driven.step (.connectPort ⟨5⟩ ⟨1⟩ ⟨4⟩) trivial
  have placed := used.step (.bindBel ⟨1⟩ ⟨0⟩ .weak) (.inl rfl)
  have routed := placed.step (.bindWire ⟨5⟩ ⟨0⟩ .weak) (.inl rfl)
  obtain ⟨passes, ends, _, _⟩ := routed.check_and_reciprocal
  obtain ⟨net, known, drives⟩ :=
    (ends ⟨1⟩ ⟨3⟩ ⟨⟨3⟩, .output, some ⟨5⟩⟩ ⟨5⟩ rfl).mp rfl
  obtain ⟨same, known', uses⟩ :=
    (ends ⟨1⟩ ⟨4⟩ ⟨⟨4⟩, .input, some ⟨5⟩⟩ ⟨5⟩ rfl).mp rfl
  cases known.symm.trans known'
  exact ⟨_, routed, rfl, rfl, passes, net, known, drives, uses⟩
end Layout

end FpgaPlacer
