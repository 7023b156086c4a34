import FpgaPlacer.Proofs.FailedCalls
import FpgaPlacer.Proofs.PassingLayouts

/-!
# Bindings can be taken back and reordered

On a layout that passes the check, a free resource is in no record, so binding it
and giving it up again leads back to the same layout.  Bindings of different
resources write to different places: cells that are bound to different bels, and
pips that reach different wires, can be bound in either order.
-/

namespace FpgaPlacer

variable {κ : Type}

namespace GraphCall

/-- The calls succeed one after the other and lead from the first layout to the
second. -/
inductive Leads : List GraphCall → Layout κ → Layout κ → Prop where
  | done (layout : Layout κ) : Leads [] layout layout
  | step {call : GraphCall} {rest : List GraphCall} {start middle reached : Layout κ}
      {made : Option Symbol} (succeeds : call.edit start = .ok made middle)
      (later : Leads rest middle reached) : Leads (call :: rest) start reached

/-- The two calls succeed in either order and lead to the same layout. -/
def Unordered (layout : Layout κ) (first second : GraphCall) : Prop :=
  ∃ reached, Leads [first, second] layout reached ∧
    Leads [second, first] layout reached

section Steps

variable {layout reached : Layout κ} {rest : List GraphCall}

theorem Leads.bindBel {cell : Symbol} {record : Cell} {bel : BelId}
    {strength : Strength} (found : layout.design.cells.get? cell = some record)
    (later : Leads rest (layout.bound cell record bel strength) reached) :
    Leads (.bindBel cell bel strength :: rest) layout reached :=
  .step (Edit.map_eq_ok_iff.mpr ⟨(), Layout.bindBel_of_found found bel strength, rfl⟩)
    later

theorem Leads.unbindBel {cell : Symbol} {record : Cell}
    (found : layout.design.cells.get? cell = some record)
    (later : Leads rest (layout.released cell record) reached) :
    Leads (.unbindBel cell :: rest) layout reached :=
  .step (Edit.map_eq_ok_iff.mpr ⟨(), Layout.unbindBel_of_found found, rfl⟩) later

theorem Leads.bindWire {net : Symbol} {record : Net} {wire : WireId}
    {strength : Strength} (known : layout.design.nets.get? net = some record)
    (later : Leads rest (layout.withHop net record wire ⟨none, strength⟩) reached) :
    Leads (.bindWire net wire strength :: rest) layout reached :=
  .step (Edit.map_eq_ok_iff.mpr ⟨(), Layout.bindWire_of_known known wire strength, rfl⟩)
    later

theorem Leads.bindPip {net : Symbol} {record : Net} {pip : PipId} {wire : WireId}
    {strength : Strength} (known : layout.design.nets.get? net = some record)
    (target : layout.fabric.pipTarget pip = .ok wire)
    (later : Leads rest (layout.withHop net record wire ⟨some pip, strength⟩) reached) :
    Leads (.bindPip net pip strength :: rest) layout reached :=
  .step
    (Edit.map_eq_ok_iff.mpr ⟨(), Layout.bindPip_of_known known target strength, rfl⟩)
    later

theorem Leads.unbindWire {net : Symbol} {record : Net} {wire : WireId} {hop : Hop}
    (known : layout.design.nets.get? net = some record)
    (routed : record.wires.get? wire = some hop)
    (later : Leads rest (layout.withoutHop net record wire hop) reached) :
    Leads (.unbindWire net wire :: rest) layout reached :=
  .step (Edit.map_eq_ok_iff.mpr ⟨(), Layout.unbindWire_of_routed known routed, rfl⟩)
    later

end Steps

end GraphCall

namespace Layout

/-! ## Taking a binding back -/

section Undo

variable {layout : Layout κ}

theorem released_bound {cell : Symbol} {record : Cell}
    (found : layout.design.cells.get? cell = some record)
    (unplaced : record.bel = none) (unbound : record.strength = .unbound)
    {bel : BelId} (free : layout.fabric.cellAt bel = none) (strength : Strength) :
    (layout.bound cell record bel strength).released cell
      { record with bel := some bel, strength } = layout := by
  have same : { record with bel := none, strength := .unbound } = record := by
    rw [← unplaced, ← unbound]
  have design : (layout.bound cell record bel strength).design.setCell cell record =
      layout.design := by
    rw [bound, Design.setCell_setCell, Design.setCell_get? found]
  have occupancy : (layout.fabric.occupancy.bindBel bel cell strength).unbindBel bel =
      layout.fabric.occupancy := Occupancy.unbindBel_bindBel free cell strength
  simp only [released, same, design]
  simp only [bound, Fabric.withOccupancy, releaseBel, unplaced, occupancy]

theorem withoutHop_withHop {net : Symbol} {record : Net}
    (known : layout.design.nets.get? net = some record) {wire : WireId} {hop : Hop}
    (untouched : record.wires.get? wire = none)
    (wireFree : layout.fabric.netOnWire wire = none)
    (pipFree : ∀ pip, hop.pip = some pip → layout.fabric.netOnPip pip = none) :
    (layout.withHop net record wire hop).withoutHop net
      { record with wires := record.wires.insert wire hop } wire hop = layout := by
  have design : (layout.withHop net record wire hop).design.setNet net record =
      layout.design := by
    rw [withHop, Design.setNet_setNet, Design.setNet_get? known]
  have wires := Occupancy.unbindWire_bindWire wireFree net hop.strength
  have occupancy : (releasePip
      (claimPip (layout.fabric.occupancy.bindWire wire net hop.strength) net hop)
        hop).unbindWire wire = layout.fabric.occupancy := by
    cases reached : hop.pip with
    | none => simp only [releasePip, claimPip, reached, wires]
    | some pip =>
        have free : (layout.fabric.occupancy.bindWire wire net hop.strength).netOnPip
            pip = none := pipFree pip reached
        simp only [releasePip, claimPip, reached, Occupancy.unbindPip_bindPip free,
          wires]
  simp only [withoutHop, Table.erase_insert untouched, design]
  simp only [withHop, Fabric.withOccupancy, occupancy]

theorem Routed.unrouted_of_free (routed : layout.Routed) {net : Symbol} {record : Net}
    (known : layout.design.nets.get? net = some record) {wire : WireId}
    (free : layout.fabric.netOnWire wire = none) : record.wires.get? wire = none := by
  cases onTree : record.wires.get? wire with
  | none => rfl
  | some hop =>
      rw [routed.wire known onTree] at free
      cases free

end Undo

/-! ## Binding in another order -/

section Order

variable {layout : Layout κ}

theorem get?_bels_rebound (occupancy : Occupancy) (record : Cell) (bel query : BelId)
    (cell : Symbol) (strength : Strength) :
    ((releaseBel occupancy record).bindBel bel cell strength).bels.get? query =
      if query = bel then some ⟨cell, strength⟩
      else if record.bel = some query then none
      else occupancy.bels.get? query := by
  simp [Occupancy.bindBel]

/-- Two cells move to different bels, neither of which the other one leaves. -/
theorem rebound_comm (occupancy : Occupancy) {firstRecord secondRecord : Cell}
    {firstBel secondBel : BelId} (apart : firstBel ≠ secondBel)
    (firstLeaves : firstRecord.bel ≠ some secondBel)
    (secondLeaves : secondRecord.bel ≠ some firstBel) (first second : Symbol)
    (firstStrength secondStrength : Strength) :
    (releaseBel
      ((releaseBel occupancy firstRecord).bindBel firstBel first firstStrength)
      secondRecord).bindBel secondBel second secondStrength =
    (releaseBel
      ((releaseBel occupancy secondRecord).bindBel secondBel second secondStrength)
      firstRecord).bindBel firstBel first firstStrength := by
  apply Occupancy.ext_tables
  · apply Table.ext_get?
    intro query
    rw [get?_bels_rebound, get?_bels_rebound, get?_bels_rebound, get?_bels_rebound]
    by_cases isFirst : query = firstBel
    · simp [isFirst, apart, secondLeaves]
    · by_cases isSecond : query = secondBel
      · simp [isSecond, apart.symm, firstLeaves]
      · simp only [isFirst, isSecond, if_false]
        split <;> split <;> rfl
  · simp [Occupancy.bindBel]
  · simp [Occupancy.bindBel]

theorem bound_comm {first second : Symbol} (different : first ≠ second)
    {firstRecord secondRecord : Cell} {firstBel secondBel : BelId}
    (apart : firstBel ≠ secondBel) (firstLeaves : firstRecord.bel ≠ some secondBel)
    (secondLeaves : secondRecord.bel ≠ some firstBel)
    (firstStrength secondStrength : Strength) :
    (layout.bound first firstRecord firstBel firstStrength).bound second secondRecord
        secondBel secondStrength =
      (layout.bound second secondRecord secondBel secondStrength).bound first
        firstRecord firstBel firstStrength := by
  have occupancy := rebound_comm layout.fabric.occupancy apart firstLeaves secondLeaves
    first second firstStrength secondStrength
  simp only [bound, Fabric.withOccupancy, occupancy,
    layout.design.setCell_comm different]

theorem claimed_comm (occupancy : Occupancy) {firstWire secondWire : WireId}
    (wiresApart : firstWire ≠ secondWire) {firstPip secondPip : PipId}
    (pipsApart : firstPip ≠ secondPip) (first second : Symbol)
    (firstStrength secondStrength : Strength) :
    ((((occupancy.bindWire firstWire first firstStrength).bindPip firstPip first
        firstStrength).bindWire secondWire second secondStrength).bindPip secondPip
          second secondStrength) =
      ((((occupancy.bindWire secondWire second secondStrength).bindPip secondPip second
        secondStrength).bindWire firstWire first firstStrength).bindPip firstPip
          first firstStrength) := by
  simp only [Occupancy.bindWire, Occupancy.bindPip, Table.insert_comm _ wiresApart,
    Table.insert_comm _ pipsApart]

section Hops

variable {firstWire secondWire : WireId} (wiresApart : firstWire ≠ secondWire)
  {firstPip secondPip : PipId} (pipsApart : firstPip ≠ secondPip)
  (firstStrength secondStrength : Strength)

include wiresApart pipsApart

theorem withHop_comm {first second : Symbol} (different : first ≠ second)
    (firstRecord secondRecord : Net) :
    (layout.withHop first firstRecord firstWire ⟨some firstPip, firstStrength⟩).withHop
        second secondRecord secondWire ⟨some secondPip, secondStrength⟩ =
      (layout.withHop second secondRecord secondWire
        ⟨some secondPip, secondStrength⟩).withHop
          first firstRecord firstWire ⟨some firstPip, firstStrength⟩ := by
  have occupancy := claimed_comm layout.fabric.occupancy wiresApart pipsApart first
    second firstStrength secondStrength
  simp only [withHop, claimPip, Fabric.withOccupancy, occupancy,
    layout.design.setNet_comm different]

theorem withHop_comm_self (net : Symbol) (record : Net) :
    (layout.withHop net record firstWire ⟨some firstPip, firstStrength⟩).withHop net
        { record with
          wires := record.wires.insert firstWire ⟨some firstPip, firstStrength⟩ }
        secondWire ⟨some secondPip, secondStrength⟩ =
      (layout.withHop net record secondWire ⟨some secondPip, secondStrength⟩).withHop net
        { record with
          wires := record.wires.insert secondWire ⟨some secondPip, secondStrength⟩ }
        firstWire ⟨some firstPip, firstStrength⟩ := by
  have occupancy := claimed_comm layout.fabric.occupancy wiresApart pipsApart net
    net firstStrength secondStrength
  simp only [withHop, claimPip, Fabric.withOccupancy, occupancy,
    Design.setNet_setNet, Table.insert_comm _ wiresApart]

end Hops

end Order

/-! ## On a layout that passes the check -/

section Passing

variable {layout : Layout κ}

theorem leads_back_bel {cell : Symbol} {record : Cell}
    (found : layout.design.cells.get? cell = some record)
    (unplaced : record.bel = none) (unbound : record.strength = .unbound)
    {bel : BelId} (free : layout.fabric.cellAt bel = none) (strength : Strength) :
    GraphCall.Leads [.bindBel cell bel strength, .unbindBel cell] layout layout := by
  apply GraphCall.Leads.bindBel found
  have held := get?_cells_bound layout cell cell record bel strength
  rw [if_pos rfl] at held
  apply GraphCall.Leads.unbindBel held
  rw [released_bound found unplaced unbound free]
  exact .done layout

theorem Routed.leads_back_root (routed : layout.Routed) {net : Symbol} {record : Net}
    (known : layout.design.nets.get? net = some record) {wire : WireId}
    (free : layout.fabric.netOnWire wire = none) (strength : Strength) :
    GraphCall.Leads [.bindWire net wire strength, .unbindWire net wire]
      layout layout := by
  have untouched := routed.unrouted_of_free known free
  apply GraphCall.Leads.bindWire known
  apply GraphCall.Leads.unbindWire
  · rw [get?_nets_withHop, if_pos rfl]
  · rw [Table.get?_insert, if_pos rfl]
  · rw [withoutHop_withHop known untouched free (by simp)]
    exact .done layout

theorem Routed.leads_back_pip (routed : layout.Routed) {net : Symbol} {record : Net}
    (known : layout.design.nets.get? net = some record) {pip : PipId} {wire : WireId}
    (target : layout.fabric.pipTarget pip = .ok wire)
    (pipFree : layout.fabric.netOnPip pip = none)
    (wireFree : layout.fabric.netOnWire wire = none) (strength : Strength) :
    GraphCall.Leads [.bindPip net pip strength, .unbindWire net wire]
      layout layout := by
  have untouched := routed.unrouted_of_free known wireFree
  apply GraphCall.Leads.bindPip known target
  apply GraphCall.Leads.unbindWire
  · rw [get?_nets_withHop, if_pos rfl]
  · rw [Table.get?_insert, if_pos rfl]
  · rw [withoutHop_withHop known untouched wireFree (by rintro _ ⟨⟩; exact pipFree)]
    exact .done layout

/-- A cell is on no bel that another one may take. -/
theorem Seated.keeps_away (seated : layout.Seated) {cell other : Symbol}
    {record : Cell} (found : layout.design.cells.get? cell = some record)
    (different : cell ≠ other) {bel : BelId}
    (free : FreeFor other (layout.fabric.cellAt bel)) : record.bel ≠ some bel := by
  intro placed
  exact different (free.eq (seated.occupant found placed))

theorem Seated.unordered_bels (seated : layout.Seated) {first second : Symbol}
    {firstRecord secondRecord : Cell}
    (firstFound : layout.design.cells.get? first = some firstRecord)
    (secondFound : layout.design.cells.get? second = some secondRecord)
    (different : first ≠ second) {firstBel secondBel : BelId}
    (apart : firstBel ≠ secondBel)
    (firstFree : FreeFor first (layout.fabric.cellAt firstBel))
    (secondFree : FreeFor second (layout.fabric.cellAt secondBel))
    (firstStrength secondStrength : Strength) :
    GraphCall.Unordered layout (.bindBel first firstBel firstStrength)
      (.bindBel second secondBel secondStrength) := by
  have secondThere : (layout.bound first firstRecord firstBel
      firstStrength).design.cells.get? second = some secondRecord := by
    rw [get?_cells_bound, if_neg different.symm]
    exact secondFound
  have firstThere : (layout.bound second secondRecord secondBel
      secondStrength).design.cells.get? first = some firstRecord := by
    rw [get?_cells_bound, if_neg different]
    exact firstFound
  refine ⟨_, .bindBel firstFound (.bindBel secondThere (.done _)), ?_⟩
  rw [bound_comm different apart (seated.keeps_away firstFound different secondFree)
    (seated.keeps_away secondFound different.symm firstFree)]
  exact .bindBel secondFound (.bindBel firstThere (.done _))

theorem unordered_pips {first second : Symbol} {firstRecord secondRecord : Net}
    (firstKnown : layout.design.nets.get? first = some firstRecord)
    (secondKnown : layout.design.nets.get? second = some secondRecord)
    {firstPip secondPip : PipId} {firstWire secondWire : WireId}
    (pipsApart : firstPip ≠ secondPip) (wiresApart : firstWire ≠ secondWire)
    (firstTarget : layout.fabric.pipTarget firstPip = .ok firstWire)
    (secondTarget : layout.fabric.pipTarget secondPip = .ok secondWire)
    (firstStrength secondStrength : Strength) :
    GraphCall.Unordered layout (.bindPip first firstPip firstStrength)
      (.bindPip second secondPip secondStrength) := by
  by_cases same : first = second
  · subst same
    cases firstKnown.symm.trans secondKnown
    have thereAfter (wire : WireId) (hop : Hop) :
        (layout.withHop first firstRecord wire hop).design.nets.get? first =
          some { firstRecord with wires := firstRecord.wires.insert wire hop } := by
      rw [get?_nets_withHop, if_pos rfl]
    refine ⟨_, .bindPip firstKnown firstTarget
      (.bindPip (thereAfter ..) secondTarget (.done _)), ?_⟩
    rw [withHop_comm_self wiresApart pipsApart]
    exact .bindPip firstKnown secondTarget
      (.bindPip (thereAfter ..) firstTarget (.done _))
  · have secondThere (hop : Hop) : (layout.withHop first firstRecord firstWire
        hop).design.nets.get? second = some secondRecord := by
      rw [get?_nets_withHop, if_neg (Ne.symm same)]
      exact secondKnown
    have firstThere (hop : Hop) : (layout.withHop second secondRecord secondWire
        hop).design.nets.get? first = some firstRecord := by
      rw [get?_nets_withHop, if_neg same]
      exact firstKnown
    refine ⟨_, .bindPip firstKnown firstTarget
      (.bindPip (secondThere _) secondTarget (.done _)), ?_⟩
    rw [withHop_comm wiresApart pipsApart _ _ same]
    exact .bindPip secondKnown secondTarget
      (.bindPip (firstThere _) firstTarget (.done _))

/-- On a layout that passes the check, whoever binds a free bel, wire or pip and
gives it up again is back at the same layout, be it a cell without a bel and a
strength that is bound, a root wire or a pip with its wire.  Two cells are bound
in either order, whatever bels they held before, when their bels differ and each
is free or held by the cell itself; and so are two pips that reach different
wires, for one net or for two. -/
theorem bindings_undone_and_unordered (passes : layout.check = .ok ()) :
    (∀ cell record bel strength, layout.design.cells.get? cell = some record →
      record.bel = none → record.strength = .unbound →
      layout.fabric.cellAt bel = none →
      GraphCall.Leads [.bindBel cell bel strength, .unbindBel cell]
        layout layout) ∧
    (∀ net record wire strength, layout.design.nets.get? net = some record →
      layout.fabric.netOnWire wire = none →
      GraphCall.Leads [.bindWire net wire strength, .unbindWire net wire]
        layout layout) ∧
    (∀ net record pip wire strength, layout.design.nets.get? net = some record →
      layout.fabric.pipTarget pip = .ok wire → layout.fabric.netOnPip pip = none →
      layout.fabric.netOnWire wire = none →
      GraphCall.Leads [.bindPip net pip strength, .unbindWire net wire]
        layout layout) ∧
    (∀ first firstRecord second secondRecord firstBel secondBel firstStrength
        secondStrength,
      layout.design.cells.get? first = some firstRecord →
      layout.design.cells.get? second = some secondRecord → first ≠ second →
      firstBel ≠ secondBel → FreeFor first (layout.fabric.cellAt firstBel) →
      FreeFor second (layout.fabric.cellAt secondBel) →
      GraphCall.Unordered layout (.bindBel first firstBel firstStrength)
        (.bindBel second secondBel secondStrength)) ∧
    (∀ first firstRecord second secondRecord firstPip secondPip firstWire secondWire
        firstStrength secondStrength,
      layout.design.nets.get? first = some firstRecord →
      layout.design.nets.get? second = some secondRecord → firstPip ≠ secondPip →
      layout.fabric.pipTarget firstPip = .ok firstWire →
      layout.fabric.pipTarget secondPip = .ok secondWire → firstWire ≠ secondWire →
      GraphCall.Unordered layout (.bindPip first firstPip firstStrength)
        (.bindPip second secondPip secondStrength)) := by
  have consistent := check_eq_ok_iff.mp passes
  refine ⟨?_, ?_, ?_, ?_, ?_⟩
  · intro cell record bel strength found unplaced unbound free
    exact leads_back_bel found unplaced unbound free strength
  · intro net record wire strength known free
    exact consistent.routed.leads_back_root known free strength
  · intro net record pip wire strength known target pipFree wireFree
    exact consistent.routed.leads_back_pip known target pipFree wireFree strength
  · intro first firstRecord second secondRecord firstBel secondBel firstStrength
      secondStrength firstFound secondFound different apart firstFree secondFree
    exact consistent.seated.unordered_bels firstFound secondFound different apart
      firstFree secondFree firstStrength secondStrength
  · intro first firstRecord second secondRecord firstPip secondPip firstWire
      secondWire firstStrength secondStrength firstKnown secondKnown pipsApart
      firstTarget secondTarget wiresApart
    exact unordered_pips firstKnown secondKnown pipsApart wiresApart firstTarget
      secondTarget firstStrength secondStrength

end Passing

/-- A device with three bels and two pips between separate pairs of wires. -/
def lanesDevice : Device Int :=
  let grid := ((Grid.empty "g").addBel "B0" "LUT" 0 0).2
  let grid := (grid.addBel "B1" "LUT" 1 0).2
  let grid := (grid.addBel "B2" "LUT" 2 0).2
  let grid := (grid.addWire "A" 1.0).2
  let grid := (grid.addWire "B" 1.0).2
  let grid := (grid.addWire "C" 1.0).2
  let grid := (grid.addWire "D" 1.0).2
  let grid := (grid.addPip ⟨0⟩ ⟨1⟩ 0.1).2
  (grid.addPip ⟨2⟩ ⟨3⟩ 0.1).2.device Int

/-- A placed cell, one without a bel, and two nets, one of them with a root. -/
def lanes : Layout Int :=
  GraphCall.run
    [.createCell "a" "LUT", .createCell "b" "LUT", .createNet "n", .createNet "m",
      .bindBel ⟨1⟩ ⟨0⟩ .weak, .bindWire ⟨4⟩ ⟨0⟩ .strong] (.fresh lanesDevice)

/-- The placed cell moves on while the other one is placed, and both nets are
routed. -/
theorem bindings_undone_and_unordered_of_lanes :
    lanes.check = .ok () ∧
      GraphCall.Leads [.bindBel ⟨3⟩ ⟨1⟩ .user, .unbindBel ⟨3⟩] lanes lanes ∧
      GraphCall.Leads [.bindWire ⟨5⟩ ⟨2⟩ .weak, .unbindWire ⟨5⟩ ⟨2⟩] lanes lanes ∧
      GraphCall.Leads [.bindPip ⟨4⟩ ⟨0⟩ .weak, .unbindWire ⟨4⟩ ⟨1⟩] lanes lanes ∧
      GraphCall.Unordered lanes (.bindBel ⟨1⟩ ⟨2⟩ .strong) (.bindBel ⟨3⟩ ⟨1⟩ .weak) ∧
      GraphCall.Unordered lanes (.bindPip ⟨4⟩ ⟨0⟩ .weak) (.bindPip ⟨5⟩ ⟨1⟩ .fixed) := by
  have passes : lanes.check = .ok () := rfl
  obtain ⟨bel, root, pip, bels, pips⟩ := bindings_undone_and_unordered passes
  refine ⟨passes, ?_, ?_, ?_, ?_, ?_⟩
  · exact bel ⟨3⟩ _ ⟨1⟩ .user rfl rfl rfl rfl
  · exact root ⟨5⟩ _ ⟨2⟩ .weak rfl rfl
  · exact pip ⟨4⟩ _ ⟨0⟩ ⟨1⟩ .weak rfl rfl rfl rfl
  · exact bels ⟨1⟩ _ ⟨3⟩ _ ⟨2⟩ ⟨1⟩ .strong .weak rfl rfl (by decide) (by decide)
      (.inl rfl) (.inl rfl)
  · exact pips ⟨4⟩ _ ⟨5⟩ _ ⟨0⟩ ⟨1⟩ ⟨1⟩ ⟨3⟩ .weak .fixed rfl rfl (by decide) rfl rfl
      (by decide)

end Layout

end FpgaPlacer
