import FpgaPlacer.Proofs.BelBinding

/-!
# Binding and releasing wires and pips

Binding a root wire and binding a pip store a hop in the routing tree of a net
and occupy its resources.  Both keep the routing in agreement with the fabric
when the resources are free or already held by the same net, and so does
removing a hop.
-/

namespace FpgaPlacer

variable {κ : Type}

namespace Layout

/-- Occupies the pip of a hop, if it has one. -/
def claimPip (occupancy : Occupancy) (net : Symbol) (hop : Hop) : Occupancy :=
  match hop.pip with
  | some pip => occupancy.bindPip pip net hop.strength
  | none => occupancy

/-- The layout after a hop has been added to the routing tree of a net. -/
def withHop (layout : Layout κ) (net : Symbol) (record : Net) (wire : WireId)
    (hop : Hop) : Layout κ where
  design :=
    layout.design.setNet net { record with wires := record.wires.insert wire hop }
  fabric := layout.fabric.withOccupancy (fun occupancy =>
    claimPip (occupancy.bindWire wire net hop.strength) net hop)

/-- The layout after a hop has been removed from the routing tree of a net. -/
def withoutHop (layout : Layout κ) (net : Symbol) (record : Net) (wire : WireId)
    (hop : Hop) : Layout κ where
  design :=
    layout.design.setNet net { record with wires := record.wires.erase wire }
  fabric := layout.fabric.withOccupancy (fun occupancy =>
    (releasePip occupancy hop).unbindWire wire)

theorem bindWire_of_known {layout : Layout κ} {net : Symbol} {record : Net}
    (known : layout.design.nets.get? net = some record) (wire : WireId)
    (strength : Strength) :
    bindWire net wire strength layout =
      .ok () (layout.withHop net record wire ⟨none, strength⟩) := by
  simp [bindWire, known, withHop, claimPip]

theorem bindPip_of_known {layout : Layout κ} {net : Symbol} {record : Net}
    {pip : PipId} {wire : WireId}
    (known : layout.design.nets.get? net = some record)
    (target : layout.fabric.pipTarget pip = .ok wire) (strength : Strength) :
    bindPip net pip strength layout =
      .ok () (layout.withHop net record wire ⟨some pip, strength⟩) := by
  simp [bindPip, known, target, withHop, claimPip]

theorem unbindWire_of_routed {layout : Layout κ} {net : Symbol} {record : Net}
    {wire : WireId} {hop : Hop}
    (known : layout.design.nets.get? net = some record)
    (routed : record.wires.get? wire = some hop) :
    unbindWire net wire layout =
      .ok () (layout.withoutHop net record wire hop) := by
  simp [unbindWire, known, routed, withoutHop]

/-- The ways in which binding a root can leave a layout. -/
inductive RootRun (net : Symbol) (wire : WireId) (strength : Strength)
    (layout : Layout κ) : Layout κ → Prop where
  | unknownNet (absent : layout.design.nets.get? net = none) :
      RootRun net wire strength layout layout
  | added {record : Net} (known : layout.design.nets.get? net = some record) :
      RootRun net wire strength layout
        (layout.withHop net record wire ⟨none, strength⟩)

theorem bindWire_run (net : Symbol) (wire : WireId) (strength : Strength)
    (layout : Layout κ) :
    RootRun net wire strength layout
      ((bindWire net wire strength).after layout) := by
  cases known : layout.design.nets.get? net with
  | none =>
      have run : bindWire net wire strength layout =
          .error (.failed (.unknownNet (layout.design.display net))) layout := by
        simp only [bindWire, known]
      rw [Edit.after_of_error run]
      exact .unknownNet known
  | some record =>
      rw [Edit.after_of_ok (bindWire_of_known known wire strength)]
      exact .added known

/-- The ways in which binding a pip can leave a layout. -/
inductive PipRun (net : Symbol) (pip : PipId) (strength : Strength)
    (layout : Layout κ) : Layout κ → Prop where
  | unknownPip {fault : Fault}
      (lost : layout.fabric.pipTarget pip = .error fault) :
      PipRun net pip strength layout layout
  | unknownNet (absent : layout.design.nets.get? net = none) :
      PipRun net pip strength layout layout
  | added {record : Net} {wire : WireId}
      (known : layout.design.nets.get? net = some record)
      (target : layout.fabric.pipTarget pip = .ok wire) :
      PipRun net pip strength layout
        (layout.withHop net record wire ⟨some pip, strength⟩)

theorem bindPip_run (net : Symbol) (pip : PipId) (strength : Strength)
    (layout : Layout κ) :
    PipRun net pip strength layout
      ((bindPip net pip strength).after layout) := by
  cases target : layout.fabric.pipTarget pip with
  | error fault =>
      have run : bindPip net pip strength layout =
          .error (.fault fault) layout := by
        simp only [bindPip, target]
      rw [Edit.after_of_error run]
      exact .unknownPip target
  | ok wire =>
      cases known : layout.design.nets.get? net with
      | none =>
          have run : bindPip net pip strength layout =
              .error (.failed (.unknownNet (layout.design.display net)))
                layout := by
            simp only [bindPip, target, known]
          rw [Edit.after_of_error run]
          exact .unknownNet known
      | some record =>
          rw [Edit.after_of_ok (bindPip_of_known known target strength)]
          exact .added known target

/-- The ways in which removing a wire can leave a layout. -/
inductive RemovalRun (net : Symbol) (wire : WireId) (layout : Layout κ) :
    Layout κ → Prop where
  | unknownNet (absent : layout.design.nets.get? net = none) :
      RemovalRun net wire layout layout
  | unrouted {record : Net}
      (known : layout.design.nets.get? net = some record)
      (elsewhere : record.wires.get? wire = none) :
      RemovalRun net wire layout layout
  | removed {record : Net} {hop : Hop}
      (known : layout.design.nets.get? net = some record)
      (routed : record.wires.get? wire = some hop) :
      RemovalRun net wire layout (layout.withoutHop net record wire hop)

theorem unbindWire_run (net : Symbol) (wire : WireId) (layout : Layout κ) :
    RemovalRun net wire layout ((unbindWire net wire).after layout) := by
  cases known : layout.design.nets.get? net with
  | none =>
      have run : unbindWire net wire layout =
          .error (.failed (.unknownNet (layout.design.display net))) layout := by
        simp only [unbindWire, known]
      rw [Edit.after_of_error run]
      exact .unknownNet known
  | some record =>
      cases routed : record.wires.get? wire with
      | none =>
          have run : unbindWire net wire layout = .ok () layout := by
            simp only [unbindWire, known, routed]
          rw [Edit.after_of_ok run]
          exact .unrouted known routed
      | some hop =>
          rw [Edit.after_of_ok (unbindWire_of_routed known routed)]
          exact .removed known routed

@[simp] theorem get?_nets_withHop (layout : Layout κ) (net query : Symbol)
    (record : Net) (wire : WireId) (hop : Hop) :
    (layout.withHop net record wire hop).design.nets.get? query =
      if query = net then some { record with wires := record.wires.insert wire hop }
      else layout.design.nets.get? query :=
  Design.get?_nets_setNet ..

@[simp] theorem get?_nets_withoutHop (layout : Layout κ) (net query : Symbol)
    (record : Net) (wire : WireId) (hop : Hop) :
    (layout.withoutHop net record wire hop).design.nets.get? query =
      if query = net then some { record with wires := record.wires.erase wire }
      else layout.design.nets.get? query :=
  Design.get?_nets_setNet ..

@[simp] theorem netOnWire_withHop (layout : Layout κ) (net : Symbol)
    (record : Net) (wire query : WireId) (hop : Hop) :
    (layout.withHop net record wire hop).fabric.netOnWire query =
      if query = wire then some net else layout.fabric.netOnWire query := by
  obtain ⟨pip, strength⟩ := hop
  have wires := Occupancy.netOnWire_bindWire layout.fabric.occupancy wire query
    net strength
  cases pip <;> exact wires

@[simp] theorem netOnPip_withHop (layout : Layout κ) (net : Symbol)
    (record : Net) (wire : WireId) (query : PipId) (hop : Hop) :
    (layout.withHop net record wire hop).fabric.netOnPip query =
      if hop.pip = some query then some net
      else layout.fabric.netOnPip query := by
  obtain ⟨pip, strength⟩ := hop
  cases pip with
  | none => rfl
  | some pip =>
      have pips := Occupancy.netOnPip_bindPip
        (layout.fabric.occupancy.bindWire wire net strength) pip query net strength
      simp only [Option.some.injEq, eq_comm (a := pip)]
      exact pips

@[simp] theorem netOnWire_withoutHop (layout : Layout κ) (net : Symbol)
    (record : Net) (wire query : WireId) (hop : Hop) :
    (layout.withoutHop net record wire hop).fabric.netOnWire query =
      if query = wire then none else layout.fabric.netOnWire query := by
  simp [withoutHop, Fabric.netOnWire, Fabric.withOccupancy]

@[simp] theorem netOnPip_withoutHop (layout : Layout κ) (net : Symbol)
    (record : Net) (wire : WireId) (query : PipId) (hop : Hop) :
    (layout.withoutHop net record wire hop).fabric.netOnPip query =
      if hop.pip = some query then none
      else layout.fabric.netOnPip query :=
  netOnPip_releasePip ..

theorem hop_withHop {layout : Layout κ} {net key : Symbol} {record current : Net}
    {wire query : WireId} {hop entry : Hop}
    (known : layout.design.nets.get? net = some record)
    (stored : (layout.withHop net record wire hop).design.nets.get? key =
      some current) (onTree : current.wires.get? query = some entry) :
    (key = net ∧ query = wire ∧ entry = hop) ∨
      ∃ old, layout.design.nets.get? key = some old ∧
        old.wires.get? query = some entry := by
  rw [get?_nets_withHop] at stored
  split at stored
  · rename_i isNet
    cases stored
    rw [Table.get?_insert] at onTree
    split at onTree
    · rename_i isWire
      exact .inl ⟨isNet, isWire, (Option.some.inj onTree).symm⟩
    · exact .inr ⟨record, isNet ▸ known, onTree⟩
  · exact .inr ⟨current, stored, onTree⟩

theorem hop_withoutHop {layout : Layout κ} {net key : Symbol}
    {record current : Net} {wire query : WireId} {hop entry : Hop}
    (known : layout.design.nets.get? net = some record)
    (stored : (layout.withoutHop net record wire hop).design.nets.get? key =
      some current) (onTree : current.wires.get? query = some entry) :
    ∃ old, layout.design.nets.get? key = some old ∧
      old.wires.get? query = some entry ∧ ¬ (key = net ∧ query = wire) := by
  rw [get?_nets_withoutHop] at stored
  split at stored
  · rename_i isNet
    cases stored
    rw [Table.get?_erase] at onTree
    split at onTree
    · cases onTree
    · rename_i otherWire
      exact ⟨record, isNet ▸ known, onTree, fun both => otherWire both.2⟩
  · rename_i otherNet
    exact ⟨current, stored, onTree, fun both => otherNet both.1⟩

namespace Routed

variable {layout : Layout κ}

theorem withHop (routed : layout.Routed) {net : Symbol} {record : Net}
    (known : layout.design.nets.get? net = some record) {wire : WireId}
    {hop : Hop} (wireFree : FreeFor net (layout.fabric.netOnWire wire))
    (pipTarget : ∀ pip, hop.pip = some pip →
      layout.fabric.pipTarget pip = .ok wire)
    (pipFree : ∀ pip, hop.pip = some pip →
      FreeFor net (layout.fabric.netOnPip pip)) :
    (layout.withHop net record wire hop).Routed := by
  constructor
  · intro key current query entry stored onTree
    rw [netOnWire_withHop]
    rcases hop_withHop known stored onTree with ⟨isNet, isWire, _⟩ | ⟨old, former, onOld⟩
    · rw [if_pos isWire, isNet]
    · have held := routed.wire former onOld
      split
      · rename_i isWire
        rw [isWire] at held
        rw [wireFree.eq held]
      · exact held
  · intro key current query entry pip stored onTree reached
    rcases hop_withHop known stored onTree with ⟨_, isWire, isHop⟩ | ⟨old, former, onOld⟩
    · rw [isWire]
      exact pipTarget pip (isHop ▸ reached)
    · exact routed.target former onOld reached
  · intro key current query entry pip stored onTree reached
    rw [netOnPip_withHop]
    rcases hop_withHop known stored onTree with ⟨isNet, _, isHop⟩ | ⟨old, former, onOld⟩
    · rw [if_pos (isHop ▸ reached), isNet]
    · have held := routed.pip former onOld reached
      split
      · rename_i isPip
        rw [(pipFree pip isPip).eq held]
      · exact held
  · intro query key enumerated held
    rw [netOnWire_withHop] at held
    rw [Layout.get?_nets_withHop]
    split at held
    · rename_i isWire
      cases held
      rw [if_pos rfl]
      refine ⟨_, rfl, Table.contains_iff.mpr ⟨hop, ?_⟩⟩
      rw [Table.get?_insert, if_pos isWire]
    · rename_i otherWire
      obtain ⟨old, former, contains⟩ := routed.holder enumerated held
      split
      · rename_i isNet
        rw [isNet, known] at former
        cases former
        obtain ⟨entry, onOld⟩ := Table.contains_iff.mp contains
        refine ⟨_, rfl, Table.contains_iff.mpr ⟨entry, ?_⟩⟩
        rw [Table.get?_insert, if_neg otherWire]
        exact onOld
      · exact ⟨old, former, contains⟩

theorem withoutHop (routed : layout.Routed) {net : Symbol} {record : Net}
    (known : layout.design.nets.get? net = some record) {wire : WireId}
    {hop : Hop} (removed : record.wires.get? wire = some hop) :
    (layout.withoutHop net record wire hop).Routed := by
  have ownWire := routed.wire known removed
  constructor
  · intro key current query entry stored onTree
    obtain ⟨old, former, onOld, other⟩ := hop_withoutHop known stored onTree
    have held := routed.wire former onOld
    have otherWire : query ≠ wire := by
      rintro rfl
      rw [ownWire] at held
      exact other ⟨(Option.some.inj held).symm, rfl⟩
    rw [netOnWire_withoutHop, if_neg otherWire]
    exact held
  · intro key current query entry pip stored onTree reached
    obtain ⟨old, former, onOld, _⟩ := hop_withoutHop known stored onTree
    exact routed.target former onOld reached
  · intro key current query entry pip stored onTree reached
    obtain ⟨old, former, onOld, other⟩ := hop_withoutHop known stored onTree
    have held := routed.pip former onOld reached
    have otherPip : hop.pip ≠ some pip := by
      intro samePip
      have ownPip := routed.pip known removed samePip
      have ownTarget := routed.target known removed samePip
      have target := routed.target former onOld reached
      rw [ownPip] at held
      rw [ownTarget] at target
      exact other ⟨(Option.some.inj held).symm, (Except.ok.inj target).symm⟩
    rw [netOnPip_withoutHop, if_neg otherPip]
    exact held
  · intro query key enumerated held
    rw [netOnWire_withoutHop] at held
    rw [Layout.withoutHop, Design.get?_nets_setNet]
    split at held
    · cases held
    · rename_i otherWire
      obtain ⟨old, former, contains⟩ := routed.holder enumerated held
      split
      · rename_i isNet
        rw [isNet, known] at former
        cases former
        obtain ⟨entry, onOld⟩ := Table.contains_iff.mp contains
        refine ⟨_, rfl, Table.contains_iff.mpr ⟨entry, ?_⟩⟩
        rw [Table.get?_erase, if_neg otherWire]
        exact onOld
      · exact ⟨old, former, contains⟩

/-- An edit of the nets that keeps every hop keeps the routing. -/
theorem of_hops {after : Layout κ} (routed : layout.Routed)
    (fabric : after.fabric = layout.fabric)
    (former : ∀ {key net wire hop}, after.design.nets.get? key = some net →
      net.wires.get? wire = some hop →
      ∃ old, layout.design.nets.get? key = some old ∧
        old.wires.get? wire = some hop)
    (kept : ∀ {key old wire}, layout.design.nets.get? key = some old →
      old.wires.contains wire = true →
      ∃ net, after.design.nets.get? key = some net ∧
        net.wires.contains wire = true) : after.Routed := by
  constructor
  · intro key net wire hop stored onTree
    obtain ⟨old, there, onOld⟩ := former stored onTree
    rw [fabric]
    exact routed.wire there onOld
  · intro key net wire hop pip stored onTree reached
    obtain ⟨old, there, onOld⟩ := former stored onTree
    rw [fabric]
    exact routed.target there onOld reached
  · intro key net wire hop pip stored onTree reached
    obtain ⟨old, there, onOld⟩ := former stored onTree
    rw [fabric]
    exact routed.pip there onOld reached
  · intro wire key enumerated held
    rw [fabric] at enumerated held
    obtain ⟨old, there, contains⟩ := routed.holder enumerated held
    exact kept there contains

theorem setNet_sameWires (routed : layout.Routed) {net : Symbol} {old new : Net}
    (known : layout.design.nets.get? net = some old)
    (wires : new.wires = old.wires) :
    ({ layout with design := layout.design.setNet net new } : Layout κ).Routed := by
  apply routed.of_hops
  · rfl
  · intro key current wire hop stored onTree
    rw [Design.get?_nets_setNet] at stored
    split at stored
    · rename_i isNet
      cases stored
      exact ⟨old, isNet ▸ known, wires ▸ onTree⟩
    · exact ⟨current, stored, onTree⟩
  · intro key before wire there contains
    rw [Design.get?_nets_setNet]
    split
    · rename_i isNet
      rw [isNet, known] at there
      cases there
      exact ⟨new, rfl, wires ▸ contains⟩
    · exact ⟨before, there, contains⟩

theorem setNet_undriven (routed : layout.Routed) {net : Symbol}
    (absent : layout.design.nets.get? net = none) (name placeholder : Symbol) :
    ({ layout with
      design := layout.design.setNet net (.undriven name placeholder) } :
        Layout κ).Routed := by
  apply routed.of_hops
  · rfl
  · intro key current wire hop stored onTree
    rw [Design.get?_nets_setNet] at stored
    split at stored
    · cases stored
      cases onTree
    · exact ⟨current, stored, onTree⟩
  · intro key before wire there contains
    have other : key ≠ net := by
      rintro rfl
      rw [absent] at there
      cases there
    rw [Design.get?_nets_setNet, if_neg other]
    exact ⟨before, there, contains⟩

end Routed

end Layout

end FpgaPlacer
