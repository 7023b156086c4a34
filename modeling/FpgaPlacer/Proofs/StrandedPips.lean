import FpgaPlacer.Proofs.ReachableLayouts

/-!
# Pips that routing strands

A routing tree has one hop for each of its wires.  A net that reaches one of its
wires again, through another pip or as a root, replaces the hop, and the pip of
the old hop stays bound in the fabric.  This is the only way in which the trees
and the fabric come apart: wires stay in step, recorded pips are bound, and a
bound pip that is not recorded was displaced and has not been bound since.
-/

namespace FpgaPlacer

variable {κ : Type}

namespace Layout

def hopAt (layout : Layout κ) (net : Symbol) (wire : WireId) : Option Hop :=
  (layout.design.nets.get? net).bind fun record => record.wires.get? wire

def OnTree (layout : Layout κ) (net : Symbol) (wire : WireId) : Prop :=
  ∃ hop, layout.hopAt net wire = some hop

/-- The routing tree of the net reaches the wire through the pip. -/
def Reaches (layout : Layout κ) (net : Symbol) (wire : WireId) (pip : PipId) :
    Prop :=
  ∃ hop, layout.hopAt net wire = some hop ∧ hop.pip = some pip

/-- The routing tree of the net has the pip at the wire that it drives. -/
def Records (layout : Layout κ) (net : Symbol) (pip : PipId) : Prop :=
  ∃ wire, layout.fabric.pipTarget pip = .ok wire ∧ layout.Reaches net wire pip

/-- The pip is bound to the net, whose routing tree does not have it. -/
def Strands (layout : Layout κ) (net : Symbol) (pip : PipId) : Prop :=
  layout.fabric.netOnPip pip = some net ∧ ¬ layout.Records net pip

/-- No net is routed, and no wire or pip is bound. -/
structure Unrouted (layout : Layout κ) : Prop where
  trees : ∀ {key net}, layout.design.nets.get? key = some net →
    ∀ wire, net.wires.get? wire = none
  wires : ∀ wire, layout.fabric.netOnWire wire = none
  pips : ∀ pip, layout.fabric.netOnPip pip = none

end Layout

namespace GraphCall

/-- The calls that a router makes. -/
def Routes : GraphCall → Prop
  | bindWire .. | bindPip .. | unbindWire .. => True
  | _ => False

/-- Whether a call asks for a pip. -/
def Binds (pip : PipId) : GraphCall → Prop
  | bindPip _ asked _ => asked = pip
  | _ => False

/-- Whether a call reaches, for a net, a wire that the net has reached through
the pip, and does so in another way. -/
def Displaces (layout : Layout κ) (net : Symbol) (pip : PipId) :
    GraphCall → Prop
  | bindWire key wire _ => key = net ∧ layout.Reaches net wire pip
  | bindPip key asked _ => key = net ∧ asked ≠ pip ∧
      ∃ wire, layout.fabric.pipTarget asked = .ok wire ∧
        layout.Reaches net wire pip
  | _ => False

/-- The calls are a router's, and each of them is allowed when it is made. -/
def Routing : List GraphCall → Layout κ → Prop
  | [], _ => True
  | call :: rest, layout =>
      call.Routes ∧ call.Allowed layout ∧ Routing rest (call.after layout)

/-- One of the calls displaces the pip, and no later one asks for it. -/
def DisplacedForGood (calls : List GraphCall) (start : Layout κ) (net : Symbol)
    (pip : PipId) : Prop :=
  ∃ earlier call later, calls = earlier ++ call :: later ∧
    call.Displaces (run earlier start) net pip ∧
    ∀ again ∈ later, ¬ again.Binds pip

theorem displacedForGood_cons {call : GraphCall} {rest : List GraphCall}
    {start : Layout κ} {net : Symbol} {pip : PipId} :
    DisplacedForGood (call :: rest) start net pip ↔
      (call.Displaces start net pip ∧ ∀ again ∈ rest, ¬ again.Binds pip) ∨
        DisplacedForGood rest (call.after start) net pip := by
  constructor
  · rintro ⟨earlier, blamed, later, split, displaces, kept⟩
    cases earlier with
    | nil =>
        cases split
        exact .inl ⟨displaces, kept⟩
    | cons first earlier =>
        cases split
        exact .inr ⟨earlier, blamed, later, rfl, displaces, kept⟩
  · rintro (⟨displaces, kept⟩ | ⟨earlier, blamed, later, split, displaces, kept⟩)
    · exact ⟨[], call, rest, rfl, displaces, kept⟩
    · exact ⟨call :: earlier, blamed, later, congrArg (call :: ·) split,
        displaces, kept⟩

end GraphCall

namespace Layout

/-! ## What one hop changes -/

section Hops

variable {layout : Layout κ} {net key : Symbol} {record : Net}
  {wire query : WireId} {hop : Hop} {pip : PipId}

theorem hopAt_eq_some_iff :
    layout.hopAt net wire = some hop ↔
      ∃ record, layout.design.nets.get? net = some record ∧
        record.wires.get? wire = some hop :=
  Option.bind_eq_some_iff

theorem not_reaches_of_unknown (absent : layout.design.nets.get? net = none) :
    ¬ layout.Reaches net wire pip := by
  rintro ⟨hop, there, -⟩
  rw [hopAt, absent] at there
  cases there

theorem hopAt_withHop (known : layout.design.nets.get? net = some record) :
    (layout.withHop net record wire hop).hopAt key query =
      if key = net ∧ query = wire then some hop else layout.hopAt key query := by
  rw [hopAt, get?_nets_withHop]
  by_cases isNet : key = net
  · rw [isNet, hopAt, known]
    simp
  · simp [isNet, hopAt]

theorem hopAt_withoutHop (known : layout.design.nets.get? net = some record) :
    (layout.withoutHop net record wire hop).hopAt key query =
      if key = net ∧ query = wire then none else layout.hopAt key query := by
  rw [hopAt, get?_nets_withoutHop]
  by_cases isNet : key = net
  · rw [isNet, hopAt, known]
    simp
  · simp [isNet, hopAt]

theorem reaches_withHop (known : layout.design.nets.get? net = some record) :
    (layout.withHop net record wire hop).Reaches key query pip ↔
      if key = net ∧ query = wire then hop.pip = some pip
      else layout.Reaches key query pip := by
  unfold Reaches
  rw [hopAt_withHop known]
  split
  · simp
  · rfl

theorem reaches_withoutHop (known : layout.design.nets.get? net = some record) :
    (layout.withoutHop net record wire hop).Reaches key query pip ↔
      ¬ (key = net ∧ query = wire) ∧ layout.Reaches key query pip := by
  unfold Reaches
  rw [hopAt_withoutHop known]
  split
  · rename_i removed
    simp [removed]
  · rename_i kept
    exact (and_iff_right kept).symm

end Hops

/-! ## What routing keeps -/

/-- The routing trees agree with the fabric, up to pips that are bound and not
recorded; those too have a target and a net. -/
structure Tracked (layout : Layout κ) : Prop where
  routed : layout.Routed
  wire : ∀ {wire net}, layout.fabric.netOnWire wire = some net →
    layout.OnTree net wire
  target : ∀ {pip net}, layout.fabric.netOnPip pip = some net →
    ∃ wire, layout.fabric.pipTarget pip = .ok wire
  net : ∀ {pip net}, layout.fabric.netOnPip pip = some net →
    ∃ record, layout.design.nets.get? net = some record

theorem Unrouted.tracked {layout : Layout κ} (unrouted : layout.Unrouted) :
    layout.Tracked := by
  constructor
  · constructor
    · intro key net wire hop stored onTree
      rw [unrouted.trees stored wire] at onTree
      cases onTree
    · intro key net wire hop pip stored onTree
      rw [unrouted.trees stored wire] at onTree
      cases onTree
    · intro key net wire hop pip stored onTree
      rw [unrouted.trees stored wire] at onTree
      cases onTree
    · intro wire key _ held
      rw [unrouted.wires wire] at held
      cases held
  · intro wire net held
    rw [unrouted.wires wire] at held
    cases held
  · intro pip net held
    rw [unrouted.pips pip] at held
    cases held
  · intro pip net held
    rw [unrouted.pips pip] at held
    cases held

theorem Unrouted.not_strands {layout : Layout κ} (unrouted : layout.Unrouted)
    (net : Symbol) (pip : PipId) : ¬ layout.Strands net pip := by
  rintro ⟨held, -⟩
  rw [unrouted.pips pip] at held
  cases held

namespace Tracked

variable {layout : Layout κ} {net key : Symbol} {record : Net} {wire : WireId}
  {hop : Hop} {pip : PipId}

theorem reaches_bound (tracked : layout.Tracked)
    (reaches : layout.Reaches net wire pip) :
    layout.fabric.pipTarget pip = .ok wire ∧
      layout.fabric.netOnPip pip = some net := by
  obtain ⟨hop, there, through⟩ := reaches
  obtain ⟨record, known, onTree⟩ := hopAt_eq_some_iff.mp there
  exact ⟨tracked.routed.target known onTree through,
    tracked.routed.pip known onTree through⟩

/-- A bound pip has one holder and one target, so it serves one hop. -/
theorem reaches_unique (tracked : layout.Tracked) {query : WireId}
    (reaches : layout.Reaches net wire pip)
    (again : layout.Reaches key query pip) : key = net ∧ query = wire := by
  obtain ⟨target, held⟩ := tracked.reaches_bound reaches
  obtain ⟨targetToo, heldToo⟩ := tracked.reaches_bound again
  rw [target] at targetToo
  rw [held] at heldToo
  exact ⟨(Option.some.inj heldToo).symm, (Except.ok.inj targetToo).symm⟩

theorem records_iff (tracked : layout.Tracked) :
    layout.Records net pip ↔ ∃ wire, layout.Reaches net wire pip :=
  exists_congr fun _ => and_iff_right_of_imp fun reaches =>
    (tracked.reaches_bound reaches).1

theorem netOnWire_iff (tracked : layout.Tracked) :
    layout.fabric.netOnWire wire = some net ↔ layout.OnTree net wire := by
  refine ⟨tracked.wire, ?_⟩
  rintro ⟨hop, there⟩
  obtain ⟨record, known, onTree⟩ := hopAt_eq_some_iff.mp there
  exact tracked.routed.wire known onTree

theorem withHop (tracked : layout.Tracked)
    (known : layout.design.nets.get? net = some record)
    (wireFree : FreeFor net (layout.fabric.netOnWire wire))
    (target : ∀ pip, hop.pip = some pip → layout.fabric.pipTarget pip = .ok wire)
    (pipFree : ∀ pip, hop.pip = some pip →
      FreeFor net (layout.fabric.netOnPip pip)) :
    (layout.withHop net record wire hop).Tracked := by
  constructor
  · exact tracked.routed.withHop known wireFree target pipFree
  · intro query holder held
    rw [netOnWire_withHop] at held
    rw [OnTree, hopAt_withHop known]
    split at held
    · rename_i isWire
      cases held
      exact ⟨hop, if_pos ⟨rfl, isWire⟩⟩
    · rename_i otherWire
      rw [if_neg fun both => otherWire both.2]
      exact tracked.wire held
  · intro asked holder held
    rw [netOnPip_withHop] at held
    split at held
    · rename_i own
      exact ⟨wire, target asked own⟩
    · exact tracked.target held
  · intro asked holder held
    rw [get?_nets_withHop]
    split
    · exact ⟨_, rfl⟩
    · rename_i otherNet
      rw [netOnPip_withHop] at held
      split at held
      · exact absurd (Option.some.inj held).symm otherNet
      · exact tracked.net held

theorem withoutHop (tracked : layout.Tracked)
    (known : layout.design.nets.get? net = some record)
    (removed : record.wires.get? wire = some hop) :
    (layout.withoutHop net record wire hop).Tracked := by
  have kept {query : PipId} {holder : Symbol}
      (held : (layout.withoutHop net record wire hop).fabric.netOnPip query =
        some holder) : layout.fabric.netOnPip query = some holder := by
    rw [netOnPip_withoutHop] at held
    split at held
    · cases held
    · exact held
  constructor
  · exact tracked.routed.withoutHop known removed
  · intro query holder held
    rw [netOnWire_withoutHop] at held
    split at held
    · cases held
    · rename_i otherWire
      rw [OnTree, hopAt_withoutHop known, if_neg fun both => otherWire both.2]
      exact tracked.wire held
  · exact fun held => tracked.target (kept held)
  · intro asked holder held
    rw [get?_nets_withoutHop]
    split
    · exact ⟨_, rfl⟩
    · exact tracked.net (kept held)

/-- With a new hop through another pip, the tree loses a pip exactly when it was
the pip of the hop replaced. -/
theorem exists_reaches_withHop (tracked : layout.Tracked)
    (known : layout.design.nets.get? net = some record)
    (other : hop.pip ≠ some pip) :
    (∃ place, (layout.withHop net record wire hop).Reaches key place pip) ↔
      (∃ place, layout.Reaches key place pip) ∧
        ¬ (key = net ∧ layout.Reaches net wire pip) := by
  constructor
  · rintro ⟨place, reaches⟩
    rw [reaches_withHop known] at reaches
    split at reaches
    · exact absurd reaches other
    · rename_i elsewhere
      refine ⟨⟨place, reaches⟩, fun replaced => ?_⟩
      exact elsewhere (tracked.reaches_unique replaced.2 reaches)
  · rintro ⟨⟨place, reaches⟩, spared⟩
    refine ⟨place, ?_⟩
    rw [reaches_withHop known, if_neg]
    · exact reaches
    · rintro ⟨rfl, rfl⟩
      exact spared ⟨rfl, reaches⟩

/-- A new hop strands the pip of the hop that it replaces, unless it is the same
pip, and nothing else. -/
theorem strands_withHop (tracked : layout.Tracked)
    (known : layout.design.nets.get? net = some record)
    (after : (layout.withHop net record wire hop).Tracked) :
    (layout.withHop net record wire hop).Strands key pip ↔
      hop.pip ≠ some pip ∧
        (key = net ∧ layout.Reaches net wire pip ∨ layout.Strands key pip) := by
  unfold Strands
  rw [after.records_iff, tracked.records_iff, netOnPip_withHop]
  by_cases own : hop.pip = some pip
  · have reached : (layout.withHop net record wire hop).Reaches net wire pip := by
      rw [reaches_withHop known, if_pos ⟨rfl, rfl⟩]
      exact own
    rw [if_pos own]
    constructor
    · rintro ⟨same, lost⟩
      cases same
      exact absurd ⟨wire, reached⟩ lost
    · exact fun apart => absurd own apart.1
  · rw [if_neg own, and_iff_right own, tracked.exists_reaches_withHop known own]
    constructor
    · rintro ⟨held, lost⟩
      by_cases replaced : key = net ∧ layout.Reaches net wire pip
      · exact .inl replaced
      · exact .inr ⟨held, fun recorded => lost ⟨recorded, replaced⟩⟩
    · rintro (⟨rfl, reaches⟩ | ⟨held, unrecorded⟩)
      · refine ⟨(tracked.reaches_bound reaches).2, ?_⟩
        exact fun spared => spared.2 ⟨rfl, reaches⟩
      · exact ⟨held, fun spared => unrecorded spared.1⟩

theorem strands_withoutHop (tracked : layout.Tracked)
    (known : layout.design.nets.get? net = some record)
    (removed : record.wires.get? wire = some hop)
    (after : (layout.withoutHop net record wire hop).Tracked) :
    (layout.withoutHop net record wire hop).Strands key pip ↔
      layout.Strands key pip := by
  have there : layout.hopAt net wire = some hop :=
    hopAt_eq_some_iff.mpr ⟨record, known, removed⟩
  unfold Strands
  rw [after.records_iff, tracked.records_iff, netOnPip_withoutHop]
  by_cases own : hop.pip = some pip
  · have reaches : layout.Reaches net wire pip := ⟨hop, there, own⟩
    have held := (tracked.reaches_bound reaches).2
    rw [if_pos own, held]
    constructor
    · rintro ⟨free, -⟩
      cases free
    · rintro ⟨same, lost⟩
      cases same
      exact absurd ⟨wire, reaches⟩ lost
  · rw [if_neg own]
    have same (place : WireId) :
        (layout.withoutHop net record wire hop).Reaches key place pip ↔
          layout.Reaches key place pip := by
      rw [reaches_withoutHop known, and_iff_right_of_imp]
      rintro ⟨entry, stored, through⟩ ⟨rfl, rfl⟩
      rw [there] at stored
      cases stored
      exact own through
    simp only [same]

end Tracked

/-! ## What a router's call strands -/

section Calls

variable {layout : Layout κ} {net key : Symbol} {pip : PipId} {wire : WireId}
  {strength : Strength}

theorem Tracked.bindWire (tracked : layout.Tracked)
    (allowed : (GraphCall.bindWire key wire strength).Allowed layout) :
    ((Layout.bindWire key wire strength).after layout).Tracked ∧
      (((Layout.bindWire key wire strength).after layout).Strands net pip ↔
        key = net ∧ layout.Reaches net wire pip ∨ layout.Strands net pip) := by
  have ways := bindWire_run key wire strength layout
  generalize (Layout.bindWire key wire strength).after layout = reached at ways ⊢
  cases ways with
  | unknownNet absent =>
      refine ⟨tracked, (or_iff_right ?_).symm⟩
      rintro ⟨rfl, reaches⟩
      exact not_reaches_of_unknown absent reaches
  | @added record known =>
      have after : (layout.withHop key record wire ⟨none, strength⟩).Tracked :=
        tracked.withHop known allowed (by simp) (by simp)
      refine ⟨after, ?_⟩
      rw [tracked.strands_withHop known after]
      constructor
      · rintro ⟨-, ⟨rfl, reaches⟩ | stranded⟩
        · exact .inl ⟨rfl, reaches⟩
        · exact .inr stranded
      · rintro (⟨rfl, reaches⟩ | stranded)
        · exact ⟨by simp, .inl ⟨rfl, reaches⟩⟩
        · exact ⟨by simp, .inr stranded⟩

/-- Binding a pip strands the pip of the hop that it replaces, unless it is the
same pip, and puts its own pip on the tree. -/
theorem Tracked.bindPip (tracked : layout.Tracked) {asked : PipId}
    (allowed : (GraphCall.bindPip key asked strength).Allowed layout) :
    ((Layout.bindPip key asked strength).after layout).Tracked ∧
      (((Layout.bindPip key asked strength).after layout).Strands net pip ↔
        (GraphCall.bindPip key asked strength).Displaces layout net pip ∨
          layout.Strands net pip ∧ asked ≠ pip) := by
  have ways := bindPip_run key asked strength layout
  generalize (Layout.bindPip key asked strength).after layout = reached at ways ⊢
  cases ways with
  | unknownPip lost =>
      refine ⟨tracked, .symm ((or_iff_right ?_).trans (and_iff_left_of_imp ?_))⟩
      · rintro ⟨-, -, wire, target, -⟩
        rw [lost] at target
        cases target
      · rintro stranded rfl
        obtain ⟨wire, target⟩ := tracked.target stranded.1
        rw [lost] at target
        cases target
  | unknownNet absent =>
      refine ⟨tracked, .symm ((or_iff_right ?_).trans (and_iff_left_of_imp ?_))⟩
      · rintro ⟨rfl, -, wire, -, reaches⟩
        exact not_reaches_of_unknown absent reaches
      · rintro stranded rfl
        obtain ⟨record, known⟩ := tracked.net stranded.1
        rw [allowed.2.eq stranded.1, absent] at known
        cases known
  | @added record wire known target =>
      have after :
          (layout.withHop key record wire ⟨some asked, strength⟩).Tracked := by
        apply tracked.withHop known (allowed.1 wire target)
        · rintro own ⟨⟩
          exact target
        · rintro own ⟨⟩
          exact allowed.2
      refine ⟨after, ?_⟩
      rw [tracked.strands_withHop known after]
      constructor
      · rintro ⟨other, ⟨rfl, reaches⟩ | stranded⟩
        · exact .inl ⟨rfl, fun same => other (congrArg some same), wire, target,
            reaches⟩
        · exact .inr ⟨stranded, fun same => other (congrArg some same)⟩
      · rintro (⟨rfl, other, place, targetToo, reaches⟩ | ⟨stranded, other⟩)
        · rw [target] at targetToo
          cases targetToo
          exact ⟨fun same => other (Option.some.inj same), .inl ⟨rfl, reaches⟩⟩
        · exact ⟨fun same => other (Option.some.inj same), .inr stranded⟩

theorem Tracked.unbindWire (tracked : layout.Tracked) :
    ((Layout.unbindWire key wire).after layout).Tracked ∧
      (((Layout.unbindWire key wire).after layout).Strands net pip ↔
        layout.Strands net pip) := by
  have ways := unbindWire_run key wire layout
  generalize (Layout.unbindWire key wire).after layout = reached at ways ⊢
  cases ways with
  | unknownNet => exact ⟨tracked, .rfl⟩
  | unrouted => exact ⟨tracked, .rfl⟩
  | removed known routed =>
      have after := tracked.withoutHop known routed
      exact ⟨after, tracked.strands_withoutHop known routed after⟩

/-- A pip is stranded after a call if the call displaces it, or if it was
stranded before and the call does not ask for it. -/
theorem Tracked.step (tracked : layout.Tracked) (net : Symbol) (pip : PipId)
    {call : GraphCall} (routes : call.Routes) (allowed : call.Allowed layout) :
    (call.after layout).Tracked ∧
      ((call.after layout).Strands net pip ↔
        call.Displaces layout net pip ∨
          layout.Strands net pip ∧ ¬ call.Binds pip) := by
  cases call with
  | bindWire key wire strength =>
      obtain ⟨after, strands⟩ := tracked.bindWire allowed
      exact ⟨after, strands.trans
        (or_congr_right (and_iff_left not_false).symm)⟩
  | bindPip key asked strength => exact tracked.bindPip allowed
  | unbindWire key wire =>
      obtain ⟨after, strands⟩ := tracked.unbindWire
      refine ⟨after, strands.trans ?_⟩
      exact (and_iff_left not_false).symm.trans (or_iff_right not_false).symm
  | _ => cases routes

/-- Over a run, the stranded pips are the ones displaced for good, and the ones
stranded at the start that no call asks for. -/
theorem Tracked.run {start : Layout κ} (tracked : start.Tracked)
    (net : Symbol) (pip : PipId) {calls : List GraphCall}
    (routing : GraphCall.Routing calls start) :
    (GraphCall.run calls start).Tracked ∧
      ((GraphCall.run calls start).Strands net pip ↔
        GraphCall.DisplacedForGood calls start net pip ∨
          start.Strands net pip ∧ ∀ call ∈ calls, ¬ call.Binds pip) := by
  induction calls generalizing start with
  | nil =>
      refine ⟨tracked, ?_⟩
      constructor
      · intro stranded
        exact .inr ⟨stranded, fun call listed => nomatch listed⟩
      · rintro (⟨earlier, call, later, split, -⟩ | ⟨stranded, -⟩)
        · simp at split
        · exact stranded
  | cons call rest induction =>
      obtain ⟨routes, allowed, routing⟩ := routing
      obtain ⟨after, first⟩ := tracked.step net pip routes allowed
      obtain ⟨final, rest⟩ := induction after routing
      refine ⟨final, rest.trans ?_⟩
      rw [GraphCall.displacedForGood_cons, first, List.forall_mem_cons,
        or_and_right, and_assoc, or_left_comm, or_assoc]

end Calls

/-! ## The trees and the fabric after routing -/

variable {start : Layout κ} {calls : List GraphCall}

/-- After a router's calls a wire is bound to a net exactly when it is on the
routing tree of the net.  A pip is bound to a net exactly when the tree has it
at the wire that it drives or a call has displaced it for good, and never both.
So a net without wires still holds the pips displaced for good, and no other. -/
theorem Unrouted.routing_characterized (unrouted : start.Unrouted)
    (routing : GraphCall.Routing calls start) :
    (∀ wire net,
      (GraphCall.run calls start).fabric.netOnWire wire = some net ↔
        (GraphCall.run calls start).OnTree net wire) ∧
    (∀ pip net,
      (GraphCall.run calls start).fabric.netOnPip pip = some net ↔
        (GraphCall.run calls start).Records net pip ∨
          GraphCall.DisplacedForGood calls start net pip) ∧
    (∀ pip net, (GraphCall.run calls start).Records net pip →
      ¬ GraphCall.DisplacedForGood calls start net pip) ∧
    (∀ net, (∀ wire, ¬ (GraphCall.run calls start).OnTree net wire) →
      ∀ pip, (GraphCall.run calls start).fabric.netOnPip pip = some net ↔
        GraphCall.DisplacedForGood calls start net pip) := by
  have tracked := (unrouted.tracked.run ⟨0⟩ ⟨0⟩ routing).1
  have strands (pip : PipId) (net : Symbol) :
      (GraphCall.run calls start).Strands net pip ↔
        GraphCall.DisplacedForGood calls start net pip :=
    (unrouted.tracked.run net pip routing).2.trans
      (or_iff_left fun both => unrouted.not_strands net pip both.1)
  have held_iff (pip : PipId) (net : Symbol) :
      (GraphCall.run calls start).fabric.netOnPip pip = some net ↔
        (GraphCall.run calls start).Records net pip ∨
          GraphCall.DisplacedForGood calls start net pip := by
    rw [← strands]
    constructor
    · intro held
      by_cases recorded : (GraphCall.run calls start).Records net pip
      · exact .inl recorded
      · exact .inr ⟨held, recorded⟩
    · rintro (⟨wire, -, reaches⟩ | stranded)
      · exact (tracked.reaches_bound reaches).2
      · exact stranded.1
  refine ⟨fun wire net => tracked.netOnWire_iff, held_iff, ?_, ?_⟩
  · intro pip net recorded displaced
    exact ((strands pip net).mpr displaced).2 recorded
  · intro net unwired pip
    rw [held_iff, or_iff_right]
    rintro ⟨wire, -, hop, there, -⟩
    exact unwired wire ⟨hop, there⟩

/-- A device with two pips into one wire. -/
def forkDevice : Device Int :=
  let grid := ((Grid.empty "g").addWire "A" 0).2
  let grid := (grid.addWire "B" 0).2
  let grid := (grid.addWire "C" 0).2
  let grid := (grid.addPip ⟨0⟩ ⟨2⟩ 0).2
  (grid.addPip ⟨1⟩ ⟨2⟩ 0).2.device Int

def unroutedNet : Layout Int := (GraphCall.createNet "n").after (fresh forkDevice)

/-- Reaches a wire by one pip and then by the other, and gives it up. -/
def reachedTwice : List GraphCall :=
  [.bindPip ⟨1⟩ ⟨0⟩ .strong, .bindPip ⟨1⟩ ⟨1⟩ .strong, .unbindWire ⟨1⟩ ⟨2⟩]

theorem unrouted_unroutedNet : unroutedNet.Unrouted := by
  constructor
  · intro key net stored wire
    have nets : unroutedNet.design.nets =
        Table.empty.insert ⟨1⟩ (.undriven ⟨1⟩ ⟨0⟩) := rfl
    rw [nets, Table.get?_insert] at stored
    split at stored
    · cases stored
      rfl
    · cases stored
  · exact fun _ => rfl
  · exact fun _ => rfl

theorem routing_reachedTwice : GraphCall.Routing reachedTwice unroutedNet := by
  refine ⟨trivial, ⟨?_, ?_⟩, trivial, ⟨?_, ?_⟩, trivial, trivial, trivial⟩
  · rintro wire ⟨⟩
    exact .inl rfl
  · exact .inl rfl
  · rintro wire ⟨⟩
    exact .inr rfl
  · exact .inl rfl

/-- The second pip displaces the first for good. -/
theorem Unrouted.routing_characterized_of_reachedTwice :
    unroutedNet.Unrouted ∧ GraphCall.Routing reachedTwice unroutedNet ∧
      GraphCall.DisplacedForGood reachedTwice unroutedNet ⟨1⟩ ⟨0⟩ := by
  have unrouted := unrouted_unroutedNet
  have routing := routing_reachedTwice
  obtain ⟨-, -, -, unwired⟩ := unrouted.routing_characterized routing
  refine ⟨unrouted, routing, (unwired ⟨1⟩ ?_ ⟨0⟩).mp rfl⟩
  rintro wire ⟨hop, ⟨⟩⟩

/-- A net can hold a pip after its last wire has been removed. -/
theorem pip_held_without_wires :
    ∃ (start : Layout Int) (calls : List GraphCall),
      start.Unrouted ∧ GraphCall.Routing calls start ∧
      (GraphCall.run calls start).fabric.netOnPip ⟨0⟩ = some ⟨1⟩ ∧
      (∀ wire, ¬ (GraphCall.run calls start).OnTree ⟨1⟩ wire) ∧
      ¬ (GraphCall.run calls start).Records ⟨1⟩ ⟨0⟩ := by
  refine ⟨unroutedNet, reachedTwice, unrouted_unroutedNet, routing_reachedTwice,
    rfl, ?_, ?_⟩
  · rintro wire ⟨hop, ⟨⟩⟩
  · rintro ⟨wire, -, hop, ⟨⟩, -⟩

end Layout

end FpgaPlacer
