import Mathlib.Data.List.Perm.Subperm
import FpgaPlacer.Layout.RouteDelay
import FpgaPlacer.Proofs.ReachableLayouts

/-!
# Delays along routing trees

The delay of a connection is found by a walk of a bounded number of hops.  The
chain of hops that it is meant to follow is described here without a bound:
`Leads` holds of a wire and the hops from it to the source, however many there
are.  Each wire of such a chain has an entry of its own in the routing tree, so
the bound is no restriction: where there is a chain, its delays are summed, and
where there is none, nothing of the walk is left in the answer.
-/

namespace FpgaPlacer.Layout

variable {κ : Type}

/-- The recorded hops lead from a wire to the source.  They are listed with the
wires that they leave behind, from the wire at first to the last before the
source. -/
inductive Leads (fabric : Fabric κ) (wires : Table .wire Hop) (source : WireId) :
    WireId → List (WireId × PipId) → Prop where
  | arrived : Leads fabric wires source source []
  | onward {wire next : WireId} {hop : Hop} {pip : PipId}
      {hops : List (WireId × PipId)} (elsewhere : wire ≠ source)
      (recorded : wires.get? wire = some hop) (reached : hop.pip = some pip)
      (driven : fabric.pipSource pip = .ok next)
      (rest : Leads fabric wires source next hops) :
      Leads fabric wires source wire ((wire, pip) :: hops)

/-- The delays of a chain: for each hop that of its pip, then that of the wire
left behind. -/
def chainDelays (fabric : Fabric κ) : List (WireId × PipId) → Query (List Delay)
  | [] => .ok []
  | (wire, pip) :: hops => do
      let pipDelay ← fabric.pipDelay pip
      let wireDelay ← fabric.wireDelay wire
      let others ← chainDelays fabric hops
      return pipDelay :: wireDelay :: others

/-- The delay of a routed connection: the slow corner of the sum over its chain
and, at last, the source. -/
def routedDelay (fabric : Fabric κ) (source : WireId)
    (hops : List (WireId × PipId)) : Query Float := do
  let delays ← chainDelays fabric hops
  let last ← fabric.wireDelay source
  return (Delay.sum (delays ++ [last])).max

/-- On the way from a wire there is a hop with a pip or a wire that the device does
not know. -/
inductive Unmapped (fabric : Fabric κ) (wires : Table .wire Hop) (source : WireId)
    (fault : Fault) : WireId → Prop where
  | here {wire : WireId} {hop : Hop} {pip : PipId} (elsewhere : wire ≠ source)
      (recorded : wires.get? wire = some hop) (reached : hop.pip = some pip)
      (unknown : fabric.pipDelay pip = .error fault ∨
        fabric.wireDelay wire = .error fault ∨ fabric.pipSource pip = .error fault) :
      Unmapped fabric wires source fault wire
  | onward {wire next : WireId} {hop : Hop} {pip : PipId} (elsewhere : wire ≠ source)
      (recorded : wires.get? wire = some hop) (reached : hop.pip = some pip)
      (driven : fabric.pipSource pip = .ok next)
      (rest : Unmapped fabric wires source fault next) :
      Unmapped fabric wires source fault wire

variable {fabric : Fabric κ} {wires : Table .wire Hop} {source wire : WireId}
  {hops : List (WireId × PipId)}

/-! ## Chains are short -/

namespace Leads

theorem unique {others : List (WireId × PipId)}
    (leads : Leads fabric wires source wire hops)
    (leadsToo : Leads fabric wires source wire others) : hops = others := by
  induction leads generalizing others with
  | arrived =>
      cases leadsToo with
      | arrived => rfl
      | onward elsewhere => exact absurd rfl elsewhere
  | onward elsewhere recorded reached driven rest induction =>
      cases leadsToo with
      | arrived => exact absurd rfl elsewhere
      | onward _ recordedToo reachedToo drivenToo restToo =>
          cases recorded.symm.trans recordedToo
          cases reached.symm.trans reachedToo
          cases driven.symm.trans drivenToo
          rw [induction restToo]

/-- The chain from a wire on the way is no longer than the whole. -/
theorem later (leads : Leads fabric wires source wire hops) {middle : WireId}
    (passed : middle ∈ hops.map Prod.fst) :
    ∃ rest, Leads fabric wires source middle rest ∧ rest.length ≤ hops.length := by
  induction leads with
  | arrived => cases passed
  | @onward wire next hop pip hops elsewhere recorded reached driven rest induction =>
      rcases List.mem_cons.mp passed with rfl | further
      · exact ⟨_, .onward elsewhere recorded reached driven rest, Nat.le_refl _⟩
      · obtain ⟨suffix, onward, short⟩ := induction further
        exact ⟨suffix, onward, Nat.le_succ_of_le short⟩

/-- No wire is left behind twice: the two chains from it would be of different
lengths. -/
theorem nodup (leads : Leads fabric wires source wire hops) :
    (hops.map Prod.fst).Nodup := by
  induction leads with
  | arrived => exact .nil
  | onward elsewhere recorded reached driven rest induction =>
      refine List.nodup_cons.mpr ⟨?_, induction⟩
      intro again
      obtain ⟨suffix, onward, short⟩ := rest.later again
      have whole := Leads.onward elsewhere recorded reached driven rest
      rw [← whole.unique onward, List.length_cons] at short
      exact Nat.not_succ_le_self _ short

theorem recorded_keys (leads : Leads fabric wires source wire hops) :
    hops.map Prod.fst ⊆ wires.keys := by
  induction leads with
  | arrived => exact List.nil_subset _
  | onward elsewhere recorded reached driven rest induction =>
      exact List.cons_subset.mpr ⟨Table.mem_keys_iff.mpr ⟨_, recorded⟩, induction⟩

/-- A chain has at most one hop per entry of the routing tree. -/
theorem length_le (leads : Leads fabric wires source wire hops) :
    hops.length ≤ wires.size := by
  have short := (List.subperm_of_subset leads.nodup leads.recorded_keys).length_le
  simpa [Table.keys, Table.size] using short

end Leads

/-! ## What the walk answers -/

section Walk

variable {budget : Nat} {total : Delay}

theorem walk_at_source (budget : Nat) (total : Delay) :
    walk fabric wires source budget total source = .ok (some total) := by
  unfold walk
  rw [if_pos rfl]

theorem walk_spent (elsewhere : wire ≠ source) :
    walk fabric wires source 0 total wire = .ok none := by
  unfold walk
  rw [if_neg elsewhere]

theorem walk_rootless (elsewhere : wire ≠ source)
    (rootless : (wires.get? wire).bind Hop.pip = none) :
    walk fabric wires source budget total wire = .ok none := by
  unfold walk
  rw [if_neg elsewhere, rootless]
  cases budget <;> rfl

theorem walk_hop {pip : PipId} (elsewhere : wire ≠ source)
    (reached : (wires.get? wire).bind Hop.pip = some pip) :
    walk fabric wires source (budget + 1) total wire = (do
      let pipDelay ← fabric.pipDelay pip
      let wireDelay ← fabric.wireDelay wire
      let next ← fabric.pipSource pip
      walk fabric wires source budget (total + pipDelay + wireDelay) next) := by
  rw [walk, if_neg elsewhere]
  simp only [reached]

end Walk

/-- A budget that is as long as the chain suffices, and the walk meets the same
faults as the sum. -/
theorem walk_of_leads (leads : Leads fabric wires source wire hops) {budget : Nat}
    (enough : hops.length ≤ budget) (total : Delay) :
    walk fabric wires source budget total wire =
      (chainDelays fabric hops).map
        (fun delays => some (delays.foldl (· + ·) total)) := by
  induction leads generalizing budget total with
  | arrived => exact walk_at_source budget total
  | @onward wire next hop pip hops elsewhere recorded reached driven rest induction =>
      cases budget with
      | zero => cases enough
      | succ budget =>
          have further := induction (Nat.le_of_succ_le_succ enough)
          have joined : (wires.get? wire).bind Hop.pip = some pip := by
            rw [recorded, Option.bind_some, reached]
          rw [walk_hop elsewhere joined, driven, chainDelays]
          cases fabric.pipDelay pip with
          | error fault => rfl
          | ok pipDelay =>
              cases fabric.wireDelay wire with
              | error fault => rfl
              | ok wireDelay =>
                  refine (further (total + pipDelay + wireDelay)).trans ?_
                  cases chainDelays fabric hops with
                  | error fault => rfl
                  | ok delays => rfl

/-- Without a chain the walk ends nowhere, whatever its budget, unless it comes to a
hop that the device does not know. -/
theorem walk_of_astray (astray : ∀ hops, ¬ Leads fabric wires source wire hops)
    (budget : Nat) (total : Delay) :
    walk fabric wires source budget total wire = .ok none ∨
      ∃ fault, Unmapped fabric wires source fault wire ∧
        walk fabric wires source budget total wire = .error fault := by
  have elsewhere : wire ≠ source := fun same => astray [] (same ▸ .arrived)
  induction budget generalizing wire total with
  | zero => exact .inl (walk_spent elsewhere)
  | succ budget induction =>
      cases joined : (wires.get? wire).bind Hop.pip with
      | none => exact .inl (walk_rootless elsewhere joined)
      | some pip =>
          obtain ⟨hop, recorded, reached⟩ := Option.bind_eq_some_iff.mp joined
          have unmapped {fault : Fault} (unknown : fabric.pipDelay pip = .error fault ∨
              fabric.wireDelay wire = .error fault ∨
              fabric.pipSource pip = .error fault) :
              Unmapped fabric wires source fault wire :=
            .here elsewhere recorded reached unknown
          rw [walk_hop elsewhere joined]
          cases slow : fabric.pipDelay pip with
          | error fault => exact .inr ⟨fault, unmapped (.inl slow), rfl⟩
          | ok pipDelay =>
              cases left : fabric.wireDelay wire with
              | error fault => exact .inr ⟨fault, unmapped (.inr (.inl left)), rfl⟩
              | ok wireDelay =>
                  cases driven : fabric.pipSource pip with
                  | error fault => exact .inr ⟨fault, unmapped (.inr (.inr driven)), rfl⟩
                  | ok next =>
                      have lost (hops) : ¬ Leads fabric wires source next hops :=
                        fun rest => astray _
                          (.onward elsewhere recorded reached driven rest)
                      have notThere : next ≠ source :=
                        fun same => lost [] (same ▸ .arrived)
                      refine (induction lost (total + pipDelay + wireDelay)
                        notThere).imp_right ?_
                      rintro ⟨fault, later, faulted⟩
                      exact ⟨fault, .onward elsewhere recorded reached driven later,
                        faulted⟩

/-! ## The delay of a connection -/

section RouteDelay

variable {layout : Layout κ} {net : Net} {user : NetEnd}

theorem routeDelay_of_undriven (undriven : layout.sourceWire net = .ok none) :
    layout.routeDelay net user = .ok 0.0 := by
  rw [routeDelay, undriven]
  rfl

theorem routeDelay_of_leads {sink : WireId}
    (driven : layout.sourceWire net = .ok (some source))
    (read : layout.sinkWire user = .ok (some sink))
    (leads : Leads layout.fabric net.wires source sink hops) :
    layout.routeDelay net user = routedDelay layout.fabric source hops := by
  have walked := walk_of_leads leads leads.length_le .zero
  simp only [routeDelay, driven, read, routedDelay, Delay.sum]
  change (walk layout.fabric net.wires source net.wires.size .zero sink >>= _) = _
  rw [walked]
  cases chainDelays layout.fabric hops with
  | error fault => rfl
  | ok delays =>
      change (layout.fabric.wireDelay source >>= _) = (layout.fabric.wireDelay source >>= _)
      simp [List.foldl_append]

theorem routeDelay_of_astray {read : Option WireId}
    (driven : layout.sourceWire net = .ok (some source))
    (sink : layout.sinkWire user = .ok read)
    (astray : ∀ wire hops, read = some wire →
      ¬ Leads layout.fabric net.wires source wire hops) :
    layout.routeDelay net user =
        layout.fabric.device.predictDelay (layout.design.belOf net.driver.cell)
          (layout.design.belOf user.cell) ∨
      ∃ wire fault, read = some wire ∧
        Unmapped layout.fabric net.wires source fault wire ∧
        layout.routeDelay net user = .error fault := by
  simp only [routeDelay, driven, sink]
  cases read with
  | none => exact .inl rfl
  | some wire =>
      rcases walk_of_astray (fun hops => astray wire hops rfl) net.wires.size .zero
        with lost | ⟨fault, unmapped, faulted⟩
      · left
        change (walk _ _ _ _ _ _ >>= _) = _
        rw [lost]
        rfl
      · right
        refine ⟨wire, fault, rfl, unmapped, ?_⟩
        change (walk _ _ _ _ _ _ >>= _) = _
        rw [faulted]
        rfl

end RouteDelay

/-- The delay of a connection is zero without a source, the sum over the chain from
its sink to its source where there is one, and the estimate of the device in every
other case.  A chain fits into the budget of the walk.  Only a routing tree with
hops unknown to the device can make the walk fault. -/
theorem routeDelay_decided (layout : Layout κ) (net : Net) (user : NetEnd) :
    (layout.sourceWire net = .ok none → layout.routeDelay net user = .ok 0.0) ∧
      ∀ source, layout.sourceWire net = .ok (some source) →
        (∀ sink hops, layout.sinkWire user = .ok (some sink) →
          Leads layout.fabric net.wires source sink hops →
          layout.routeDelay net user = routedDelay layout.fabric source hops ∧
            hops.length ≤ net.wires.size) ∧
        ∀ read, layout.sinkWire user = .ok read →
          (∀ sink hops, read = some sink →
            ¬ Leads layout.fabric net.wires source sink hops) →
          layout.routeDelay net user =
              layout.fabric.device.predictDelay (layout.design.belOf net.driver.cell)
                (layout.design.belOf user.cell) ∨
            ∃ sink fault, read = some sink ∧
              Unmapped layout.fabric net.wires source fault sink ∧
              layout.routeDelay net user = .error fault := by
  refine ⟨routeDelay_of_undriven, ?_⟩
  intro source driven
  constructor
  · intro sink hops read leads
    exact ⟨routeDelay_of_leads driven read leads, leads.length_le⟩
  · intro read sink astray
    exact routeDelay_of_astray driven sink astray

/-- Two pips from the first wire to the third, and one from the fourth to
itself. -/
def loopGrid : Grid :=
  { Grid.empty "g" with
    typeNames := ["LUT"]
    bels := #[⟨"B0", ⟨0⟩, 0, 0, [("Q", ⟨0⟩)]⟩, ⟨"B1", ⟨0⟩, 3, 4, [("D", ⟨2⟩)]⟩,
      ⟨"B2", ⟨0⟩, 5, 5, [("D", ⟨3⟩)]⟩]
    wires := #[⟨"S", .uniform 5.0⟩, ⟨"A", .uniform 1.0⟩, ⟨"B", .uniform 1.0⟩,
      ⟨"C", .uniform 1.0⟩]
    pips := #[⟨⟨0⟩, ⟨1⟩, .uniform 2.0⟩, ⟨⟨1⟩, ⟨2⟩, .uniform 3.0⟩,
      ⟨⟨3⟩, ⟨3⟩, .uniform 1.0⟩]
    unitDelay := 0.5 }

/-- A driver and two cells that read from it. -/
def loopPlaced : Layout Int :=
  GraphCall.run
    [.createCell "drv" "LUT", .createCell "snk" "LUT", .createCell "stray" "LUT",
      .addPort ⟨1⟩ "Q" .output, .addPort ⟨3⟩ "D" .input, .addPort ⟨4⟩ "D" .input,
      .bindBel ⟨1⟩ ⟨0⟩ .weak, .bindBel ⟨3⟩ ⟨1⟩ .weak, .bindBel ⟨4⟩ ⟨2⟩ .weak]
    (.fresh (loopGrid.device Int))

/-- A net with two users, one routed to the driver and one in a loop. -/
def loopNet : Net where
  name := ⟨7⟩
  driver := .ofPort ⟨1⟩ ⟨5⟩
  users := [.ofPort ⟨3⟩ ⟨6⟩, .ofPort ⟨4⟩ ⟨6⟩]
  attrs := .empty
  wires := .ofList [(⟨0⟩, ⟨none, .weak⟩), (⟨1⟩, ⟨some ⟨0⟩, .weak⟩),
    (⟨2⟩, ⟨some ⟨1⟩, .weak⟩), (⟨3⟩, ⟨some ⟨2⟩, .weak⟩)]

/-- The chain of the first user uses up two hops of the budget; the second user
would go round forever. -/
theorem routeDelay_decided_of_loopNet :
    Leads loopPlaced.fabric loopNet.wires ⟨0⟩ ⟨2⟩ [(⟨2⟩, ⟨1⟩), (⟨1⟩, ⟨0⟩)] ∧
      loopPlaced.routeDelay loopNet (.ofPort ⟨3⟩ ⟨6⟩) = .ok 12.0 ∧
      (∀ hops, ¬ Leads loopPlaced.fabric loopNet.wires ⟨0⟩ ⟨3⟩ hops) ∧
      loopPlaced.routeDelay loopNet (.ofPort ⟨4⟩ ⟨6⟩) = .ok 5.0 := by
  have driven : loopPlaced.sourceWire loopNet = .ok (some ⟨0⟩) := rfl
  have leads : Leads loopPlaced.fabric loopNet.wires ⟨0⟩ ⟨2⟩
      [(⟨2⟩, ⟨1⟩), (⟨1⟩, ⟨0⟩)] :=
    .onward (by decide) rfl rfl rfl (.onward (by decide) rfl rfl rfl .arrived)
  have entry : loopNet.wires.get? ⟨3⟩ = some ⟨some ⟨2⟩, .weak⟩ := rfl
  have source : loopPlaced.fabric.pipSource ⟨2⟩ = .ok ⟨3⟩ := rfl
  have astray : ∀ hops, ¬ Leads loopPlaced.fabric loopNet.wires ⟨0⟩ ⟨3⟩ hops := by
    intro hops round
    cases round with
    | onward elsewhere recorded reached driven rest =>
        have whole := Leads.onward elsewhere recorded reached driven rest
        cases recorded.symm.trans entry
        cases reached
        cases driven.symm.trans source
        have shorter := congrArg List.length (rest.unique whole)
        exact absurd shorter (Nat.ne_of_lt (Nat.lt_succ_self _))
  have mapped : ∀ fault,
      ¬ Unmapped loopPlaced.fabric loopNet.wires ⟨0⟩ fault ⟨3⟩ := by
    intro fault unmapped
    generalize third : (⟨3⟩ : WireId) = wire at unmapped
    induction unmapped with
    | here elsewhere recorded reached unknown =>
        subst third
        cases recorded.symm.trans entry
        cases reached
        rcases unknown with slow | left | driven
        · cases slow
        · cases left
        · cases driven
    | onward elsewhere recorded reached driven rest induction =>
        subst third
        cases recorded.symm.trans entry
        cases reached
        cases driven.symm.trans source
        exact induction rfl
  refine ⟨leads, ?_, astray, ?_⟩
  · obtain ⟨-, decided⟩ := routeDelay_decided loopPlaced loopNet (.ofPort ⟨3⟩ ⟨6⟩)
    obtain ⟨routed, -⟩ := decided ⟨0⟩ driven
    exact (routed ⟨2⟩ _ rfl leads).1
  · obtain ⟨-, decided⟩ := routeDelay_decided loopPlaced loopNet (.ofPort ⟨4⟩ ⟨6⟩)
    obtain ⟨-, estimated⟩ := decided ⟨0⟩ driven
    obtain same | ⟨sink, fault, read, unmapped, -⟩ := estimated (some ⟨3⟩) rfl
      (fun sink hops read => Option.some.inj read ▸ astray hops)
    · exact same
    · cases read
      exact absurd unmapped (mapped fault)

end FpgaPlacer.Layout
