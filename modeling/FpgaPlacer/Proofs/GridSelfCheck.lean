import FpgaPlacer.Proofs.FaultlessGrid

/-!
# What the self-check of a grid decides

The self-check looks every bel up by its name, its type by the name of the type, and
the ends of every pip among the wires.  On a grid the types always pass: a type name is
registered once, and every bel has a registered type.  So the check decides whether the
bels have different names and the pips are at wires of the grid.
-/

namespace FpgaPlacer

variable {κ : Type}

namespace Device

variable {device : Device κ}

theorem checkPipEnd_eq_ok_iff {pip : PipId} {pipEnd : PipEnd} {wire : WireId} :
    device.checkPipEnd pip pipEnd wire = .ok () ↔ wire ∈ device.wires := by
  unfold checkPipEnd
  split <;> simp_all

theorem checkPip_eq_ok_iff {pip : PipId} {source target : WireId}
    (leaves : device.pipSource pip = some source) (reaches : device.pipTarget pip = some target) :
    device.checkPip pip = .ok () ↔ source ∈ device.wires ∧ target ∈ device.wires := by
  simp only [checkPip, leaves, reaches, Query.ofOption, Query.stop]
  exact checked_then_eq_ok_iff.trans
    (and_congr checkPipEnd_eq_ok_iff checkPipEnd_eq_ok_iff)

theorem selfCheck_eq_ok_iff :
    device.selfCheck = .ok () ↔
      (∀ bel ∈ device.bels, device.checkBel bel = .ok ()) ∧
        ∀ pip ∈ device.pips, device.checkPip pip = .ok () := by
  rw [selfCheck, checked_then_eq_ok_iff, checked_forM_eq_ok_iff, checked_forM_eq_ok_iff]

end Device

namespace Grid

variable {grid : Grid}

/-- Each bel and each pip has a handle of its own, as long as 32 bits can number them. -/
structure Numbered (grid : Grid) : Prop where
  bels : grid.bels.size < UInt32.size
  pips : grid.pips.size < UInt32.size

theorem built_uniform (name : String) (width height : Nat) (typeName : String) :
    (uniform name width height typeName).Built :=
  uniform_induction (motive := fun _ grid => grid.Built) (.empty name)
    (fun _ built => built.addBel _ typeName _ _) height

/-! ## The names of types -/

theorem typeNames_nodup_registerType (distinct : grid.typeNames.Nodup) (typeName : String) :
    (grid.registerType typeName).2.typeNames.Nodup := by
  unfold registerType
  split
  · exact distinct
  · rename_i fresh
    refine List.nodup_append.mpr ⟨distinct, List.nodup_singleton _, ?_⟩
    intro known listed last isLast
    exact ne_of_mem_of_not_mem listed (List.mem_singleton.mp isLast ▸ fresh)

theorem Built.typeNames_nodup (built : grid.Built) : grid.typeNames.Nodup := by
  induction built with
  | empty name => exact List.nodup_nil
  | withDelayModel _ _ _ induction => exact induction
  | addBel _ name typeName x y induction => exact typeNames_nodup_registerType induction typeName
  | addWire _ _ _ induction => exact induction
  | addPip _ _ _ _ induction => exact induction
  | addPin _ bel pin wire added induction =>
      rw [Grid.addPin] at added
      split at added
      · cases added
        exact induction
      · cases added

theorem typeNamed_getElem (distinct : grid.typeNames.Nodup) {belType : BelType}
    (registered : belType.toNat < grid.typeNames.length) :
    grid.typeNamed grid.typeNames[belType.toNat] = some belType := by
  have found : grid.typeNames.idxOf? grid.typeNames[belType.toNat] = some belType.toNat := by
    rw [List.idxOf?_eq_some_iff]
    refine ⟨registered, rfl, fun place earlier shared => ?_⟩
    exact absurd ((List.Nodup.getElem_inj_iff distinct).mp shared) (Nat.ne_of_lt earlier)
  rw [typeNamed, found, Option.map_some, Handle.ofNat_toNat]

theorem typeNamesResolve [Scalar κ] (built : grid.Built) {bel : BelId} {belType : BelType}
    (typed : (grid.device κ).belType bel = some belType) :
    ∃ typeName, (grid.device κ).typeName belType = some typeName ∧
      (grid.device κ).typeNamed typeName = some belType := by
  obtain ⟨record, there, rfl⟩ := Option.map_eq_some_iff.mp typed
  have registered := built.registered record (Array.mem_of_getElem? there)
  exact ⟨_, List.getElem?_eq_getElem registered,
    typeNamed_getElem built.typeNames_nodup registered⟩

/-! ## The checks of the resources -/

/-- On a grid the check of a bel asks for its own name only. -/
theorem checkBel_device_eq [Scalar κ] (built : grid.Built) {bel : BelId} {record : GridBel}
    (found : grid.bel? bel = some record) :
    (grid.device κ).checkBel bel =
      if grid.belNamed record.name ≠ some bel then .error (.failed (.belNameAmbiguous record.name))
      else .ok () := by
  have typed : (grid.device κ).belType bel = some record.belType := by simp [device, found]
  have named : (grid.device κ).belName bel = some record.name := by simp [device, found]
  obtain ⟨typeName, known, leadsBack⟩ := typeNamesResolve built typed
  rw [Device.checkBel_eq named typed known, if_neg (not_not.mpr leadsBack)]
  rfl

/-- The bels pass exactly when the names of the enumerated ones look up to them. -/
theorem checkBels_iff_namesResolve [Scalar κ] (built : grid.Built) :
    (∀ bel ∈ (grid.device κ).bels, (grid.device κ).checkBel bel = .ok ()) ↔
      (grid.device κ).NamesResolve := by
  refine forall₂_congr (fun bel listed => ?_)
  obtain ⟨record, found⟩ := HasBel.found (Handle.mem_range_iff.mp listed)
  have named : (grid.device κ).belName bel = some record.name := by simp [device, found]
  rw [checkBel_device_eq built found, named]
  simp [device]

/-- When each bel has its own handle, names look up to their bels only if they are all
different. -/
theorem namesResolve_iff [Scalar κ] (numbered : grid.Numbered) :
    (grid.device κ).NamesResolve ↔ (grid.bels.toList.map GridBel.name).Nodup := by
  refine ⟨fun resolves => ?_, Grid.namesResolve⟩
  have handled : ∀ {index : Nat} (inside : index < grid.bels.size),
      (Handle.ofNat index : BelId).toNat = index ∧
        (grid.device κ).belNamed grid.bels[index].name = some (.ofNat index) := by
    intro index inside
    have own : (Handle.ofNat index : BelId).toNat = index :=
      Handle.toNat_ofNat_of_lt (Nat.lt_trans inside numbered.bels)
    refine ⟨own, resolves _ (Handle.mem_range_iff.mpr (own.symm ▸ inside)) _ ?_⟩
    simp [device, bel?, own, inside]
  refine List.pairwise_iff_getElem.mpr (fun first second inFirst inSecond before same => ?_)
  simp only [List.length_map, Array.length_toList] at inFirst inSecond
  simp only [List.getElem_map, Array.getElem_toList] at same
  obtain ⟨ownFirst, namedFirst⟩ := handled inFirst
  obtain ⟨ownSecond, namedSecond⟩ := handled inSecond
  rw [same, namedSecond, Option.some_inj] at namedFirst
  rw [namedFirst, ownFirst] at ownSecond
  exact Nat.ne_of_lt before ownSecond

theorem checkPip_device_iff [Scalar κ] {pip : PipId} {record : GridPip}
    (found : grid.pip? pip = some record) :
    (grid.device κ).checkPip pip = .ok () ↔
      grid.HasWire record.source ∧ grid.HasWire record.target := by
  obtain ⟨leaves, reaches⟩ := pipEnds_of_found κ found
  rw [Device.checkPip_eq_ok_iff leaves reaches]
  exact and_congr Handle.mem_range_iff Handle.mem_range_iff

/-- When each pip has its own handle, the pips pass exactly when they are all at wires of
the grid. -/
theorem checkPips_iff [Scalar κ] (numbered : grid.Numbered) :
    (∀ pip ∈ (grid.device κ).pips, (grid.device κ).checkPip pip = .ok ()) ↔
      ∀ record ∈ grid.pips, grid.HasWire record.source ∧ grid.HasWire record.target := by
  constructor
  · intro passes record listed
    obtain ⟨index, inside, rfl⟩ := Array.getElem_of_mem listed
    have own : (Handle.ofNat index : PipId).toNat = index :=
      Handle.toNat_ofNat_of_lt (Nat.lt_trans inside numbered.pips)
    have found : grid.pip? (.ofNat index) = some grid.pips[index] := by
      simp [pip?, own, inside]
    exact (checkPip_device_iff found).mp
      (passes _ (Handle.mem_range_iff.mpr (own.symm ▸ inside)))
  · intro closed pip listed
    obtain ⟨record, found⟩ := HasPip.found (Handle.mem_range_iff.mp listed)
    exact (checkPip_device_iff found).mpr (closed record (Array.mem_of_getElem? found))

/-- The rule about bel types is never the one that fails. -/
theorem selfCheck_ne_unmapped [Scalar κ] (built : grid.Built) (typeName name : String) :
    (grid.device κ).selfCheck ≠ .error (.failed (.belTypeUnmapped typeName name)) := by
  intro failed
  rw [Device.selfCheck] at failed
  obtain failed | ⟨-, failed⟩ := checked_then_eq_error_iff.mp failed
  · obtain ⟨bel, listed, failing⟩ := checked_forM_eq_error failed
    obtain ⟨record, found⟩ := HasBel.found (Handle.mem_range_iff.mp listed)
    rw [checkBel_device_eq built found] at failing
    split at failing
    · cases failing
    · cases failing
  · obtain ⟨pip, listed, failing⟩ := checked_forM_eq_error failed
    obtain ⟨record, found⟩ := HasPip.found (Handle.mem_range_iff.mp listed)
    obtain ⟨leaves, reaches⟩ := pipEnds_of_found κ found
    obtain ⟨pipEnd, wire, reason⟩ := Device.checkPip_error leaves reaches failing
    cases reason

/-- Whatever is bound on a grid whose bels and pips 32 bits can number, its self-check
passes exactly when no two of its bels have the same name and both ends of each of its pips
are wires of the grid.  On every grid a type name is registered once, the name of the type
of each bel leads back to the type, and so the rule about types is never the one that
fails. -/
theorem selfCheck_decides_sanity [Scalar κ] (built : grid.Built) (fabric : Fabric κ)
    (on : fabric.device = grid.device κ) :
    (grid.Numbered → (fabric.device.selfCheck = .ok () ↔
        (grid.bels.toList.map GridBel.name).Nodup ∧
          ∀ pip ∈ grid.pips, grid.HasWire pip.source ∧ grid.HasWire pip.target)) ∧
      grid.typeNames.Nodup ∧
      (∀ bel belType, fabric.device.belType bel = some belType →
        ∃ typeName, fabric.device.typeName belType = some typeName ∧
          fabric.device.typeNamed typeName = some belType) ∧
      ∀ typeName name,
        fabric.device.selfCheck ≠ .error (.failed (.belTypeUnmapped typeName name)) := by
  rw [on]
  refine ⟨fun numbered => ?_, built.typeNames_nodup,
    fun bel belType typed => typeNamesResolve built typed, selfCheck_ne_unmapped built⟩
  rw [Device.selfCheck_eq_ok_iff, checkBels_iff_namesResolve built, namesResolve_iff numbered,
    checkPips_iff numbered]

/-- A uniform grid with another type of bel, and a pip between two wires. -/
def linked : Grid :=
  let grid := ((uniform "g" 2 2 "SLICE").addBel "IO0" "IO" 0 5).2
  let grid := ((grid.addWire "A" 1.0).2.addWire "B" 1.0).2
  (grid.addPip ⟨0⟩ ⟨1⟩ 0.5).2

/-- The grid with a second bel of a name. -/
def doubled : Grid := (linked.addBel "IO0" "SLICE" 1 5).2

theorem selfCheck_decides_sanity_of_linked :
    linked.Built ∧ linked.Numbered ∧ (linked.device Float32).selfCheck = .ok () ∧
      doubled.Built ∧ doubled.Numbered ∧ (doubled.device Float32).selfCheck ≠ .ok () := by
  have built : linked.Built :=
    ((((built_uniform "g" 2 2 "SLICE").addBel "IO0" "IO" 0 5).addWire "A" 1.0).addWire
      "B" 1.0).addPip ⟨0⟩ ⟨1⟩ 0.5
  have doubledBuilt : doubled.Built := built.addBel "IO0" "SLICE" 1 5
  have numbered : linked.Numbered := ⟨by decide, by decide⟩
  have doubledNumbered : doubled.Numbered := ⟨by decide, by decide⟩
  have passes := (selfCheck_decides_sanity built ⟨linked.device Float32, .empty⟩ rfl).1 numbered
  have fails := (selfCheck_decides_sanity doubledBuilt
    ⟨doubled.device Float32, .empty⟩ rfl).1 doubledNumbered
  refine ⟨built, numbered, passes.mpr ⟨by decide, ?_⟩, doubledBuilt, doubledNumbered, ?_⟩
  · have inside : ∀ pip ∈ linked.pips,
        pip.source.toNat < linked.wires.size ∧ pip.target.toNat < linked.wires.size := by decide
    exact inside
  · intro accepted
    exact absurd (fails.mp accepted).1 (by decide)

end Grid

end FpgaPlacer
