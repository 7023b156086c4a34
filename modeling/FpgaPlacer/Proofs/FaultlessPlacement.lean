import FpgaPlacer.Proofs.GreedyCapacity

/-!
# Placement uses known handles only

A device that describes what it lists gives a placer no handle that it does not
know itself.  So as long as the placed cells are on such bels, a placer that
does not succeed ends with an error; it never comes to a fault.
-/

namespace FpgaPlacer

variable {κ : Type}

/-- What the device lists and what it describes belong together: a bel found by name
is enumerated, an enumerated bel has a type, and a bel that has a type has a name, a
position and a name of its type. -/
structure Device.Complete (device : Device κ) : Prop extends device.Described where
  listed : ∀ {text bel}, device.belNamed text = some bel → bel ∈ device.bels
  typed : ∀ {bel}, bel ∈ device.bels → ∃ belType, device.belType bel = some belType
  typeName : ∀ {bel belType}, device.belType bel = some belType →
    ∃ text, device.typeName belType = some text

namespace Edit

variable {ε σ α β : Type} {good fair : σ → Prop}

/-- A run that ends with an answer in a good state, or with an error, but with no
fault. -/
inductive EndsWell (good : σ → Prop) : EStateM.Result (Stop ε) σ α → Prop where
  | answer {value : α} {reached : σ} (kept : good reached) :
      EndsWell good (.ok value reached)
  | error (error : ε) (reached : σ) : EndsWell good (.error (.failed error) reached)

theorem EndsWell.bind {first : Edit ε σ α} {next : α → Edit ε σ β} {state : σ}
    (start : EndsWell fair (first state))
    (rest : ∀ value middle, first state = .ok value middle → fair middle →
      EndsWell good (next value middle)) :
    EndsWell good ((first >>= next) state) := by
  cases run : first state with
  | ok value middle =>
      rw [run] at start
      rw [bind_of_ok run]
      cases start with
      | answer kept => exact rest value middle run kept
  | error stop reached =>
      rw [run] at start
      rw [bind_of_error run]
      cases start with
      | error error => exact .error error reached

/-- A run that ends well without an answer ends with an error. -/
theorem EndsWell.outcome {edit : Edit ε σ α} {state : σ}
    (ended : EndsWell good (edit state))
    (unanswered : ∀ value reached, edit state ≠ .ok value reached) :
    ∃ error, edit.outcome state = .error (.failed error) := by
  cases run : edit state with
  | ok value reached => exact absurd run (unanswered value reached)
  | error stop reached =>
      rw [run] at ended
      cases ended with
      | error error => exact ⟨error, outcome_of_error run⟩

end Edit

open Edit Layout

namespace Constraints

variable {layout : Layout κ}

theorem target_ends (complete : layout.fabric.device.Complete) (cellName : String)
    (record : Cell) (location : String) :
    (∃ bel, target layout cellName record location = .ok bel) ∨
      ∃ error, target layout cellName record location = .error (.failed error) := by
  cases named : layout.fabric.device.belNamed location with
  | none =>
      right
      simp only [target, named]
      exact ⟨_, rfl⟩
  | some bel =>
      obtain ⟨belType, fits⟩ := complete.typed (complete.listed named)
      obtain ⟨text, known⟩ := complete.typeName fits
      by_cases same : (layout.typeFor record.cellType).toOption = some belType
      · left
        refine ⟨bel, ?_⟩
        simp [target, named, Fabric.belType, fits, Query.ofOption, Query.stop, same,
          bind, Except.bind, pure, Except.pure]
      · right
        simp only [target, named, Fabric.belType, fits, Query.ofOption, Query.stop,
          Fabric.typeName, known, bind, Except.bind, if_neg same]
        exact ⟨_, rfl⟩

theorem endsWell_placeCell (complete : layout.fabric.device.Complete)
    (key cell : Symbol) :
    EndsWell (fun reached => reached.fabric.device = layout.fabric.device)
      (placeCell key cell layout) := by
  rw [placeCell, Edit.bind_get]
  cases found : layout.design.cells.get? cell with
  | none => exact .error _ layout
  | some record =>
      dsimp only
      cases located : record.attrs.get? key with
      | none => exact .answer rfl
      | some location =>
          dsimp only
          rw [Edit.bind_reading]
          obtain ⟨bel, aimed⟩ | ⟨error, refused⟩ :=
            target_ends complete (layout.design.display cell) record location
          · rw [aimed]
            dsimp only
            split
            · exact .answer rfl
            · cases vacant : layout.fabric.cellAt bel with
              | some occupant => exact .error _ layout
              | none =>
                  have bare : (layout.released cell record).design.cells.get? cell =
                      some { record with bel := none, strength := .unbound } := by
                    rw [get?_cells_released, if_pos rfl]
                  dsimp only
                  rw [Edit.bind_of_ok (unbindBel_of_found found),
                    Edit.bind_of_ok (bindBel_of_found bare bel .user)]
                  exact .answer rfl
          · rw [refused]
            exact .error error layout

theorem endsWell_placeCells (complete : layout.fabric.device.Complete)
    (key : Symbol) (cells : List Symbol) :
    EndsWell (fun reached => reached.fabric.device = layout.fabric.device)
      (placeCells key cells layout) := by
  induction cells generalizing layout with
  | nil => exact .answer rfl
  | cons cell rest induction =>
      apply (endsWell_placeCell complete key cell).bind
      intro placed middle _ device
      rw [← device] at complete ⊢
      apply (induction complete).bind
      intro others reached _ kept
      exact .answer kept

theorem endsWell_place (complete : layout.fabric.device.Complete) :
    EndsWell (fun reached => reached.fabric.device = layout.fabric.device)
      (place layout) := by
  rw [place, Edit.bind_modifyGet, Edit.bind_get]
  have interned : (layout.intern locationAttribute).2.fabric.device.Complete :=
    complete
  exact endsWell_placeCells interned _ _

end Constraints

/-- The layout is on the device, which knows where its placed cells are. -/
def Layout.LocatedOn (device : Device κ) (layout : Layout κ) : Prop :=
  layout.fabric.device = device ∧ layout.Located

theorem Layout.LocatedOn.assigned {device : Device κ} {layout : Layout κ}
    (on : layout.LocatedOn device) (complete : device.Complete) {bel : BelId}
    {belType : BelType} (fits : device.belType bel = some belType) (cell : Symbol)
    (record : Cell) (text : String) :
    (layout.assigned cell record bel .weak text).LocatedOn device := by
  obtain ⟨rfl, located⟩ := on
  exact ⟨rfl, located.assigned complete.toDescribed fits cell record .weak text⟩

variable {device : Device κ} {layout : Layout κ}

/-! ## First fit -/

namespace FirstFit

theorem endsWell_bindAndAnnotate (complete : device.Complete)
    (on : layout.LocatedOn device) {bel : BelId} {belType : BelType}
    (fits : device.belType bel = some belType) (cell : Symbol) :
    EndsWell (LocatedOn device) (bindAndAnnotate cell bel .weak layout) := by
  have ways := bindAndAnnotate_run cell bel .weak layout
  generalize bindAndAnnotate cell bel .weak layout = result at ways
  cases ways with
  | unknown absent => exact .error _ layout
  | unnamed found nameless =>
      obtain ⟨text, named⟩ := complete.name fits
      rw [on.1, named] at nameless
      cases nameless
  | assigned found named => exact .answer (on.assigned complete fits cell _ _)

theorem endsWell_placeCells (complete : device.Complete) (rule : LegalityRule κ)
    (typeName : String) (belType : BelType) (cells : List Symbol)
    (bels : List BelId) (on : layout.LocatedOn device) :
    EndsWell (LocatedOn device)
      (placeCells rule typeName belType cells bels layout) := by
  induction cells generalizing bels layout with
  | nil => exact .answer on
  | cons cell rest induction =>
      rw [placeCells, Edit.bind_get]
      cases next : nextFit (admits rule layout belType cell) bels with
      | none => exact .error _ layout
      | some choice =>
          have accepted := nextFit_eq_some next
          simp only [admits, Bool.and_eq_true, decide_eq_true_eq, on.1] at accepted
          apply (endsWell_bindAndAnnotate complete on accepted.1.1 cell).bind
          intro _ middle _ still
          exact induction choice.2 still

theorem endsWell_placeBuckets (complete : device.Complete) (rule : LegalityRule κ)
    (bels : List BelId) (groups : List Bucket) (on : layout.LocatedOn device) :
    EndsWell (LocatedOn device) (placeBuckets rule bels groups layout) := by
  induction groups generalizing layout with
  | nil => exact .answer on
  | cons bucket rest induction =>
      rw [placeBuckets]
      apply (endsWell_placeCells complete rule bucket.typeName bucket.belType
        bucket.cells bels on).bind
      intro _ middle _ still
      exact induction still

/-- Only the constraint pass has to leave the cells on bels that are known. -/
theorem endsWell_place (complete : layout.fabric.device.Complete)
    (rule : LegalityRule κ)
    (fixed : ∀ {located middle}, Constraints.place layout = .ok located middle →
      middle.Located) :
    EndsWell (LocatedOn layout.fabric.device) (place rule layout) := by
  apply (Constraints.endsWell_place complete).bind
  intro located middle pass onDevice
  rw [Edit.bind_get]
  cases buckets middle with
  | error error => exact .error error middle
  | ok groups => exact endsWell_placeBuckets complete rule _ _ ⟨onDevice, fixed pass⟩

end FirstFit

/-! ## Greedy placement -/

namespace Greedy

variable [Scalar κ]

theorem choose_ends (described : layout.fabric.device.Described)
    (rule : LegalityRule κ) (options : PlaceOptions) (cell : Symbol) {record : Cell}
    (priceable : Priceable options.fanoutLimit layout record) :
    (∃ bel, choose rule options cell record layout = .ok bel) ∨
      ∃ error, choose rule options cell record layout = .error (.failed error) := by
  cases typed : layout.typeFor record.cellType with
  | error error =>
      right
      simp only [choose, typed]
      exact ⟨error, rfl⟩
  | ok belType =>
      have positions : ∀ bel ∈ candidates rule layout belType cell,
          ∃ place, layout.fabric.device.position bel = some place := by
        intro bel member
        obtain ⟨-, fits, -⟩ := mem_candidates_iff.mp member
        exact described.position fits
      obtain ⟨priced, costs⟩ := withCosts_ok priceable positions
      simp only [choose, typed, costs]
      cases chosen : cheapest options.tieBreak priced with
      | some bel =>
          left
          refine ⟨bel, ?_⟩
          simp [Query.stop, bind, Except.bind, chosen, pure, Except.pure]
      | none =>
          right
          simp only [Query.stop, bind, Except.bind, chosen]
          exact ⟨_, rfl⟩

theorem endsWell_placeCell (complete : device.Complete) (rule : LegalityRule κ)
    (options : PlaceOptions) (cell : Symbol) (on : layout.LocatedOn device) :
    EndsWell (LocatedOn device) (placeCell rule options cell layout) := by
  have ways := placeCell_run rule options cell layout
  generalize placeCell rule options cell layout = result at ways
  obtain ⟨rfl, located⟩ := on
  have typed {record : Cell} {bel : BelId}
      (chosen : choose rule options cell record (layout.released cell record) =
        .ok bel) : ∃ belType, layout.fabric.device.belType bel = some belType := by
    obtain ⟨belType, -, candidate⟩ := candidate_of_choose chosen
    exact ⟨belType, (mem_candidates_iff.mp candidate).2.1⟩
  cases ways with
  | unknown absent => exact .error _ layout
  | @refused record stop found failed =>
      have described : (layout.released cell record).fabric.device.Described :=
        complete.toDescribed
      have priceable := priceable_of_located (located.released cell record)
        options.fanoutLimit record
      obtain ⟨bel, chosen⟩ | ⟨error, refused⟩ :=
        choose_ends described rule options cell priceable
      · cases failed.symm.trans chosen
      · cases failed.symm.trans refused
        exact .error error _
  | unnamed found chosen nameless =>
      obtain ⟨belType, fits⟩ := typed chosen
      obtain ⟨text, named⟩ := complete.name fits
      rw [named] at nameless
      cases nameless
  | assigned found chosen named =>
      obtain ⟨belType, fits⟩ := typed chosen
      have on : layout.LocatedOn layout.fabric.device := ⟨rfl, located⟩
      exact .answer (on.assigned complete fits cell _ _)

theorem endsWell_placeUnplaced (complete : device.Complete) (rule : LegalityRule κ)
    (options : PlaceOptions) (cells : List Symbol) (on : layout.LocatedOn device) :
    EndsWell (LocatedOn device) (placeUnplaced rule options cells layout) := by
  induction cells generalizing layout with
  | nil => exact .answer on
  | cons cell rest induction =>
      rw [placeUnplaced, Edit.bind_get]
      split
      · exact induction on
      · apply (endsWell_placeCell complete rule options cell on).bind
        intro moved middle _ still
        apply (induction still).bind
        intro others reached _ kept
        exact .answer kept

theorem endsWell_replaceAll (complete : device.Complete) (rule : LegalityRule κ)
    (options : PlaceOptions) (cells : List Symbol) (on : layout.LocatedOn device) :
    EndsWell (LocatedOn device) (replaceAll rule options cells layout) := by
  induction cells generalizing layout with
  | nil => exact .answer on
  | cons cell rest induction =>
      rw [replaceAll]
      apply (endsWell_placeCell complete rule options cell on).bind
      intro moved middle _ still
      apply (induction still).bind
      intro others reached _ kept
      exact .answer kept

theorem endsWell_improve (complete : device.Complete) (rule : LegalityRule κ)
    (options : PlaceOptions) (passes : Nat) (cells : List Symbol)
    (on : layout.LocatedOn device) :
    EndsWell (LocatedOn device) (improve rule options passes cells layout) := by
  induction passes generalizing cells layout with
  | zero => exact .answer on
  | succ passes induction =>
      obtain ⟨order, random, drawn, -⟩ := shuffled_ok cells layout
      rw [improve, Edit.bind_of_ok drawn]
      have reordered : (layout.withRandom random).LocatedOn device :=
        ⟨on.1, ⟨on.2.position⟩⟩
      apply (endsWell_replaceAll complete rule options order reordered).bind
      intro moved middle _ still
      split
      · exact .answer still
      · exact induction order still

theorem endsWell_place (complete : layout.fabric.device.Complete)
    (rule : LegalityRule κ) (options : PlaceOptions)
    (fixed : ∀ {located middle}, Constraints.place layout = .ok located middle →
      middle.Located) :
    EndsWell (LocatedOn layout.fabric.device) (place rule options layout) := by
  apply (Constraints.endsWell_place complete).bind
  intro located middle pass onDevice
  rw [Edit.bind_get]
  apply (endsWell_placeUnplaced complete rule options _ ⟨onDevice, fixed pass⟩).bind
  intro placed start _ still
  exact endsWell_improve complete rule options _ placed still

end Greedy

end FpgaPlacer
