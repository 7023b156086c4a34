import FpgaPlacer.Proofs.CellAssignment
import FpgaPlacer.Proofs.ReachableLayouts

/-!
# A failed call changes nothing

Every graph call tests all that it asks for before it writes a record, so a call
that fails leaves no trace in the tables, in the generator and on the fabric.
Names are interned before the tests; a failed call may therefore have added one
name after those known before.
-/

namespace FpgaPlacer

variable {κ : Type}

/-! ## Calls as edits of a layout -/

theorem Edit.map_eq_ok_iff {ε σ α β : Type} {change : α → β} {edit : Edit ε σ α}
    {state reached : σ} {result : β} :
    (change <$> edit) state = .ok result reached ↔
      ∃ value, edit state = .ok value reached ∧ change value = result := by
  change EStateM.map change edit state = _ ↔ _
  unfold EStateM.map
  cases edit state with
  | ok value middle =>
      simp only [EStateM.Result.ok.injEq]
      constructor
      · rintro ⟨rfl, rfl⟩
        exact ⟨value, ⟨rfl, rfl⟩, rfl⟩
      · rintro ⟨_, ⟨rfl, rfl⟩, rfl⟩
        exact ⟨rfl, rfl⟩
  | error stop middle => simp

theorem Edit.map_eq_error_iff {ε σ α β : Type} {change : α → β}
    {edit : Edit ε σ α} {state reached : σ} {stop : Stop ε} :
    (change <$> edit) state = .error stop reached ↔
      edit state = .error stop reached := by
  change EStateM.map change edit state = _ ↔ _
  unfold EStateM.map
  cases edit state <;> simp

theorem Edit.after_map {ε σ α β : Type} (change : α → β) (edit : Edit ε σ α)
    (state : σ) : (change <$> edit).after state = edit.after state := by
  change Edit.after (EStateM.map change edit) state = _
  unfold Edit.after EStateM.map
  cases edit state <;> rfl

namespace Layout

/-- An edit of the design as an edit of the layout. -/
def onDesign {α : Type} (edit : Design.DesignEdit α) : LayoutEdit κ α :=
  fun layout =>
    match edit layout.design with
    | .ok value design => .ok value { layout with design }
    | .error stop design => .error stop { layout with design }

section OnDesign

variable {α : Type} {edit : Design.DesignEdit α} {layout reached : Layout κ}

theorem onDesign_eq_ok_iff {value : α} :
    onDesign edit layout = .ok value reached ↔
      ∃ design, edit layout.design = .ok value design ∧
        reached = { layout with design } := by
  unfold onDesign
  cases edit layout.design with
  | ok answer design =>
      simp only [EStateM.Result.ok.injEq]
      constructor
      · rintro ⟨rfl, rfl⟩
        exact ⟨design, ⟨rfl, rfl⟩, rfl⟩
      · rintro ⟨_, ⟨rfl, rfl⟩, rfl⟩
        exact ⟨rfl, rfl⟩
  | error stop design => simp

theorem onDesign_eq_error_iff {stop : Stop DesignError} :
    onDesign edit layout = .error stop reached ↔
      ∃ design, edit layout.design = .error stop design ∧
        reached = { layout with design } := by
  unfold onDesign
  cases edit layout.design with
  | ok answer design => simp
  | error reason design =>
      simp only [EStateM.Result.error.injEq]
      constructor
      · rintro ⟨rfl, rfl⟩
        exact ⟨design, ⟨rfl, rfl⟩, rfl⟩
      · rintro ⟨_, ⟨rfl, rfl⟩, rfl⟩
        exact ⟨rfl, rfl⟩

theorem after_onDesign (edit : Design.DesignEdit α) (layout : Layout κ) :
    (onDesign edit).after layout = layout.editDesign edit := by
  cases run : edit layout.design with
  | ok value design =>
      rw [editDesign_of_ok run]
      exact Edit.after_of_ok (onDesign_eq_ok_iff.mpr ⟨design, run, rfl⟩)
  | error stop design =>
      rw [editDesign_of_error run]
      exact Edit.after_of_error (onDesign_eq_error_iff.mpr ⟨design, run, rfl⟩)

end OnDesign

end Layout

namespace GraphCall

/-- A call as an edit; the answer is the symbol that the call hands out, if
any. -/
def edit : GraphCall → LayoutEdit κ (Option Symbol)
  | createCell name cellType =>
      some <$> Layout.onDesign (Design.createCell name cellType)
  | createNet name => some <$> Layout.onDesign (Design.createNet name)
  | addPort cell port direction =>
      some <$> Layout.onDesign (Design.addPort cell port direction)
  | connectPort net cell port =>
      (fun _ => none) <$> Layout.onDesign (Design.connectPort net cell port)
  | setBudget net cell port budget =>
      (fun _ => none) <$> Layout.onDesign (Design.setBudget net cell port budget)
  | bindBel cell bel strength =>
      (fun _ => none) <$> Layout.bindBel cell bel strength
  | unbindBel cell => (fun _ => none) <$> Layout.unbindBel cell
  | bindWire net wire strength =>
      (fun _ => none) <$> Layout.bindWire net wire strength
  | bindPip net pip strength =>
      (fun _ => none) <$> Layout.bindPip net pip strength
  | unbindWire net wire => (fun _ => none) <$> Layout.unbindWire net wire

theorem after_edit (call : GraphCall) (layout : Layout κ) :
    call.edit.after layout = call.after layout := by
  cases call with
  | createCell | createNet | addPort | connectPort | setBudget =>
      exact (Edit.after_map ..).trans (Layout.after_onDesign ..)
  | bindBel | unbindBel | bindWire | bindPip | unbindWire =>
      exact Edit.after_map ..

end GraphCall

/-! ## What a refusal leaves -/

namespace Design

variable {design reached : Design} {stop : Stop DesignError}

theorem reached_of_createCell_error {name cellType : String}
    (refused : createCell name cellType design = .error stop reached) :
    reached = (design.intern name).2 := by
  cases taken : design.cells.contains (design.intern name).1 with
  | true =>
      rw [createCell_of_taken cellType taken] at refused
      cases refused
      rfl
  | false =>
      rw [createCell_of_free cellType taken] at refused
      cases refused

theorem reached_of_createNet_error {name : String}
    (refused : createNet name design = .error stop reached) :
    reached = (design.intern name).2 := by
  cases taken : design.nets.contains (design.intern name).1 with
  | true =>
      rw [createNet_of_taken taken] at refused
      cases refused
      rfl
  | false =>
      rw [createNet_of_free taken] at refused
      cases refused

theorem reached_of_addPort_error {cell : Symbol} {port : String}
    {direction : Direction}
    (refused : addPort cell port direction design = .error stop reached) :
    reached = (design.intern port).2 := by
  cases found : design.cells.get? cell with
  | none =>
      rw [addPort_of_absent port direction found] at refused
      cases refused
      rfl
  | some record =>
      rw [addPort_of_found port direction found] at refused
      cases refused

theorem reached_of_connectPort_error {net cell port : Symbol}
    (refused : connectPort net cell port design = .error stop reached) :
    reached = design := by
  rcases connectPort_cases design net cell port with
    ⟨reason, run⟩ | ⟨netRecord, cellRecord, portRecord, ready⟩
  · rw [run] at refused
    cases refused
    rfl
  · rw [connectPort_of_connectable ready] at refused
    cases refused

theorem reached_of_setBudget_error {net cell port : Symbol} {budget : Float}
    (refused : setBudget net cell port budget design = .error stop reached) :
    reached = design := by
  rcases setBudget_cases design net cell port budget with
    ⟨reason, run⟩ | ⟨old, new, known, name, ends, wires, run⟩
  · rw [run] at refused
    cases refused
    rfl
  · rw [run] at refused
    cases refused

/-- A port is connected exactly when its records are ready for it. -/
theorem connectPort_succeeds_iff {net cell port : Symbol} :
    (∃ connected, connectPort net cell port design = .ok () connected) ↔
      ∃ netRecord cellRecord portRecord,
        design.Connectable net cell port netRecord cellRecord portRecord := by
  constructor
  · rintro ⟨connected, run⟩
    rcases connectPort_cases design net cell port with ⟨reason, refused⟩ | ready
    · rw [refused] at run
      cases run
    · exact ready
  · rintro ⟨netRecord, cellRecord, portRecord, ready⟩
    exact ⟨_, connectPort_of_connectable ready⟩

end Design

namespace Layout

variable {layout reached : Layout κ} {stop : Stop DesignError}

theorem reached_of_bindBel_error {cell : Symbol} {bel : BelId}
    {strength : Strength}
    (refused : bindBel cell bel strength layout = .error stop reached) :
    reached = layout := by
  cases found : layout.design.cells.get? cell with
  | none =>
      rw [bindBel_of_absent found] at refused
      cases refused
      rfl
  | some record =>
      rw [bindBel_of_found found] at refused
      cases refused

theorem reached_of_unbindBel_error {cell : Symbol}
    (refused : unbindBel cell layout = .error stop reached) :
    reached = layout := by
  cases found : layout.design.cells.get? cell with
  | none =>
      rw [unbindBel_of_absent found] at refused
      cases refused
      rfl
  | some record =>
      rw [unbindBel_of_found found] at refused
      cases refused

theorem reached_of_bindWire_error {net : Symbol} {wire : WireId}
    {strength : Strength}
    (refused : bindWire net wire strength layout = .error stop reached) :
    reached = layout := by
  cases known : layout.design.nets.get? net with
  | none =>
      simp only [bindWire, known] at refused
      cases refused
      rfl
  | some record =>
      rw [bindWire_of_known known] at refused
      cases refused

theorem reached_of_bindPip_error {net : Symbol} {pip : PipId}
    {strength : Strength}
    (refused : bindPip net pip strength layout = .error stop reached) :
    reached = layout := by
  cases target : layout.fabric.pipTarget pip with
  | error fault =>
      simp only [bindPip, target] at refused
      cases refused
      rfl
  | ok wire =>
      cases known : layout.design.nets.get? net with
      | none =>
          simp only [bindPip, target, known] at refused
          cases refused
          rfl
      | some record =>
          rw [bindPip_of_known known target] at refused
          cases refused

theorem reached_of_unbindWire_error {net : Symbol} {wire : WireId}
    (refused : unbindWire net wire layout = .error stop reached) :
    reached = layout := by
  cases known : layout.design.nets.get? net with
  | none =>
      simp only [unbindWire, known] at refused
      cases refused
      rfl
  | some record =>
      cases routed : record.wires.get? wire with
      | none =>
          simp only [unbindWire, known, routed] at refused
          cases refused
      | some hop =>
          rw [unbindWire_of_routed known routed] at refused
          cases refused

/-- A refused call leaves the layout as it was, or with one name interned. -/
theorem reached_of_edit_error {call : GraphCall}
    (refused : call.edit layout = .error stop reached) :
    reached = layout ∨ ∃ text, reached = (layout.intern text).2 := by
  cases call with
  | createCell name cellType =>
      obtain ⟨design, failed, rfl⟩ :=
        onDesign_eq_error_iff.mp (Edit.map_eq_error_iff.mp refused)
      rw [Design.reached_of_createCell_error failed]
      exact .inr ⟨name, rfl⟩
  | createNet name =>
      obtain ⟨design, failed, rfl⟩ :=
        onDesign_eq_error_iff.mp (Edit.map_eq_error_iff.mp refused)
      rw [Design.reached_of_createNet_error failed]
      exact .inr ⟨name, rfl⟩
  | addPort cell port direction =>
      obtain ⟨design, failed, rfl⟩ :=
        onDesign_eq_error_iff.mp (Edit.map_eq_error_iff.mp refused)
      rw [Design.reached_of_addPort_error failed]
      exact .inr ⟨port, rfl⟩
  | connectPort net cell port =>
      obtain ⟨design, failed, rfl⟩ :=
        onDesign_eq_error_iff.mp (Edit.map_eq_error_iff.mp refused)
      rw [Design.reached_of_connectPort_error failed]
      exact .inl rfl
  | setBudget net cell port budget =>
      obtain ⟨design, failed, rfl⟩ :=
        onDesign_eq_error_iff.mp (Edit.map_eq_error_iff.mp refused)
      rw [Design.reached_of_setBudget_error failed]
      exact .inl rfl
  | bindBel cell bel strength =>
      exact .inl (reached_of_bindBel_error (Edit.map_eq_error_iff.mp refused))
  | unbindBel cell =>
      exact .inl (reached_of_unbindBel_error (Edit.map_eq_error_iff.mp refused))
  | bindWire net wire strength =>
      exact .inl (reached_of_bindWire_error (Edit.map_eq_error_iff.mp refused))
  | bindPip net pip strength =>
      exact .inl (reached_of_bindPip_error (Edit.map_eq_error_iff.mp refused))
  | unbindWire net wire =>
      exact .inl (reached_of_unbindWire_error (Edit.map_eq_error_iff.mp refused))

/-- The layouts are the same but for names added after those known before, which
keep their symbols. -/
structure KeepsAllButNames (before after : Layout κ) : Prop where
  nets : after.design.nets = before.design.nets
  cells : after.design.cells = before.design.cells
  random : after.design.random = before.design.random
  seed : after.design.seed = before.design.seed
  fabric : after.fabric = before.fabric
  names : before.design.names.strings <+: after.design.names.strings
  resolved : ∀ symbol text, before.design.names.resolve? symbol = some text →
    after.design.names.resolve? symbol = some text

theorem keepsAllButNames_refl (layout : Layout κ) :
    layout.KeepsAllButNames layout :=
  ⟨rfl, rfl, rfl, rfl, rfl, List.prefix_rfl, fun _ _ resolved => resolved⟩

theorem keepsAllButNames_intern (layout : Layout κ) (text : String) :
    layout.KeepsAllButNames (layout.intern text).2 where
  nets := rfl
  cells := rfl
  random := rfl
  seed := rfl
  fabric := rfl
  names := layout.design.names.isPrefix_add text
  resolved _ _ :=
    Interner.resolve?_of_isPrefix (layout.design.names.isPrefix_add text)

/-- On any layout, a call that fails for any reason changes nothing but that it may
have added names, and a run of calls goes on from there.  A port is connected
exactly when the net, the cell and the port exist, the port is unconnected and, if
it is an output, the net has no driver. -/
theorem failed_calls_change_nothing (layout : Layout κ) :
    (∀ (call : GraphCall) (stop : Stop DesignError) (reached : Layout κ),
      call.edit layout = .error stop reached →
        layout.KeepsAllButNames reached ∧ call.after layout = reached) ∧
    (∀ net cell port,
      (∃ reached, (GraphCall.connectPort net cell port).edit layout =
        .ok none reached) ↔
      ∃ netRecord cellRecord portRecord,
        layout.design.Connectable net cell port netRecord cellRecord portRecord) := by
  constructor
  · intro call stop reached failed
    refine ⟨?_, (call.after_edit layout).symm.trans (Edit.after_of_error failed)⟩
    rcases reached_of_edit_error failed with rfl | ⟨text, rfl⟩
    · exact keepsAllButNames_refl _
    · exact layout.keepsAllButNames_intern text
  · intro net cell port
    rw [← Design.connectPort_succeeds_iff]
    constructor
    · rintro ⟨reached, run⟩
      obtain ⟨_, edited, -⟩ := Edit.map_eq_ok_iff.mp run
      obtain ⟨design, connected, -⟩ := onDesign_eq_ok_iff.mp edited
      exact ⟨design, connected⟩
    · rintro ⟨design, connected⟩
      refine ⟨{ layout with design }, Edit.map_eq_ok_iff.mpr ⟨(), ?_, rfl⟩⟩
      exact onDesign_eq_ok_iff.mpr ⟨design, connected, rfl⟩

/-- A driven net, and a cell that is placed behind the back of the fabric. -/
def halfKept : Layout Int :=
  let driven := GraphCall.run
    [.createCell "a" "LUT", .addPort ⟨1⟩ "Q" .output, .addPort ⟨1⟩ "D" .input,
      .addPort ⟨1⟩ "P" .output, .createNet "n", .connectPort ⟨6⟩ ⟨1⟩ ⟨3⟩]
    (.fresh tinyDevice)
  { driven with
    design := driven.design.setCell ⟨1⟩
      { Cell.unplaced ⟨1⟩ ⟨2⟩ with
        bel := some ⟨0⟩
        ports := (driven.design.cells.get? ⟨1⟩).elim .empty Cell.ports } }

/-- A port for a foreign symbol adds its name and nothing else, a second driver
adds nothing, and a user is connected. -/
theorem failed_calls_change_nothing_of_halfKept :
    (∃ stop reached,
      (GraphCall.addPort ⟨9⟩ "E" .input).edit halfKept = .error stop reached ∧
        reached.design.names.strings = halfKept.design.names.strings ++ ["E"] ∧
        halfKept.KeepsAllButNames reached) ∧
    (∃ stop reached,
      (GraphCall.connectPort ⟨6⟩ ⟨1⟩ ⟨5⟩).edit halfKept = .error stop reached ∧
        halfKept.KeepsAllButNames reached) ∧
    (∃ reached, (GraphCall.connectPort ⟨6⟩ ⟨1⟩ ⟨4⟩).edit halfKept =
      .ok none reached) := by
  obtain ⟨unharmed, connects⟩ := failed_calls_change_nothing halfKept
  have foreignCell : (GraphCall.addPort ⟨9⟩ "E" .input).edit halfKept =
      .error (.failed (.unknownCell "<symbol 9>")) (halfKept.intern "E").2 := rfl
  have secondDriver : (GraphCall.connectPort ⟨6⟩ ⟨1⟩ ⟨5⟩).edit halfKept =
      .error (.failed (.internal (.netDriven "n"))) halfKept := rfl
  refine ⟨⟨_, _, foreignCell, rfl, (unharmed _ _ _ foreignCell).1⟩,
    ⟨_, _, secondDriver, (unharmed _ _ _ secondDriver).1⟩, ?_⟩
  rw [connects]
  exact ⟨_, _, _, rfl, rfl, rfl, rfl, fun output => nomatch output⟩

end Layout

end FpgaPlacer
