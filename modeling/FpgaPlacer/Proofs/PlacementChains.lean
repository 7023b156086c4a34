import FpgaPlacer.Proofs.AssignmentRuns

/-!
# Chains of moves

A placer that succeeds has moved cells to bels, one after the other.  What it
asked of a bel before it picked it is a parameter here, so that one description
of a run serves every statement about it: what stays, which cells end up with a
bel, and whatever each move keeps.
-/

namespace FpgaPlacer

variable {κ : Type}

namespace Layout

/-- What a placer asks of a bel before it moves a cell there. -/
abbrev Picks (κ : Type) := Layout κ → Symbol → Cell → BelId → Prop

/-- The cell goes to a bel that is picked for it and has a name. -/
inductive Moves (picks : Picks κ) (cell : Symbol) (before : Layout κ) :
    Layout κ → Prop where
  | intro {record : Cell} {bel : BelId} {text : String}
      (found : before.design.cells.get? cell = some record)
      (picked : picks before cell record bel)
      (named : before.fabric.device.belName bel = some text) :
      Moves picks cell before (before.assigned cell record bel .weak text)

/-- The given cells move in turn, each perhaps many times.  Random numbers may
be drawn in between. -/
inductive Chain (picks : Picks κ) : List Symbol → Layout κ → Layout κ → Prop where
  | nil (layout : Layout κ) : Chain picks [] layout layout
  | draw {cells : List Symbol} {before after : Layout κ} (random : Generator)
      (rest : Chain picks cells (before.withRandom random) after) :
      Chain picks cells before after
  | cons {cell : Symbol} {cells : List Symbol} {before middle after : Layout κ}
      (first : Moves picks cell before middle)
      (rest : Chain picks cells middle after) :
      Chain picks (cell :: cells) before after

section Moves

variable {picks : Picks κ} {cell : Symbol} {before after : Layout κ}

theorem Moves.touches (move : Moves picks cell before after)
    (knows : before.design.KnowsLocation) : Touches [cell] before after := by
  cases move with
  | @intro record bel text found picked named =>
      have names := congrArg Design.names knows.intern_eq
      have stored := fun query =>
        get?_cells_assigned before cell query record bel .weak text
      refine Touches.single ?_ ?_ found ?_ stored
      · rfl
      · exact names
      · rfl

theorem Moves.device (move : Moves picks cell before after) :
    after.fabric.device = before.fabric.device := by
  cases move
  rfl

theorem Moves.others (move : Moves picks cell before after) {other : Symbol}
    (different : other ≠ cell) :
    after.design.cells.get? other = before.design.cells.get? other := by
  cases move with
  | @intro record bel text found picked named =>
      rw [get?_cells_assigned, if_neg different]

theorem Moves.placed (move : Moves picks cell before after) :
    (after.design.belOf (some cell)).isSome = true := by
  cases move with
  | @intro record bel text found picked named =>
      have stored := get?_cells_assigned before cell cell record bel .weak text
      rw [if_pos rfl] at stored
      rw [Design.belOf_of_found stored]
      rfl

theorem Moves.belOf_other (move : Moves picks cell before after) {other : Symbol}
    (different : other ≠ cell) :
    after.design.belOf (some other) = before.design.belOf (some other) :=
  congrArg (fun found => found.bind Cell.bel) (move.others different)

theorem Moves.assigns (move : Moves picks cell before after)
    (knows : before.design.KnowsLocation)
    (suits : ∀ {record bel}, before.design.cells.get? cell = some record →
      picks before cell record bel →
      (before.released cell record).Suits record.cellType bel) :
    Assigns cell before after := by
  cases move with
  | intro found picked named =>
      exact .intro knows found (suits found picked) named

end Moves

namespace Chain

variable {picks : Picks κ} {cells more : List Symbol}
  {before middle after : Layout κ}

theorem append (first : Chain picks cells before middle)
    (second : Chain picks more middle after) :
    Chain picks (cells ++ more) before after := by
  induction first with
  | nil => exact second
  | draw random rest induction => exact .draw random (induction second)
  | cons move rest induction => exact .cons move (induction second)

theorem touches (run : Chain picks cells before after)
    (knows : before.design.KnowsLocation) : Touches cells before after := by
  induction run with
  | nil layout => exact .refl [] layout
  | draw random rest induction =>
      have touches := induction knows
      exact ⟨touches.device, touches.names, touches.types, touches.others⟩
  | cons move rest induction =>
      have first := move.touches knows
      exact first.append (induction (first.knows knows))

/-- Whatever each move and each draw keeps is kept by the chain. -/
theorem keeps {holds : Layout κ → Prop} (run : Chain picks cells before after)
    (draw : ∀ {layout} random, holds layout → holds (layout.withRandom random))
    (move : ∀ {cell one two}, holds one → Moves picks cell one two → holds two)
    (start : holds before) : holds after := by
  induction run with
  | nil => exact start
  | draw random rest induction => exact induction (draw random start)
  | cons first rest induction => exact induction (move start first)

theorem placed_iff (run : Chain picks cells before after) (cell : Symbol) :
    (after.design.belOf (some cell)).isSome = true ↔
      cell ∈ cells ∨ (before.design.belOf (some cell)).isSome = true := by
  induction run with
  | nil layout => simp
  | draw random rest induction => exact induction
  | @cons first cells before middle after move rest induction =>
      rw [induction, List.mem_cons]
      by_cases same : cell = first
      · simp [same, move.placed]
      · simp [same, move.belOf_other same]

theorem assignments (run : Chain picks cells before after) (ready : before.Ready)
    (suits : ∀ {layout : Layout κ} {cell record bel},
      layout.fabric.device.AvailableIsFree → picks layout cell record bel →
      (layout.released cell record).Suits record.cellType bel) :
    Assignments cells before after := by
  induction run with
  | nil layout => exact .nil layout
  | draw random rest induction =>
      exact .draw random (induction (ready.withRandom random))
  | cons move rest induction =>
      have step := move.assigns ready.knows (fun _ picked =>
        suits ready.free picked)
      exact .cons step (induction (ready.touches step.touches))

end Chain

end Layout

end FpgaPlacer
