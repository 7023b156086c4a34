import FpgaPlacer.Error.Edit

/-!
# Runs of checks and edits

A check has no state: it passes exactly when all its steps do.  An edit keeps
the state it has reached when it ends early, so a statement about every ending
is a statement about `Edit.after`.  The bind lemmas take a run apart at its
first step.
-/

namespace FpgaPlacer

/-! ## Checks -/

section Checks

variable {ε α β : Type}

theorem checked_bind_eq_ok_iff {first : Except ε α} {next : α → Except ε β}
    {result : β} :
    (first >>= next) = .ok result ↔
      ∃ value, first = .ok value ∧ next value = .ok result := by
  cases first with
  | ok value => simp [bind, Except.bind]
  | error stop => simp [bind, Except.bind]

theorem checked_then_eq_ok_iff {first : Except ε Unit}
    {next : Unit → Except ε β} {result : β} :
    (first >>= next) = .ok result ↔
      first = .ok () ∧ next () = .ok result := by
  cases first with
  | ok value => simp [bind, Except.bind]
  | error stop => simp [bind, Except.bind]

theorem checked_forM_eq_ok_iff {step : α → Except ε Unit} {items : List α} :
    items.forM step = .ok () ↔ ∀ item ∈ items, step item = .ok () := by
  induction items with
  | nil => simp [pure, Except.pure]
  | cons item items induction =>
      have split : (item :: items).forM step =
          (step item >>= fun _ => items.forM step) := rfl
      rw [split, checked_then_eq_ok_iff, induction]
      simp

theorem checked_then_eq_error_iff {first : Except ε Unit}
    {next : Unit → Except ε β} {stop : ε} :
    (first >>= next) = .error stop ↔
      first = .error stop ∨ first = .ok () ∧ next () = .error stop := by
  cases first with
  | ok value => simp [bind, Except.bind]
  | error reason => simp [bind, Except.bind]

theorem checked_bind_eq_error_iff {first : Except ε α} {next : α → Except ε β}
    {stop : ε} :
    (first >>= next) = .error stop ↔
      first = .error stop ∨ ∃ value, first = .ok value ∧ next value = .error stop := by
  cases first with
  | ok value => simp [bind, Except.bind]
  | error reason => simp [bind, Except.bind]

theorem checked_forM_eq_error {step : α → Except ε Unit} {items : List α}
    {stop : ε} (failed : items.forM step = .error stop) :
    ∃ item ∈ items, step item = .error stop := by
  induction items with
  | nil => cases failed
  | cons item items induction =>
      have split : (item :: items).forM step =
          (step item >>= fun _ => items.forM step) := rfl
      rw [split, checked_then_eq_error_iff] at failed
      rcases failed with here | ⟨_, later⟩
      · exact ⟨item, List.mem_cons_self, here⟩
      · obtain ⟨other, member, failing⟩ := induction later
        exact ⟨other, List.mem_cons_of_mem item member, failing⟩

theorem Query.stop_eq_ok_iff {query : Query α} {value : α} :
    (query.stop : Except (Stop ε) α) = .ok value ↔ query = .ok value := by
  cases query with
  | ok answer => simp [Query.stop]
  | error fault => simp [Query.stop]

/-- A question can only fault. -/
theorem Query.stop_ne_failed (query : Query α) (error : ε) :
    (query.stop : Except (Stop ε) α) ≠ .error (.failed error) := by
  cases query with
  | ok answer => simp [Query.stop]
  | error fault => simp [Query.stop]

theorem Query.ofOption_eq_ok_iff {fault : Fault} {found : Option α} {value : α} :
    Query.ofOption fault found = .ok value ↔ found = some value := by
  cases found with
  | none => simp [Query.ofOption]
  | some answer => simp [Query.ofOption]

theorem Query.stop_ofOption_eq_error_iff {fault : Fault} {found : Option α}
    {stop : Stop ε} :
    (Query.ofOption fault found).stop = .error stop ↔
      found = none ∧ stop = .fault fault := by
  cases found with
  | none => simp [Query.ofOption, Query.stop, eq_comm]
  | some answer => simp [Query.ofOption, Query.stop]

theorem checked_toOption_eq_some_iff {checked : Except ε α} {value : α} :
    checked.toOption = some value ↔ checked = .ok value := by
  cases checked with
  | ok answer => simp [Except.toOption]
  | error stop => simp [Except.toOption]

end Checks

/-! ## Edits -/

namespace Edit

variable {ε σ α β : Type}

/-- The state in which an edit ends, early or not. -/
def after (edit : Edit ε σ α) (state : σ) : σ :=
  match edit state with
  | .ok _ reached => reached
  | .error _ reached => reached

/-- How an edit ends: with an answer, or early. -/
def outcome (edit : Edit ε σ α) (state : σ) : Except (Stop ε) α :=
  match edit state with
  | .ok value _ => .ok value
  | .error stop _ => .error stop

theorem after_of_ok {edit : Edit ε σ α} {state reached : σ} {value : α}
    (run : edit state = .ok value reached) : edit.after state = reached := by
  simp [after, run]

theorem after_of_error {edit : Edit ε σ α} {state reached : σ} {stop : Stop ε}
    (run : edit state = .error stop reached) : edit.after state = reached := by
  simp [after, run]

theorem outcome_of_ok {edit : Edit ε σ α} {state reached : σ} {value : α}
    (run : edit state = .ok value reached) : edit.outcome state = .ok value := by
  simp [outcome, run]

theorem outcome_of_error {edit : Edit ε σ α} {state reached : σ}
    {stop : Stop ε} (run : edit state = .error stop reached) :
    edit.outcome state = .error stop := by
  simp [outcome, run]

theorem outcome_eq_ok {edit : Edit ε σ α} {state : σ} {value : α}
    (ended : edit.outcome state = .ok value) :
    edit state = .ok value (edit.after state) := by
  cases run : edit state with
  | ok answer reached =>
      rw [outcome_of_ok run] at ended
      cases ended
      rw [after_of_ok run]
  | error stop reached =>
      rw [outcome_of_error run] at ended
      cases ended

theorem outcome_eq_error {edit : Edit ε σ α} {state : σ} {stop : Stop ε}
    (ended : edit.outcome state = .error stop) :
    edit state = .error stop (edit.after state) := by
  cases run : edit state with
  | ok answer reached =>
      rw [outcome_of_ok run] at ended
      cases ended
  | error reason reached =>
      rw [outcome_of_error run] at ended
      cases ended
      rw [after_of_error run]

theorem run_of_isOk {edit : Edit ε σ α} {state : σ}
    (success : (edit.outcome state).isOk = true) :
    ∃ value, edit state = .ok value (edit.after state) := by
  cases run : edit state with
  | ok value reached =>
      rw [after_of_ok run]
      exact ⟨value, rfl⟩
  | error stop reached =>
      rw [outcome, run] at success
      cases success

theorem bind_of_ok {first : Edit ε σ α} {next : α → Edit ε σ β}
    {state middle : σ} {value : α} (run : first state = .ok value middle) :
    (first >>= next) state = next value middle := by
  simp [bind, EStateM.bind, run]

theorem bind_of_error {first : Edit ε σ α} {next : α → Edit ε σ β}
    {state reached : σ} {stop : Stop ε}
    (run : first state = .error stop reached) :
    (first >>= next) state = .error stop reached := by
  simp [bind, EStateM.bind, run]

theorem bind_get (next : σ → Edit ε σ β) (state : σ) :
    ((get : Edit ε σ σ) >>= next) state = next state state := rfl

theorem after_bind_get (next : σ → Edit ε σ β) (state : σ) :
    ((get : Edit ε σ σ) >>= next).after state = (next state).after state := rfl

theorem bind_modifyGet (change : σ → α × σ) (next : α → Edit ε σ β)
    (state : σ) :
    ((modifyGet change : Edit ε σ α) >>= next) state =
      next (change state).1 (change state).2 := rfl

theorem modify_run (change : σ → σ) (state : σ) :
    (modify change : Edit ε σ PUnit) state = .ok () (change state) := rfl

theorem bind_eq_ok_iff {first : Edit ε σ α} {next : α → Edit ε σ β}
    {state reached : σ} {result : β} :
    (first >>= next) state = .ok result reached ↔
      ∃ value middle, first state = .ok value middle ∧
        next value middle = .ok result reached := by
  cases run : first state with
  | ok value middle =>
      rw [bind_of_ok run]
      constructor
      · intro rest
        exact ⟨value, middle, rfl, rest⟩
      · rintro ⟨_, _, same, rest⟩
        cases same
        exact rest
  | error stop middle =>
      rw [bind_of_error run]
      simp

/-- A transitive relation that both steps respect relates the two ends of a run,
however the run ends. -/
theorem after_bind {first : Edit ε σ α} {next : α → Edit ε σ β}
    (related : σ → σ → Prop) {state : σ}
    (trans : ∀ {one two three}, related one two → related two three →
      related one three)
    (start : related state (first.after state))
    (rest : ∀ value middle, first state = .ok value middle →
      related middle ((next value).after middle)) :
    related state ((first >>= next).after state) := by
  cases run : first state with
  | ok value middle =>
      rw [after_of_ok run] at start
      have whole : (first >>= next).after state = (next value).after middle := by
        simp only [after, bind_of_ok run]
      rw [whole]
      exact trans start (rest value middle run)
  | error stop middle =>
      rw [after_of_error run] at start
      rw [after_of_error (bind_of_error run)]
      exact start

theorem reading_of_ok {step : σ → Except (Stop ε) α} {state : σ} {value : α}
    (read : step state = .ok value) : reading step state = .ok value state := by
  simp [reading, read]

theorem reading_of_error {step : σ → Except (Stop ε) α} {state : σ}
    {stop : Stop ε} (read : step state = .error stop) :
    reading step state = .error stop state := by
  simp [reading, read]

theorem reading_eq_ok_iff {step : σ → Except (Stop ε) α} {state reached : σ}
    {value : α} :
    reading step state = .ok value reached ↔ step state = .ok value ∧ reached = state := by
  cases read : step state <;> simp [reading, read, eq_comm]

theorem after_reading (step : σ → Except (Stop ε) α) (state : σ) :
    (reading step).after state = state := by
  cases read : step state <;> simp [after, reading, read]

theorem bind_reading (step : σ → Except (Stop ε) α) (next : α → Edit ε σ β)
    (state : σ) :
    (reading step >>= next) state =
      match step state with
      | .ok value => next value state
      | .error stop => .error stop state := by
  cases read : step state with
  | ok value => exact bind_of_ok (reading_of_ok read)
  | error stop => exact bind_of_error (reading_of_error read)

end Edit

end FpgaPlacer
