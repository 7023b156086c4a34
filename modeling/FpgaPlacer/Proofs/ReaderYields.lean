import FpgaPlacer.Reader.Basic

/-!
# What readers yield

A property of everything that a reader takes off its input, whatever the input is.
The lemmas follow the combinators from which readers are built.
-/

namespace FpgaPlacer

namespace Reader

variable {α β : Type}

/-- Whatever the reader takes off an input has the property. -/
def Yields (property : α → Prop) (reader : Reader α) : Prop :=
  ∀ input value rest, reader input = some (value, rest) → property value

variable {property : α → Prop} {reader : Reader α}

theorem yields_pure {value : α} (holds : property value) :
    Yields property (pure value : Reader α) := by
  intro input value rest read
  cases read
  exact holds

theorem yields_failure : Yields property (failure : Reader α) := by
  intro input value rest read
  cases read

theorem Yields.bind {final : β → Prop} {next : α → Reader β} (first : Yields property reader)
    (second : ∀ value, property value → Yields final (next value)) :
    Yields final (reader >>= next) := by
  intro input value rest read
  obtain ⟨⟨middle, remaining⟩, readFirst, readNext⟩ := Option.bind_eq_some_iff.mp read
  exact second middle (first _ _ _ readFirst) _ _ _ readNext

theorem yields_bind {final : β → Prop} {next : α → Reader β}
    (second : ∀ value, Yields final (next value)) : Yields final (reader >>= next) := by
  have anything : Yields (fun _ => True) reader := fun _ _ _ _ => trivial
  exact anything.bind (fun value _ => second value)

theorem Yields.maybe (yields : Yields property reader) :
    Yields (fun found => ∀ value, found = some value → property value) (maybe reader) := by
  intro input found rest read value isFound
  unfold Reader.maybe at read
  split at read
  · rename_i readValue
    cases read
    cases isFound
    exact yields _ _ _ readValue
  · cases read
    cases isFound

theorem Yields.manyWithin (yields : Yields property reader) (bound : List Char) :
    Yields (fun values => ∀ value ∈ values, property value) (manyWithin reader bound) := by
  induction bound with
  | nil =>
      intro input values rest read
      cases read
      simp
  | cons _ bound ih =>
      intro input values rest read
      unfold Reader.manyWithin at read
      split at read
      · cases read
        simp
      · rename_i readFirst
        split at read
        · rename_i readOthers
          cases read
          exact List.forall_mem_cons.mpr ⟨yields _ _ _ readFirst, ih _ _ _ readOthers⟩
        · cases read

theorem Yields.many (yields : Yields property reader) :
    Yields (fun values => ∀ value ∈ values, property value) (many reader) :=
  fun input => yields.manyWithin input input

theorem Yields.separated (yields : Yields property reader) (separator : Reader β) :
    Yields (fun values => ∀ value ∈ values, property value) (separated reader separator) :=
  yields.bind (fun _ holds => (yields_bind (fun _ => yields)).many.bind
    (fun _ allHold => yields_pure (List.forall_mem_cons.mpr ⟨holds, allHold⟩)))

theorem yields_either {other : Reader α} (first : Yields property reader)
    (second : Yields property other) : Yields property (either reader other) := by
  intro input value rest read
  unfold either at read
  split at read
  · rename_i readFirst
    exact first _ _ _ (readFirst.trans read)
  · exact second _ _ _ read

theorem yields_firstOf {readers : List (Reader α)}
    (all : ∀ reader ∈ readers, Yields property reader) : Yields property (firstOf readers) := by
  induction readers with
  | nil =>
      intro input value rest read
      cases read
  | cons reader readers induction =>
      obtain ⟨first, others⟩ := List.forall_mem_cons.mp all
      exact yields_either first (induction others)

end Reader

end FpgaPlacer
