import FpgaPlacer.Proofs.NamedEntries
import FpgaPlacer.Proofs.ReaderYields
import FpgaPlacer.Toml.Document

/-!
# What TOML documents hold

A key is never defined twice, at whatever depth and by whichever statements, and an
integer fits into 64 bits with sign.  The tables under construction have this property
after every statement, so every document that is read has it.
-/

namespace FpgaPlacer.Toml

open Reader

/-- Entries under distinct keys, each with a value that has the property. -/
structure Tidy {α : Type} (property : α → Prop) (entries : List (String × α)) : Prop where
  distinct : (entries.map Prod.fst).Nodup
  inner : ∀ entry ∈ entries, property entry.2

/-- A value whose integers fit into 64 bits with sign and whose tables have distinct
keys. -/
inductive Value.Proper : Value → Prop where
  | string (text : String) : Proper (.string text)
  | integer {value : Int} (least : Int64.minValue.toInt ≤ value)
      (greatest : value ≤ Int64.maxValue.toInt) : Proper (.integer value)
  | float (value : Float) : Proper (.float value)
  | boolean (value : Bool) : Proper (.boolean value)
  | moment (text : String) : Proper (.moment text)
  | array {items : List Value} (proper : ∀ item ∈ items, Proper item) : Proper (.array items)
  | table {entries : List (String × Value)} (distinct : (entries.map Prod.fst).Nodup)
      (inner : ∀ entry ∈ entries, Proper entry.2) : Proper (.table entries)

def Document.Proper (document : Document) : Prop := Tidy Value.Proper document

/-- A node with proper values in tables with distinct keys. -/
inductive Node.Proper : Node → Prop where
  | value {inner : Value} (proper : inner.Proper) : Proper (.value inner)
  | table {passedThrough dotted : Bool} {entries : Nodes}
      (distinct : (entries.map Prod.fst).Nodup) (inner : ∀ entry ∈ entries, Proper entry.2) :
      Proper (.table passedThrough dotted entries)
  | tables {items : List Nodes} (distinct : ∀ entries ∈ items, (entries.map Prod.fst).Nodup)
      (inner : ∀ entries ∈ items, ∀ entry ∈ entries, Proper entry.2) : Proper (.tables items)

theorem Node.Proper.of_tidy {passedThrough dotted : Bool} {entries : Nodes}
    (tidy : Tidy Proper entries) : Proper (.table passedThrough dotted entries) :=
  .table tidy.distinct tidy.inner

theorem Node.Proper.of_allTidy {items : List Nodes}
    (tidy : ∀ entries ∈ items, Tidy Proper entries) : Proper (.tables items) :=
  .tables (fun entries listed => (tidy entries listed).distinct)
    (fun entries listed => (tidy entries listed).inner)

theorem Node.Proper.tidy {passedThrough dotted : Bool} {entries : Nodes}
    (proper : Proper (.table passedThrough dotted entries)) : Tidy Proper entries := by
  cases proper with
  | table distinct inner => exact ⟨distinct, inner⟩

theorem Node.Proper.allTidy {items : List Nodes} (proper : Proper (.tables items)) :
    ∀ entries ∈ items, Tidy Proper entries := by
  cases proper with
  | tables distinct inner =>
      exact fun entries listed => ⟨distinct entries listed, inner entries listed⟩

/-! ## Tables under construction -/

namespace Tidy

variable {α : Type} {property : α → Prop} {entries : List (String × α)} {key : String}

theorem nil : Tidy property [] := ⟨List.nodup_nil, by simp⟩

theorem lookup {value : α} (tidy : Tidy property entries)
    (found : entries.lookup key = some value) : property value :=
  tidy.inner _ (NamedEntries.mem_of_lookup found)

theorem concat {value : α} (tidy : Tidy property entries) (fresh : entries.lookup key = none)
    (proper : property value) : Tidy property (entries ++ [(key, value)]) := by
  have absent := NamedEntries.lookup_eq_none_iff.mp fresh
  refine ⟨?_, ?_⟩
  · rw [List.map_append]
    refine List.nodup_append.mpr ⟨tidy.distinct, by simp, fun other listed last isLast same => ?_⟩
    rw [List.map_singleton, List.mem_singleton] at isLast
    rw [same, isLast] at listed
    exact absent listed
  · exact List.forall_mem_append.mpr ⟨tidy.inner, List.forall_mem_singleton.mpr proper⟩

end Tidy

namespace Nodes

variable {entries : Nodes} {key : String} {node : Node}

theorem mem_keys_store {other : String}
    (listed : other ∈ (entries.store key node).map Prod.fst) :
    other = key ∨ other ∈ entries.map Prod.fst := by
  induction entries with
  | nil => simpa [store] using listed
  | cons first rest induction =>
      obtain ⟨firstKey, old⟩ := first
      unfold store at listed
      split at listed
      · simp only [List.map_cons, List.mem_cons] at listed ⊢
        exact listed.imp_right .inr
      · simp only [List.map_cons, List.mem_cons] at listed ⊢
        rcases listed with isFirst | later
        · exact .inr (.inl isFirst)
        · exact (induction later).imp_right .inr

theorem tidy_store (tidy : Tidy Node.Proper entries) (proper : node.Proper) :
    Tidy Node.Proper (entries.store key node) := by
  induction entries with
  | nil => exact ⟨by simp [store], by simpa [store] using proper⟩
  | cons first rest induction =>
      obtain ⟨firstKey, old⟩ := first
      obtain ⟨fresh, restDistinct⟩ := List.nodup_cons.mp tidy.distinct
      obtain ⟨firstProper, restProper⟩ := List.forall_mem_cons.mp tidy.inner
      unfold store
      split
      · rename_i same
        exact ⟨List.nodup_cons.mpr ⟨same ▸ fresh, restDistinct⟩,
          List.forall_mem_cons.mpr ⟨proper, restProper⟩⟩
      · rename_i different
        have stored := induction ⟨restDistinct, restProper⟩
        refine ⟨List.nodup_cons.mpr ⟨fun again => ?_, stored.distinct⟩,
          List.forall_mem_cons.mpr ⟨firstProper, stored.inner⟩⟩
        exact (mem_keys_store again).elim different fresh

theorem tidy_remove (tidy : Tidy Node.Proper entries) : Tidy Node.Proper (entries.remove key) :=
  ⟨tidy.distinct.sublist (List.filter_sublist.map Prod.fst),
    fun entry listed => tidy.inner entry (List.mem_filter.mp listed).1⟩

/-- Tables stay tidy when the table at the end of a path does. -/
theorem tidy_descend {byDots : Bool} {change : Bool → Nodes → Option Nodes}
    (keeps : ∀ dotted entries changed, Tidy Node.Proper entries →
      change dotted entries = some changed → Tidy Node.Proper changed)
    {path : List String} {dotted : Bool} {result : Nodes} (tidy : Tidy Node.Proper entries)
    (descended : descend byDots change path dotted entries = some result) :
    Tidy Node.Proper result := by
  induction path generalizing entries dotted result with
  | nil => exact keeps dotted entries result tidy descended
  | cons step path induction =>
      unfold descend at descended
      split at descended
      · obtain ⟨made, inside, same⟩ := Option.bind_eq_some_iff.mp descended
        cases same
        exact tidy_store tidy (.of_tidy (induction .nil inside))
      · cases descended
      · rename_i found
        split at descended
        · cases descended
        · obtain ⟨inner, inside, same⟩ := Option.bind_eq_some_iff.mp descended
          cases same
          exact tidy_store tidy (.of_tidy (induction (tidy.lookup found).tidy inside))
      · rename_i items found
        obtain ⟨last, isLast, rest⟩ := Option.bind_eq_some_iff.mp descended
        obtain ⟨changed, inside, same⟩ := Option.bind_eq_some_iff.mp rest
        cases same
        have itemsTidy := (tidy.lookup found).allTidy
        have changedTidy := induction (itemsTidy last (List.mem_of_getLast? isLast)) inside
        refine tidy_store tidy (.of_allTidy (List.forall_mem_append.mpr ⟨?_, ?_⟩))
        · exact fun entries before =>
            itemsTidy entries ((List.dropLast_sublist items).mem before)
        · exact List.forall_mem_singleton.mpr changedTidy

theorem tidy_define {path : List String} {value : Value} {result : Nodes}
    (tidy : Tidy Node.Proper entries) (proper : value.Proper)
    (defined : entries.define path key value = some result) : Tidy Node.Proper result := by
  refine tidy_descend (fun dotted inner changed innerTidy change => ?_) tidy defined
  split at change
  · cases change
  · split at change
    · cases change
    · rename_i fresh
      cases change
      exact innerTidy.concat (Option.not_isSome_iff_eq_none.mp fresh) (.value proper)

end Nodes

theorem Node.map_fst_finishedEntries (entries : Nodes) :
    (Node.finishedEntries entries).map Prod.fst = entries.map Prod.fst := by
  induction entries with
  | nil => rfl
  | cons first rest induction => exact congrArg (first.1 :: ·) induction

mutual

theorem Node.proper_finished : ∀ {node : Node}, node.Proper → node.finished.Proper
  | .value _, .value proper => proper
  | .table _ _ entries, .table distinct inner =>
      .table ((Node.map_fst_finishedEntries entries).symm ▸ distinct)
        (Node.proper_finishedEntries inner)
  | .tables _, .tables distinct inner =>
      .array (Node.proper_finishedTables distinct inner)

theorem Node.proper_finishedEntries : ∀ {entries : Nodes},
    (∀ entry ∈ entries, entry.2.Proper) → ∀ entry ∈ Node.finishedEntries entries, entry.2.Proper
  | [], _ => by simp [Node.finishedEntries]
  | (_, _) :: _, proper =>
      have parts := List.forall_mem_cons.mp proper
      List.forall_mem_cons.mpr ⟨Node.proper_finished parts.1, Node.proper_finishedEntries parts.2⟩

theorem Node.proper_finishedTables : ∀ {items : List Nodes},
    (∀ entries ∈ items, (entries.map Prod.fst).Nodup) →
      (∀ entries ∈ items, ∀ entry ∈ entries, entry.2.Proper) →
        ∀ item ∈ Node.finishedTables items, item.Proper
  | [], _, _ => by simp [Node.finishedTables]
  | first :: _, distinct, inner =>
      have keys := List.forall_mem_cons.mp distinct
      have parts := List.forall_mem_cons.mp inner
      List.forall_mem_cons.mpr
        ⟨.table ((Node.map_fst_finishedEntries first).symm ▸ keys.1)
            (Node.proper_finishedEntries parts.1),
          Node.proper_finishedTables keys.2 parts.2⟩

end

theorem Node.tidy_finishedEntries {entries : Nodes} (tidy : Tidy Node.Proper entries) :
    Tidy Value.Proper (Node.finishedEntries entries) :=
  ⟨(Node.map_fst_finishedEntries entries).symm ▸ tidy.distinct,
    Node.proper_finishedEntries tidy.inner⟩

/-! ## Values -/

theorem yields_inRange (value : Int) : Yields Value.Proper (inRange value) := by
  unfold inRange
  split
  · rename_i within
    exact yields_pure (.integer within.1 within.2)
  · exact yields_failure

theorem yields_integer : Yields Value.Proper integer := by
  refine yields_firstOf (fun reader listed => ?_)
  simp only [List.mem_cons, List.not_mem_nil, or_false] at listed
  rcases listed with rfl | rfl | rfl | rfl <;>
    exact yields_bind (fun _ => yields_bind (fun _ => yields_inRange _))

theorem yields_simpleValue : Yields Value.Proper simpleValue := by
  refine yields_firstOf (fun reader listed => ?_)
  simp only [List.mem_cons, List.not_mem_nil, or_false] at listed
  rcases listed with rfl | rfl | rfl | rfl | rfl | rfl | rfl
  · exact yields_bind (fun _ => yields_pure (.string _))
  · exact yields_bind (fun _ => yields_pure (.boolean _))
  · exact yields_bind (fun _ => yields_pure (.boolean _))
  · exact yields_bind (fun _ => yields_pure (.moment _))
  · refine yields_bind (fun _ => yields_bind (fun _ => yields_bind (fun _ => ?_)))
    dsimp only
    split
    · exact yields_pure (.float _)
    · split
      · exact yields_failure
      · exact yields_pure (.float _)
  · exact yields_bind (fun _ => yields_bind (fun _ => yields_pure (.float _)))
  · exact yields_integer

variable {item : Reader Value}

theorem yields_arrayOf (proper : Yields Value.Proper item) :
    Yields Value.Proper (arrayOf item) := by
  have element : Yields (fun found : Value × Bool => found.1.Proper) (do
      filler
      let value ← item
      filler
      return (value, (← maybe (char ',')).isSome)) :=
    yields_bind (fun _ => proper.bind (fun _ isProper =>
      yields_bind (fun _ => yields_bind (fun _ => yields_pure isProper))))
  refine yields_bind (fun _ => element.many.bind (fun items allProper => ?_))
  refine yields_bind (fun _ => yields_bind (fun _ => ?_))
  split
  · refine yields_pure (.array fun value listed => ?_)
    obtain ⟨found, isFound, same⟩ := List.mem_map.mp listed
    exact same ▸ allProper found isFound
  · exact yields_failure

theorem yields_entryOf (proper : Yields Value.Proper item) :
    Yields (fun entry => entry.2.Proper) (entryOf item) :=
  yields_bind (fun _ => yields_bind (fun _ => yields_bind (fun _ =>
    proper.bind (fun _ isProper => yields_pure isProper))))

theorem tidy_defineAll {definitions : List (List String × Value)} {entries result : Nodes}
    (proper : ∀ definition ∈ definitions, definition.2.Proper)
    (tidy : Tidy Node.Proper entries)
    (defined : defineAll definitions entries = some result) : Tidy Node.Proper result := by
  induction definitions generalizing entries with
  | nil =>
      cases defined
      exact tidy
  | cons definition rest induction =>
      obtain ⟨firstProper, restProper⟩ := List.forall_mem_cons.mp proper
      obtain ⟨last, -, afterKey⟩ := Option.bind_eq_some_iff.mp defined
      obtain ⟨changed, define, defineRest⟩ := Option.bind_eq_some_iff.mp afterKey
      exact induction restProper (Nodes.tidy_define tidy firstProper define) defineRest

theorem yields_inlineTableOf (proper : Yields Value.Proper item) :
    Yields Value.Proper (inlineTableOf item) := by
  have entry : Yields (fun entry : List String × Value => entry.2.Proper) (do
      let entry ← entryOf item
      blanks
      return entry) :=
    (yields_entryOf proper).bind (fun _ isProper => yields_bind (fun _ => yields_pure isProper))
  refine yields_bind (fun _ => yields_bind (fun _ =>
    (entry.separated (char ',')).maybe.bind (fun found allProper => yields_bind (fun _ => ?_))))
  split
  · rename_i entries defined
    have proper : ∀ definition ∈ found.getD [], definition.2.Proper := by
      cases found with
      | none => simp
      | some definitions => exact allProper definitions rfl
    have tidy := Node.tidy_finishedEntries (tidy_defineAll proper .nil defined)
    exact yields_pure (.table tidy.distinct tidy.inner)
  · exact yields_failure

theorem yields_valueWithin (depth : Nat) : Yields Value.Proper (valueWithin depth) := by
  induction depth with
  | zero => exact yields_simpleValue
  | succ depth induction =>
      refine yields_firstOf (fun reader listed => ?_)
      simp only [List.mem_cons, List.not_mem_nil, or_false] at listed
      rcases listed with rfl | rfl | rfl
      · exact yields_arrayOf induction
      · exact yields_inlineTableOf induction
      · exact yields_simpleValue

/-! ## Statements -/

/-- A statement that defines nothing but a proper value. -/
def Statement.Proper : Statement → Prop
  | .define _ value => value.Proper
  | _ => True

theorem yields_statement : Yields Statement.Proper statement := by
  intro input found rest read
  unfold statement at read
  split at read
  · refine yields_bind (fun _ => yields_bind (fun path => yields_bind (fun _ => ?_))) _ _ _ read
    exact yields_pure (show Statement.Proper (.appendTable path) from trivial)
  · refine yields_bind (fun _ => yields_bind (fun path => yields_bind (fun _ => ?_))) _ _ _ read
    exact yields_pure (show Statement.Proper (.openTable path) from trivial)
  · refine (yields_entryOf (yields_valueWithin _)).bind (fun entry isProper => ?_) _ _ _ read
    exact yields_pure (show Statement.Proper (.define entry.1 entry.2) from isProper)

theorem yields_line :
    Yields (fun found : Option Statement => ∀ one, found = some one → one.Proper) line :=
  yields_bind (fun _ => yields_statement.maybe.bind (fun _ isProper =>
    yields_bind (fun _ => yields_pure isProper)))

theorem proper_of_linesWithin {count : Nat} {input rest : List Char}
    {statements : List Statement} (read : linesWithin count input = some (statements, rest)) :
    ∀ statement ∈ statements, statement.Proper := by
  induction count generalizing input statements with
  | zero =>
      cases input with
      | nil =>
          cases read
          simp
      | cons _ _ => cases read
  | succ count induction =>
      cases input with
      | nil =>
          cases read
          simp
      | cons first others =>
          obtain ⟨⟨found, afterLine⟩, readLine, readRest⟩ := Option.bind_eq_some_iff.mp read
          obtain ⟨⟨later, afterRest⟩, readLater, same⟩ := Option.bind_eq_some_iff.mp readRest
          cases same
          intro statement listed
          cases List.mem_append.mp listed with
          | inl isFound =>
              exact yields_line _ _ _ readLine statement (Option.mem_toList.mp isFound)
          | inr isLater => exact induction readLater statement isLater

/-! ## Documents -/

namespace Draft

structure Proper (draft : Draft) : Prop where
  closed : Tidy Node.Proper draft.closed
  current : Tidy Node.Proper draft.current

variable {draft next : Draft}

/-- The open table is put in its place as a new table or as the last of some tables. -/
theorem Proper.close {closed : Nodes} (proper : draft.Proper)
    (closes : draft.close = some closed) : Tidy Node.Proper closed := by
  unfold Draft.close at closes
  split at closes
  · cases closes
    exact proper.current
  · refine Nodes.tidy_descend (fun _ entries changed tidy change => ?_) proper.closed closes
    split at change
    · rename_i found
      cases change
      exact Nodes.tidy_store tidy (.of_allTidy (List.forall_mem_append.mpr
        ⟨(tidy.lookup found).allTidy, List.forall_mem_singleton.mpr proper.current⟩))
    · cases change
      exact Nodes.tidy_store tidy (.of_allTidy (List.forall_mem_singleton.mpr proper.current))
    · cases change
      exact Nodes.tidy_store tidy (.of_tidy proper.current)
    · cases change
      exact Nodes.tidy_store tidy (.of_tidy proper.current)
    · cases change

theorem tidy_openable {key : String} {entries found : Nodes} (tidy : Tidy Node.Proper entries)
    (opens : openable key entries = some found) : Tidy Node.Proper found := by
  unfold openable at opens
  split at opens
  · cases opens
    exact .nil
  · rename_i present
    cases opens
    exact (tidy.lookup present).tidy
  · cases opens

theorem tidy_present {key : String} {path : List String} {entries found : Nodes}
    (tidy : Tidy Node.Proper entries) (isPresent : present key path entries = some found) :
    Tidy Node.Proper found := by
  induction path generalizing entries with
  | nil => exact tidy_openable tidy isPresent
  | cons step path induction =>
      unfold present at isPresent
      split at isPresent
      · cases isPresent
        exact .nil
      · cases isPresent
      · rename_i here
        exact induction (tidy.lookup here).tidy isPresent
      · rename_i here
        obtain ⟨last, isLast, inside⟩ := Option.bind_eq_some_iff.mp isPresent
        exact induction ((tidy.lookup here).allTidy last (List.mem_of_getLast? isLast)) inside

theorem Proper.openTable {path : List String} (proper : draft.Proper)
    (opens : draft.openTable path = some next) : next.Proper := by
  obtain ⟨key, -, afterKey⟩ := Option.bind_eq_some_iff.mp opens
  obtain ⟨closed, closes, afterClosing⟩ := Option.bind_eq_some_iff.mp afterKey
  obtain ⟨current, isPresent, afterCurrent⟩ := Option.bind_eq_some_iff.mp afterClosing
  obtain ⟨removed, removes, same⟩ := Option.bind_eq_some_iff.mp afterCurrent
  cases same
  have closedTidy := proper.close closes
  refine ⟨?_, tidy_present closedTidy isPresent⟩
  refine Nodes.tidy_descend (fun _ entries changed tidy change => ?_) closedTidy removes
  cases change
  exact Nodes.tidy_remove tidy

theorem Proper.appendTable {path : List String} (proper : draft.Proper)
    (appends : draft.appendTable path = some next) : next.Proper := by
  obtain ⟨key, -, afterKey⟩ := Option.bind_eq_some_iff.mp appends
  obtain ⟨closed, closes, afterClosing⟩ := Option.bind_eq_some_iff.mp afterKey
  obtain ⟨made, makes, same⟩ := Option.bind_eq_some_iff.mp afterClosing
  cases same
  refine ⟨?_, .nil⟩
  refine Nodes.tidy_descend (fun _ entries changed tidy change => ?_) (proper.close closes) makes
  split at change
  · cases change
    exact Nodes.tidy_store tidy (.of_allTidy (by simp))
  · cases change
    exact tidy
  · cases change

/-- A statement keeps the tables tidy. -/
theorem Proper.carryOut {statement : Statement} (proper : draft.Proper)
    (statementProper : statement.Proper) (carries : draft.carryOut statement = some next) :
    next.Proper := by
  cases statement with
  | openTable path => exact proper.openTable carries
  | appendTable path => exact proper.appendTable carries
  | define key value =>
      obtain ⟨last, -, afterKey⟩ := Option.bind_eq_some_iff.mp carries
      obtain ⟨current, defines, same⟩ := Option.bind_eq_some_iff.mp afterKey
      cases same
      exact ⟨proper.closed, Nodes.tidy_define proper.current statementProper defines⟩

theorem Proper.carryOutAll {statements : List Statement} (proper : draft.Proper)
    (allProper : ∀ statement ∈ statements, statement.Proper)
    (carries : statements.foldlM Draft.carryOut draft = some next) : next.Proper := by
  induction statements generalizing draft with
  | nil =>
      cases carries
      exact proper
  | cons statement rest induction =>
      obtain ⟨firstProper, restProper⟩ := List.forall_mem_cons.mp allProper
      rw [List.foldlM_cons] at carries
      obtain ⟨middle, first, others⟩ := Option.bind_eq_some_iff.mp carries
      exact induction (proper.carryOut firstProper first) restProper others

end Draft

/-- Every document that is read is proper. -/
theorem Document.proper_of_parse? {source : String} {document : Document}
    (read : Document.parse? source = some document) : document.Proper := by
  obtain ⟨⟨statements, rest⟩, readLines, carries⟩ := Option.bind_eq_some_iff.mp read
  obtain ⟨draft, carriesAll, closes⟩ := Option.bind_eq_some_iff.mp carries
  obtain ⟨entries, closed, same⟩ := Option.bind_eq_some_iff.mp closes
  cases same
  have draftProper : draft.Proper :=
    Draft.Proper.carryOutAll ⟨.nil, .nil⟩ (proper_of_linesWithin readLines) carriesAll
  exact Node.tidy_finishedEntries (draftProper.close closed)

end FpgaPlacer.Toml
