import Mathlib.Data.List.Induction
import FpgaPlacer.Error.Internal
import FpgaPlacer.Proofs.InternedNames

/-!
# Runs of an interner

Whatever is asked of a fresh interner and in whatever order, it holds the distinct strings
that it was told to intern, in the order in which they first came.  It numbers them from zero,
so it stops only when it has used up its symbols.
-/

namespace FpgaPlacer

inductive InternerCall where
  | intern (text : String)
  | get (text : String)
  | resolve (symbol : Symbol)
  | size

inductive InternerAnswer where
  | symbol (symbol : Symbol)
  | found (symbol : Option Symbol)
  | text (text : Except InternalError String)
  | size (count : Nat)

namespace InternerCall

/-- The answer to a call and the interner after it.  There is none when a new string comes and
all symbols are taken. -/
def perform (names : Interner) : InternerCall → Option (InternerAnswer × Interner)
  | intern text =>
      if text ∈ names.strings ∨ names.size < UInt32.size then
        let (symbol, names) := names.intern text
        some (.symbol symbol, names)
      else none
  | get text => some (.found (names.get? text), names)
  | resolve symbol =>
      let text := match names.resolve? symbol with
        | some text => .ok text
        | none => .error (.symbolOutOfRange symbol names.size)
      some (.text text, names)
  | size => some (.size names.size, names)

def run (calls : List InternerCall) (names : Interner) : Option Interner :=
  calls.foldlM (fun names call => (call.perform names).map Prod.snd) names

/-- The string that a call is to intern. -/
def interned? : InternerCall → Option String
  | intern text => some text
  | _ => none

/-- The strings to be interned, each once, in the order in which they first come. -/
def distinct (calls : List InternerCall) : List String :=
  (calls.filterMap interned?).eraseDups

/-- The distinct strings after one more call. -/
def learned (known : List String) : InternerCall → List String
  | intern text => if text ∈ known then known else known ++ [text]
  | _ => known

variable {calls later : List InternerCall} {call : InternerCall} {names after : Interner}
  {answer : InternerAnswer} {known : List String} {symbol : Symbol} {text : String}

/-! ## The strings of a run -/

theorem eraseDups_concat (texts : List String) (text : String) :
    (texts ++ [text]).eraseDups =
      if text ∈ texts.eraseDups then texts.eraseDups else texts.eraseDups ++ [text] := by
  rw [List.eraseDups_append]
  by_cases member : text ∈ texts
  · rw [if_pos (List.mem_eraseDups.mpr member)]
    simp [List.removeAll, member]
  · rw [if_neg (mt List.mem_eraseDups.mp member)]
    simp [List.removeAll, List.eraseDups_cons, member]

theorem distinct_concat (calls : List InternerCall) (call : InternerCall) :
    distinct (calls ++ [call]) = call.learned (distinct calls) := by
  rw [distinct, List.filterMap_append]
  cases call with
  | intern text => exact eraseDups_concat ..
  | get text => exact congrArg List.eraseDups (List.append_nil _)
  | resolve symbol => exact congrArg List.eraseDups (List.append_nil _)
  | size => exact congrArg List.eraseDups (List.append_nil _)

theorem isPrefix_learned (known : List String) (call : InternerCall) :
    known <+: call.learned known := by
  cases call with
  | intern text =>
      rw [learned]
      split
      · exact List.prefix_rfl
      · exact List.prefix_append ..
  | get text => exact List.prefix_rfl
  | resolve symbol => exact List.prefix_rfl
  | size => exact List.prefix_rfl

/-! ## One call -/

/-- A call that is answered adds its string, if that is new, and leaves the others. -/
theorem strings_of_perform (performed : call.perform names = some (answer, after)) :
    after.strings = call.learned names.strings := by
  cases call with
  | intern text =>
      rw [perform] at performed
      split at performed
      · cases performed
        by_cases member : text ∈ names.strings
        · rw [learned, if_pos member]
          exact congrArg Interner.strings (Interner.add_of_mem member)
        · rw [learned, if_neg member]
          exact Interner.strings_add_of_not_mem member
      · cases performed
  | get text => cases performed; rfl
  | resolve symbol => cases performed; rfl
  | size => cases performed; rfl

/-- A call has no answer just when it would need one symbol more than there are. -/
theorem perform_eq_none_iff (room : names.size ≤ UInt32.size) :
    call.perform names = none ↔ UInt32.size < (call.learned names.strings).length := by
  cases call with
  | intern text =>
      rw [perform, learned]
      by_cases member : text ∈ names.strings
      · rw [if_pos (.inl member), if_pos member]
        exact iff_of_false nofun (Nat.not_lt_of_le room)
      · simp only [member, false_or, if_false, List.length_append, List.length_singleton]
        change _ ↔ UInt32.size < names.size + 1
        by_cases free : names.size < UInt32.size
        · rw [if_pos free]
          exact iff_of_false nofun (Nat.not_lt_of_le free)
        · rw [if_neg free]
          exact iff_of_true rfl (Nat.lt_succ_of_le (Nat.le_of_not_lt free))
  | get text => exact iff_of_false nofun (Nat.not_lt_of_le room)
  | resolve symbol => exact iff_of_false nofun (Nat.not_lt_of_le room)
  | size => exact iff_of_false nofun (Nat.not_lt_of_le room)

/-! ## A whole run -/

theorem run_concat (calls : List InternerCall) (call : InternerCall) (names : Interner) :
    run (calls ++ [call]) names =
      (run calls names).bind (fun names => (call.perform names).map Prod.snd) := by
  simp only [run, List.foldlM_append, List.foldlM_cons, List.foldlM_nil, bind_pure]
  rfl

/-- Calls never take a string away or move it. -/
theorem isPrefix_of_run (ran : run calls names = some after) :
    names.strings <+: after.strings := by
  induction calls using List.reverseRecOn generalizing after with
  | nil => cases ran; exact List.prefix_rfl
  | append_singleton calls call ih =>
      rw [run_concat, Option.bind_eq_some_iff] at ran
      obtain ⟨between, ran, last⟩ := ran
      obtain ⟨⟨answer, _⟩, performed, rfl⟩ := Option.map_eq_some_iff.mp last
      rw [strings_of_perform performed]
      exact (ih ran).trans (isPrefix_learned ..)

/-- A run from the start either stops for want of symbols or has learned the distinct strings
of its calls. -/
theorem run_cases (calls : List InternerCall) :
    (run calls .empty = none ∧ UInt32.size < (distinct calls).length) ∨
      ∃ names, run calls .empty = some names ∧ names.strings = distinct calls ∧
        (distinct calls).length ≤ UInt32.size := by
  induction calls using List.reverseRecOn with
  | nil => exact .inr ⟨.empty, rfl, rfl, Nat.zero_le _⟩
  | append_singleton calls call ih =>
      rw [run_concat, distinct_concat]
      obtain ⟨stopped, beyond⟩ | ⟨names, ran, strings, room⟩ := ih
      · exact .inl ⟨by rw [stopped]; rfl,
          Nat.lt_of_lt_of_le beyond (isPrefix_learned ..).length_le⟩
      · rw [← strings] at room ⊢
        rw [ran, Option.bind_some]
        cases performed : call.perform names with
        | none => exact .inl ⟨rfl, (perform_eq_none_iff room).mp performed⟩
        | some answered =>
            have answers : call.perform names ≠ none := by simp [performed]
            exact .inr ⟨answered.2, rfl, strings_of_perform performed,
              Nat.le_of_not_lt (mt (perform_eq_none_iff room).mpr answers)⟩

/-! ## What a run leaves behind -/

theorem perform_resolve_eq_iff :
    (resolve symbol).perform names = some (.text (.ok text), names) ↔
      names.resolve? symbol = some text := by
  rw [perform]
  cases resolved : names.resolve? symbol with
  | none => simp
  | some here => simp

theorem perform_get_eq_iff {found : Option Symbol} :
    (get text).perform names = some (.found found, names) ↔ names.get? text = found := by
  simp [perform]

theorem resolve_of_run (ran : run later names = some after)
    (resolved : (resolve symbol).perform names = some (.text (.ok text), names)) :
    (resolve symbol).perform after = some (.text (.ok text), after) :=
  perform_resolve_eq_iff.mpr (Interner.resolve?_of_isPrefix (isPrefix_of_run ran)
    (perform_resolve_eq_iff.mp resolved))

/-- What an interner that knows exactly these strings, in this order, answers. -/
structure Registers (names : Interner) (known : List String) : Prop where
  nodup : known.Nodup
  room : known.length ≤ UInt32.size
  size : InternerCall.size.perform names = some (.size known.length, names)
  resolve : ∀ symbol, (InternerCall.resolve symbol).perform names =
    some (.text (if inside : symbol.toNat < known.length then .ok known[symbol.toNat]
      else .error (.symbolOutOfRange symbol known.length)), names)
  get : ∀ text, ∃ found, (InternerCall.get text).perform names = some (.found found, names) ∧
    ∀ symbol, found = some symbol ↔
      (InternerCall.resolve symbol).perform names = some (.text (.ok text), names)
  intern_known : ∀ symbol text,
    (InternerCall.get text).perform names = some (.found (some symbol), names) →
      (InternerCall.intern text).perform names = some (.symbol symbol, names)
  intern_fresh : ∀ text, text ∉ known → known.length < UInt32.size →
    ∃ after, (InternerCall.intern text).perform names =
      some (.symbol (.ofNat known.length), after)

theorem registers_of_strings (strings : names.strings = known)
    (room : known.length ≤ UInt32.size) : Registers names known := by
  subst strings
  exact {
    nodup := names.nodup
    room := room
    size := rfl
    resolve := by
      intro symbol
      by_cases inside : symbol.toNat < names.strings.length
      · rw [dif_pos inside]
        exact perform_resolve_eq_iff.mpr (List.getElem?_eq_getElem inside)
      · have foreign : names.resolve? symbol = none :=
          List.getElem?_eq_none (Nat.le_of_not_lt inside)
        rw [dif_neg inside, perform, foreign]
        rfl
    get := by
      intro text
      refine ⟨names.get? text, rfl, fun symbol => ?_⟩
      rw [perform_resolve_eq_iff]
      exact Interner.get?_eq_some_iff room
    intern_known := by
      intro symbol text found
      have resolved := (Interner.get?_eq_some_iff room).mp (perform_get_eq_iff.mp found)
      have member : text ∈ names.strings := List.mem_of_getElem? resolved
      rw [perform, if_pos (.inl member), ← Interner.intern_of_resolve? resolved,
        Interner.intern, Interner.add_of_mem member]
    intern_fresh := by
      intro text fresh free
      refine ⟨names.add text, ?_⟩
      rw [perform, if_pos (.inr free), Interner.intern, List.idxOf_eq_length fresh] }

/-- A run from the start fails only when it is given more strings than there are symbols.
Otherwise the interner knows exactly the distinct strings of the run, and whatever is called
later, no symbol gets another string. -/
theorem run_registers (calls : List InternerCall) :
    (run calls .empty = none ↔ UInt32.size < (distinct calls).length) ∧
      ∀ names, run calls .empty = some names →
        Registers names (distinct calls) ∧
          ∀ later after, run later names = some after → ∀ symbol text,
            (InternerCall.resolve symbol).perform names = some (.text (.ok text), names) →
              (InternerCall.resolve symbol).perform after = some (.text (.ok text), after) := by
  obtain ⟨stopped, beyond⟩ | ⟨reached, ran, strings, room⟩ := run_cases calls
  · refine ⟨iff_of_true stopped beyond, fun names ran => ?_⟩
    rw [stopped] at ran
    cases ran
  · refine ⟨iff_of_false (by simp [ran]) (Nat.not_lt_of_le room), fun names same => ?_⟩
    rw [ran, Option.some_inj] at same
    subst same
    exact ⟨registers_of_strings strings room,
      fun later after ran symbol text => resolve_of_run ran⟩

theorem run_registers_of_repeated :
    ∃ names after, run [.intern "a", .get "b", .intern "b", .size, .intern "a"] .empty =
        some names ∧ Registers names ["a", "b"] ∧ run [.intern "c"] names = some after ∧
      (resolve (.ofNat 1)).perform after = some (.text (.ok "b"), after) := by
  let names : Interner := ⟨["a", "b"], by decide⟩
  let after : Interner := ⟨["a", "b", "c"], by decide⟩
  have ran : run [.intern "a", .get "b", .intern "b", .size, .intern "a"] .empty = some names :=
    rfl
  have ranLater : run [.intern "c"] names = some after := rfl
  obtain ⟨registers, kept⟩ := (run_registers _).2 names ran
  exact ⟨names, after, ran, registers, ranLater, kept _ after ranLater _ "b" rfl⟩

end InternerCall

end FpgaPlacer
