import Mathlib.Data.List.Nodup
import FpgaPlacer.Interner

/-!
# Interned names

Adding a string leaves the strings before it in their places.  So a symbol keeps its string,
and as long as there are symbols for all strings, symbols and strings correspond one to one.
-/

namespace FpgaPlacer.Interner

variable {names : Interner} {symbol : Symbol} {text : String}

/-! ## Adding a string -/

theorem add_of_mem (member : text ∈ names.strings) : names.add text = names := by
  simp [add, member]

theorem strings_add_of_not_mem (fresh : text ∉ names.strings) :
    (names.add text).strings = names.strings ++ [text] := by
  simp [add, fresh]

theorem mem_add (names : Interner) (text : String) : text ∈ (names.add text).strings := by
  by_cases member : text ∈ names.strings
  · rw [add_of_mem member]
    exact member
  · simp [strings_add_of_not_mem member]

/-- The symbol of a string is the same before it is interned and after. -/
theorem intern_add (names : Interner) (text : String) :
    ((names.add text).intern text).1 = (names.intern text).1 := by
  by_cases member : text ∈ names.strings
  · rw [add_of_mem member]
  · rw [intern, intern, strings_add_of_not_mem member, List.idxOf_append, if_neg member,
      List.idxOf_cons_self, Nat.zero_add, List.idxOf_eq_length member]

theorem isPrefix_add (names : Interner) (text : String) :
    names.strings <+: (names.add text).strings := by
  unfold add
  split
  · exact List.prefix_rfl
  · exact List.prefix_append ..

/-! ## The string of a symbol -/

/-- A symbol keeps its string when names are added at the end. -/
theorem resolve?_of_isPrefix {later : Interner} (grown : names.strings <+: later.strings)
    (resolved : names.resolve? symbol = some text) :
    later.resolve? symbol = some text := by
  obtain ⟨added, strings⟩ := grown
  obtain ⟨inside, _⟩ := List.getElem?_eq_some_iff.mp resolved
  rw [resolve?, ← strings, List.getElem?_append_left inside]
  exact resolved

theorem resolve?_add (resolved : names.resolve? symbol = some text) (other : String) :
    (names.add other).resolve? symbol = some text :=
  resolve?_of_isPrefix (names.isPrefix_add other) resolved

theorem intern_of_resolve? (resolved : names.resolve? symbol = some text) :
    (names.intern text).1 = symbol := by
  obtain ⟨inside, here⟩ := List.getElem?_eq_some_iff.mp resolved
  have index : names.strings.idxOf text = symbol.toNat := by
    rw [← here]
    exact names.nodup.idxOf_getElem _ inside
  simp only [intern, index, Handle.ofNat_toNat]

/-- The symbol of a string has that string, once it is interned and if there is room
for it. -/
theorem resolve?_intern (room : (names.add text).size ≤ UInt32.size) :
    (names.add text).resolve? (names.intern text).1 = some text := by
  have inside := List.idxOf_lt_length_of_mem (mem_add names text)
  have small := Nat.lt_of_lt_of_le inside room
  have index : ((names.add text).intern text).1.toNat =
      (names.add text).strings.idxOf text :=
    Handle.toNat_ofNat_of_lt small
  rw [← intern_add, resolve?, index, List.getElem?_eq_getElem inside,
    List.getElem_idxOf]

theorem eq_intern_iff {other : String} (resolved : names.resolve? symbol = some text)
    (room : (names.add other).size ≤ UInt32.size) :
    symbol = (names.intern other).1 ↔ text = other := by
  constructor
  · rintro rfl
    have kept := resolve?_add resolved other
    rw [resolve?_intern room] at kept
    exact (Option.some.inj kept).symm
  · rintro rfl
    exact (intern_of_resolve? resolved).symm

/-- A string is found under the symbol that has it, and under no other. -/
theorem get?_eq_some_iff (room : names.size ≤ UInt32.size) :
    names.get? text = some symbol ↔ names.resolve? symbol = some text := by
  constructor
  · intro found
    by_cases member : text ∈ names.strings
    · rw [get?, if_pos member, Option.some_inj] at found
      subst found
      have unchanged := add_of_mem member
      have resolved := resolve?_intern (unchanged.symm ▸ room : (names.add text).size ≤ _)
      rwa [unchanged] at resolved
    · rw [get?, if_neg member] at found
      cases found
  · intro resolved
    have member : text ∈ names.strings := List.mem_of_getElem? resolved
    rw [get?, if_pos member]
    exact congrArg some (intern_of_resolve? resolved)

/-- The text shown for a symbol stays unless it is the one that a new text is
given. -/
theorem display_add (kept : text ∈ names.strings ∨ symbol ≠ (names.intern text).1) :
    (names.add text).display symbol = names.display symbol := by
  by_cases member : text ∈ names.strings
  · rw [add_of_mem member]
  · have other : symbol ≠ (names.intern text).1 := kept.resolve_left member
    have different : symbol.toNat ≠ names.strings.length := by
      intro same
      apply other
      rw [intern, List.idxOf_eq_length member, ← same, Handle.ofNat_toNat]
    have resolves : (names.add text).resolve? symbol = names.resolve? symbol := by
      rw [resolve?, resolve?, strings_add_of_not_mem member]
      by_cases inside : symbol.toNat < names.strings.length
      · exact List.getElem?_append_left inside
      · have beyond : (names.strings ++ [text]).length ≤ symbol.toNat := by
          rw [List.length_append, List.length_singleton]
          omega
        rw [List.getElem?_eq_none beyond,
          List.getElem?_eq_none (Nat.le_of_not_lt inside)]
    rw [display, display, resolves]

end FpgaPlacer.Interner
