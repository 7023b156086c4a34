import Mathlib.Data.List.Basic

/-!
# Texts cut at marks

A text is put together from parts, and the parts can be told from the whole when a mark
that no part contains stands at the end of each.  Lines that start with a mark end where
the first line without it begins.
-/

namespace FpgaPlacer

section Marks

variable {α : Type} {mark : α}

/-- A part without the mark reaches up to where the mark stands first. -/
theorem cut_at_mark {first second rest other : List α} (firstClear : mark ∉ first)
    (secondClear : mark ∉ second) (same : first ++ mark :: rest = second ++ mark :: other) :
    first = second ∧ rest = other := by
  induction first generalizing second with
  | nil =>
      cases second with
      | nil => exact ⟨rfl, (List.cons.inj same).2⟩
      | cons head second =>
          have atHead : mark = head := (List.cons.inj same).1
          exact absurd List.mem_cons_self (atHead ▸ secondClear)
  | cons item first induction =>
      cases second with
      | nil =>
          have atItem : item = mark := (List.cons.inj same).1
          exact absurd List.mem_cons_self (atItem ▸ firstClear)
      | cons head second =>
          obtain ⟨sameHead, sameRest⟩ := List.cons.inj same
          obtain ⟨sameFirst, rests⟩ := induction (List.not_mem_of_not_mem_cons firstClear)
            (List.not_mem_of_not_mem_cons secondClear) sameRest
          exact ⟨by rw [sameHead, sameFirst], rests⟩

/-- Parts without the mark can be told apart when each of them is ended by it. -/
theorem parts_of_ended {first second : List (List α)} (firstClear : ∀ part ∈ first, mark ∉ part)
    (secondClear : ∀ part ∈ second, mark ∉ part)
    (same : first.flatMap (· ++ [mark]) = second.flatMap (· ++ [mark])) : first = second := by
  induction first generalizing second with
  | nil =>
      cases second with
      | nil => rfl
      | cons part second => simp at same
  | cons part first induction =>
      cases second with
      | nil => simp at same
      | cons head second =>
          simp only [List.flatMap_cons, List.append_assoc, List.singleton_append] at same
          obtain ⟨rfl, sameRest⟩ := cut_at_mark (firstClear part List.mem_cons_self)
            (secondClear head List.mem_cons_self) same
          rw [induction (fun later member => firstClear later (List.mem_cons_of_mem part member))
            (fun later member => secondClear later (List.mem_cons_of_mem part member)) sameRest]

end Marks

/-- The line starts with the mark. -/
def Marked (mark line : String) : Prop := mark.toList <+: line.toList

theorem marked_append (mark text : String) : Marked mark (mark ++ text) := by
  rw [Marked, String.toList_append]
  exact List.prefix_append ..

/-- The marked lines at the start of two equal texts are the same, as no line after them has
the mark. -/
theorem texts_of_marked {mark : String} {first second rest other : List String}
    (restBare : ∀ line ∈ rest, ¬ Marked mark line)
    (otherBare : ∀ line ∈ other, ¬ Marked mark line)
    (same : first.map (mark ++ ·) ++ rest = second.map (mark ++ ·) ++ other) :
    first = second ∧ rest = other := by
  induction first generalizing second with
  | nil =>
      cases second with
      | nil => exact ⟨rfl, same⟩
      | cons text second =>
          have member : mark ++ text ∈ rest := by
            rw [show rest = _ from same]
            exact List.mem_cons_self
          exact absurd (marked_append mark text) (restBare _ member)
  | cons text first induction =>
      cases second with
      | nil =>
          have member : mark ++ text ∈ other := by
            rw [← show _ = other from same]
            exact List.mem_cons_self
          exact absurd (marked_append mark text) (otherBare _ member)
      | cons head second =>
          obtain ⟨sameHead, sameRest⟩ := List.cons.inj same
          obtain ⟨rfl, rests⟩ := induction sameRest
          exact ⟨by rw [(String.append_right_inj mark).mp sameHead], rests⟩

theorem isDigit_of_mem_repr {number : Nat} {character : Char}
    (member : character ∈ number.repr.toList) : character.isDigit = true := by
  rw [Nat.toList_repr] at member
  exact Nat.isDigit_of_mem_toDigits (by decide) (by decide) member

end FpgaPlacer
