import Mathlib.Data.List.Forall2
import FpgaPlacer.Proofs.SuccessfulRuns

/-!
# Tables whose symbols are renamed in order

A table is sorted by symbol.  A renaming that keeps the order of the symbols
therefore takes the entries of a table to those of another one by one, and a
look-up, a write or a walk over the keys of one table corresponds to the same
on the other.
-/

namespace FpgaPlacer

/-- A renaming of those symbols that are known; it keeps their order. -/
structure Renaming where
  known : Symbol → Prop
  map : Symbol → Symbol
  increasing : ∀ {left right}, known left → known right → left < right →
    map left < map right

namespace Renaming

/-- A known symbol and the one it is renamed to. -/
structure Carries (renames : Renaming) (source target : Symbol) : Prop where
  known : renames.known source
  image : target = renames.map source

variable {renames : Renaming} {source target other image : Symbol}

theorem Carries.lt_iff (first : renames.Carries source target)
    (second : renames.Carries other image) : target < image ↔ source < other := by
  obtain ⟨known, rfl⟩ := first
  obtain ⟨otherKnown, rfl⟩ := second
  constructor
  · intro less
    by_cases before : source < other
    · exact before
    · by_cases same : source = other
      · subst same
        exact absurd less (Handle.lt_irrefl _)
      · have after := Handle.lt_of_not_lt_of_ne before same
        exact absurd (renames.increasing otherKnown known after)
          (Handle.lt_asymm less)
  · exact renames.increasing known otherKnown

theorem Carries.eq_iff (first : renames.Carries source target)
    (second : renames.Carries other image) : target = image ↔ source = other := by
  constructor
  · rintro rfl
    by_cases same : source = other
    · exact same
    · by_cases before : source < other
      · exact absurd ((first.lt_iff second).mpr before) (Handle.lt_irrefl _)
      · have after := Handle.lt_of_not_lt_of_ne before same
        exact absurd ((second.lt_iff first).mpr after) (Handle.lt_irrefl _)
  · rintro rfl
    rw [first.image, second.image]

theorem forall₂_carries_iff {sources targets : List Symbol} :
    List.Forall₂ renames.Carries sources targets ↔
      (∀ symbol ∈ sources, renames.known symbol) ∧
        targets = sources.map renames.map := by
  constructor
  · intro carried
    induction carried with
    | nil => exact ⟨nofun, rfl⟩
    | cons here rest induction =>
        obtain ⟨known, images⟩ := induction
        refine ⟨?_, ?_⟩
        · intro symbol member
          obtain rfl | later := List.mem_cons.mp member
          · exact here.known
          · exact known symbol later
        · rw [here.image, images, List.map_cons]
  · rintro ⟨known, rfl⟩
    apply List.forall₂_map_right_iff.mpr
    apply List.forall₂_same.mpr
    exact fun symbol member => ⟨known symbol member, rfl⟩

end Renaming

theorem forall₂_mem_right {α β : Type} {related : α → β → Prop} {left : List α}
    {right : List β} (pairs : List.Forall₂ related left right) {item : β}
    (member : item ∈ right) : ∃ other ∈ left, related other item := by
  induction pairs with
  | nil => cases member
  | cons here rest induction =>
      obtain rfl | later := List.mem_cons.mp member
      · exact ⟨_, List.mem_cons_self, here⟩
      · obtain ⟨other, inside, holds⟩ := induction later
        exact ⟨other, List.mem_cons_of_mem _ inside, holds⟩

/-! ## Tables -/

section Tables

variable {α β : Type}

/-- Entries under a symbol and the one it is renamed to, with related values. -/
def Renaming.Entry (renames : Renaming) (value : α → β → Prop)
    (source : Symbol × α) (target : Symbol × β) : Prop :=
  renames.Carries source.1 target.1 ∧ value source.2 target.2

/-- The entries of one table correspond to those of the other. -/
def Table.Carried (renames : Renaming) (value : α → β → Prop)
    (source : Table .name α) (target : Table .name β) : Prop :=
  List.Forall₂ (renames.Entry value) source.toList target.toList

variable {renames : Renaming} {value : α → β → Prop} {symbol image : Symbol}
  {left : α} {right : β}

theorem Entries.get?_carried {sources : List (Symbol × α)} {targets : List (Symbol × β)}
    (carried : List.Forall₂ (renames.Entry value) sources targets)
    (carries : renames.Carries symbol image) :
    Option.Rel value (get? symbol sources) (get? image targets) := by
  induction carried with
  | nil => exact .none
  | cons here rest induction =>
      obtain ⟨keys, values⟩ := here
      simp only [get?, keys.eq_iff carries]
      split
      · exact .some values
      · exact induction

theorem Entries.insert_carried {sources : List (Symbol × α)}
    {targets : List (Symbol × β)}
    (carried : List.Forall₂ (renames.Entry value) sources targets)
    (carries : renames.Carries symbol image) (related : value left right) :
    List.Forall₂ (renames.Entry value) (insert symbol left sources)
      (insert image right targets) := by
  have new : renames.Entry value (symbol, left) (image, right) := ⟨carries, related⟩
  induction carried with
  | nil => exact .cons new .nil
  | cons here rest induction =>
      simp only [insert, carries.lt_iff here.1, carries.eq_iff here.1]
      split
      · exact .cons new (.cons here rest)
      · split
        · exact .cons new rest
        · exact .cons here induction

namespace Table

variable {source : Table .name α} {target : Table .name β}

theorem Carried.get? (carried : Carried renames value source target)
    (carries : renames.Carries symbol image) :
    Option.Rel value (source.get? symbol) (target.get? image) :=
  Entries.get?_carried carried carries

theorem Carried.insert (carried : Carried renames value source target)
    (carries : renames.Carries symbol image) (related : value left right) :
    Carried renames value (source.insert symbol left) (target.insert image right) :=
  Entries.insert_carried carried carries related

theorem Carried.keys (carried : Carried renames value source target) :
    List.Forall₂ renames.Carries source.keys target.keys := by
  apply List.forall₂_map_left_iff.mpr
  apply List.forall₂_map_right_iff.mpr
  exact carried.imp fun _ _ entry => entry.1

theorem Carried.values (carried : Carried renames value source target) :
    List.Forall₂ value source.values target.values := by
  apply List.forall₂_map_left_iff.mpr
  apply List.forall₂_map_right_iff.mpr
  exact carried.imp fun _ _ entry => entry.2

theorem Carried.imp {weaker : α → β → Prop}
    (carried : Carried renames value source target)
    (implied : ∀ left right, value left right → weaker left right) :
    Carried renames weaker source target :=
  List.Forall₂.imp (fun _ _ entry => ⟨entry.1, implied _ _ entry.2⟩) carried

/-- An entry of the second table is the image of one of the first. -/
theorem Carried.source_of_get? (carried : Carried renames value source target)
    (found : target.get? image = some right) :
    ∃ symbol, renames.Carries symbol image ∧
      ∃ left, source.get? symbol = some left ∧ value left right := by
  have member := Table.mem_toList_iff.mpr found
  obtain ⟨entry, inside, carries, related⟩ := forall₂_mem_right carried member
  exact ⟨entry.1, carries, entry.2, Table.mem_toList_iff.mp inside, related⟩

end Table

end Tables

/-! ## Shuffled lists -/

namespace Generator

variable {α β : Type}

theorem map_swapIfInBounds (change : α → β) (items : Array α) (left right : Nat) :
    (items.map change).swapIfInBounds left right =
      (items.swapIfInBounds left right).map change := by
  apply Array.ext
  · simp
  · intro index inside inside'
    simp only [Array.getElem_map, Array.getElem_swapIfInBounds, Array.size_map]
    split
    · rfl
    · split
      · rfl
      · rfl

theorem shuffleFrom_map (change : α → β) (place : Nat) (items : Array α)
    (generator : Generator) :
    shuffleFrom place (items.map change) generator =
      ((shuffleFrom place items generator).1.map change,
        (shuffleFrom place items generator).2) := by
  induction place generalizing items generator with
  | zero => rfl
  | succ place induction =>
      simp only [shuffleFrom]
      rw [map_swapIfInBounds, induction]

/-- What is drawn depends on the length of a list only. -/
theorem shuffle_map (change : α → β) (items : List α) (generator : Generator) :
    shuffle (items.map change) generator =
      ((shuffle items generator).1.map change, (shuffle items generator).2) := by
  simp only [shuffle, List.length_map, ← List.map_toArray, shuffleFrom_map,
    Array.toList_map]

/-- Corresponding lists are shuffled to corresponding lists. -/
theorem shuffle_carried {renames : Renaming} {sources targets : List Symbol}
    (carried : List.Forall₂ renames.Carries sources targets) (generator : Generator) :
    List.Forall₂ renames.Carries (shuffle sources generator).1
        (shuffle targets generator).1 ∧
      (shuffle targets generator).2 = (shuffle sources generator).2 := by
  obtain ⟨known, rfl⟩ := Renaming.forall₂_carries_iff.mp carried
  rw [shuffle_map]
  refine ⟨Renaming.forall₂_carries_iff.mpr ⟨?_, rfl⟩, rfl⟩
  intro symbol member
  exact known symbol ((shuffle_perm sources generator).mem_iff.mp member)

end Generator

end FpgaPlacer
