import FpgaPlacer.Proofs.GridSelfCheck
import FpgaPlacer.Proofs.MarkedTexts

/-!
# Uniform grids

A uniform grid is laid row by row, so the coordinate of a bel is the quotient and the
remainder of its number by the width.  The coordinate can be read off the name, whatever the
name of the type is, and so every name leads back to its bel.
-/

namespace FpgaPlacer

variable {κ : Type}

namespace Grid

/-! ## The names of the bels -/

theorem toList_uniformBelName (typeName : String) (x y : Nat) :
    (uniformBelName typeName x y).toList =
      'X' :: (x.repr.toList ++ '/' :: 'Y' :: (y.repr.toList ++ '/' :: typeName.toList)) := by
  have written : uniformBelName typeName x y =
      "X" ++ x.repr ++ "/Y" ++ y.repr ++ "/" ++ typeName := rfl
  simp [written]

/-- Digits stand before each of the first two slashes, so a slash in the name of the type is
never taken for one of these. -/
theorem uniformBelName_injective {typeName : String} {x y otherX otherY : Nat}
    (same : uniformBelName typeName x y = uniformBelName typeName otherX otherY) :
    x = otherX ∧ y = otherY := by
  have digits {number : Nat} : '/' ∉ number.repr.toList :=
    fun member => absurd (isDigit_of_mem_repr member) (by decide)
  have chars := congrArg String.toList same
  rw [toList_uniformBelName, toList_uniformBelName] at chars
  obtain ⟨columns, rest⟩ := cut_at_mark digits digits (List.cons.inj chars).2
  obtain ⟨rows, -⟩ := cut_at_mark digits digits (List.cons.inj rest).2
  constructor
  · simpa using congrArg (Nat.ofDigitChars 10 · 0) columns
  · simpa using congrArg (Nat.ofDigitChars 10 · 0) rows

/-! ## Laying the bels -/

/-- The bel of a uniform grid at an index, counted row by row. -/
def uniformBel (width : Nat) (typeName : String) (index : Nat) : GridBel where
  name := uniformBelName typeName (index % width) (index / width)
  belType := .ofNat 0
  x := (index % width : Nat)
  y := (index / width : Nat)
  pins := []

/-- The first bels of a uniform grid have been laid, and nothing else. -/
structure Laid (width : Nat) (typeName : String) (count : Nat) (grid : Grid) : Prop where
  bels : grid.bels.toList = (List.range count).map (uniformBel width typeName)
  typeNames : grid.typeNames = if count = 0 then [] else [typeName]
  pips : grid.pips = #[]

section Laying

variable {grid : Grid} {width count x y : Nat} {typeName : String}

theorem uniformBel_at (inside : x < width) :
    uniformBel width typeName (y * width + x) =
      ⟨uniformBelName typeName x y, .ofNat 0, x, y, []⟩ := by
  have column : (y * width + x) % width = x := Nat.mul_add_mod_of_lt inside
  have row : (y * width + x) / width = y := by
    rw [Nat.mul_comm, Nat.mul_add_div (Nat.zero_lt_of_lt inside), Nat.div_eq_of_lt inside,
      Nat.add_zero]
  rw [uniformBel, column, row]

/-- Whether the type is new or the only one there is, it is the first one afterwards. -/
theorem registerType_first (names : grid.typeNames = [] ∨ grid.typeNames = [typeName]) :
    grid.registerType typeName = (.ofNat 0, { grid with typeNames := [typeName] }) := by
  obtain none | only := names
  · simp [registerType, none]
  · have same : { grid with typeNames := [typeName] } = grid := by rw [← only]
    simp [registerType, only, same]

theorem Laid.addBel (laid : grid.Laid width typeName (y * width + x)) (inside : x < width) :
    (grid.addBel (uniformBelName typeName x y) typeName x y).2.Laid width typeName
      (y * width + x + 1) := by
  have names : grid.typeNames = [] ∨ grid.typeNames = [typeName] := by
    rw [laid.typeNames]
    split
    · exact .inl rfl
    · exact .inr rfl
  rw [Grid.addBel, registerType_first names]
  constructor
  · rw [Array.toList_push, laid.bels, List.range_succ, List.map_append, List.map_singleton,
      uniformBel_at inside]
  · rw [if_neg (Nat.succ_ne_zero _)]
  · exact laid.pips

theorem laid_uniform (name : String) (width height : Nat) (typeName : String) :
    (uniform name width height typeName).Laid width typeName (height * width) :=
  uniform_induction ⟨rfl, rfl, rfl⟩ (fun inside laid => laid.addBel inside) height

/-! ## Finding the bels -/

theorem Laid.size (laid : grid.Laid width typeName count) : grid.bels.size = count := by
  simpa using congrArg List.length laid.bels

theorem Laid.bel? (laid : grid.Laid width typeName count) {bel : BelId}
    (inside : bel.toNat < count) : grid.bel? bel = some (uniformBel width typeName bel.toNat) := by
  rw [Grid.bel?, ← Array.getElem?_toList, laid.bels]
  simp [inside]

theorem uniformBel_name_injective {first second : Nat}
    (same : (uniformBel width typeName first).name = (uniformBel width typeName second).name) :
    first = second := by
  obtain ⟨columns, rows⟩ := uniformBelName_injective same
  rw [← Nat.div_add_mod first width, ← Nat.div_add_mod second width, columns, rows]

theorem Laid.names_nodup (laid : grid.Laid width typeName count) :
    (grid.bels.toList.map GridBel.name).Nodup := by
  rw [laid.bels, List.map_map]
  exact List.nodup_range.map (fun _ _ => uniformBel_name_injective)

theorem Laid.belNames [Scalar κ] (laid : grid.Laid width typeName count)
    (small : count < UInt32.size) :
    (grid.device κ).bels.map (grid.device κ).belName =
      (grid.bels.toList.map GridBel.name).map some := by
  have listed : (grid.device κ).bels = (List.range count).map .ofNat :=
    congrArg (Handle.range .bel) laid.size
  rw [listed, laid.bels, List.map_map, List.map_map, List.map_map]
  apply List.map_congr_left
  intro index member
  have inside : index < count := List.mem_range.mp member
  have number : (Handle.ofNat index : BelId).toNat = index :=
    Handle.toNat_ofNat_of_lt (Nat.lt_trans inside small)
  have found := laid.bel? (number.symm ▸ inside : (Handle.ofNat index : BelId).toNat < count)
  simp [device, found, number]

theorem Laid.selfCheck [Scalar κ] (laid : grid.Laid width typeName count) (built : grid.Built) :
    (grid.device κ).selfCheck = .ok () := by
  refine Device.selfCheck_eq_ok_iff.mpr
    ⟨(checkBels_iff_namesResolve built).mpr (Grid.namesResolve laid.names_nodup), ?_⟩
  intro pip listed
  have inside : pip.toNat < grid.pips.size := Handle.mem_range_iff.mp listed
  rw [laid.pips] at inside
  exact absurd inside (Nat.not_lt_zero _)

end Laying

/-- The bel is the one at the coordinate: it is numbered row by row, is located there, is
named after it and found by that name, and has the named type. -/
structure Sits (κ : Type) [Scalar κ] (grid : Grid) (width : Nat) (typeName : String)
    (x y : Nat) (bel : BelId) : Prop where
  listed : bel ∈ (grid.device κ).bels
  number : bel.toNat = y * width + x
  location : grid.location bel = .ok (x, y)
  belName : (grid.device κ).belName bel = some s!"X{x}/Y{y}/{typeName}"
  belNamed : (grid.device κ).belNamed s!"X{x}/Y{y}/{typeName}" = some bel
  belType : ∃ belType, (grid.device κ).belType bel = some belType ∧
    (grid.device κ).typeName belType = some typeName ∧
    (grid.device κ).typeNamed typeName = some belType

theorem Laid.sits [Scalar κ] {grid : Grid} {width height x y : Nat} {typeName : String}
    (laid : grid.Laid width typeName (height * width)) (small : height * width < UInt32.size)
    (inRow : x < width) (inColumn : y < height) :
    grid.Sits κ width typeName x y (.ofNat (y * width + x)) := by
  have inside : y * width + x < height * width := by
    calc y * width + x < y * width + width := Nat.add_lt_add_left inRow _
      _ = (y + 1) * width := (Nat.succ_mul y width).symm
      _ ≤ height * width := Nat.mul_le_mul_right width inColumn
  have number : (Handle.ofNat (y * width + x) : BelId).toNat = y * width + x :=
    Handle.toNat_ofNat_of_lt (Nat.lt_trans inside small)
  have found : grid.bel? (.ofNat (y * width + x)) =
      some ⟨uniformBelName typeName x y, .ofNat 0, x, y, []⟩ := by
    rw [laid.bel? (number.symm ▸ inside), number, uniformBel_at inRow]
  have types : grid.typeNames = [typeName] := by
    rw [laid.typeNames, if_neg (Nat.ne_of_gt (Nat.zero_lt_of_lt inside))]
  have listed : Handle.ofNat (y * width + x) ∈ (grid.device κ).bels := by
    refine Handle.mem_range_iff.mpr ?_
    rw [number, laid.size]
    exact inside
  have named : (grid.device κ).belName (.ofNat (y * width + x)) =
      some (uniformBelName typeName x y) := by simp [device, found]
  refine ⟨listed, number, ?_, named, Grid.namesResolve laid.names_nodup _ listed _ named,
    .ofNat 0, ?_, ?_, ?_⟩
  · simp [location, found, Query.ofOption]
  · simp [device, found]
  · simp [device, types, Handle.toNat_ofNat_of_lt]
  · simp [device, typeNamed, types]

/-- As long as 32 bits can number its bels, a uniform grid has one bel for each coordinate of
the rectangle and no other, numbered row by row; the bel is located at its coordinate, is
named after it, is the one found by that name, and has the named type.  No two names are the
same, whatever the name of the type is, and the grid passes its self-check. -/
theorem uniform_addressable [Scalar κ] (name : String) (width height : Nat) (typeName : String)
    (small : width * height < UInt32.size) :
    let grid := uniform name width height typeName
    (grid.device κ).bels.length = width * height ∧
      (∀ x y, x < width → y < height → ∃ bel, grid.Sits κ width typeName x y bel) ∧
      (∀ bel ∈ (grid.device κ).bels, ∃ x y, x < width ∧ y < height ∧
        grid.Sits κ width typeName x y bel) ∧
      ((grid.device κ).bels.map (grid.device κ).belName).Nodup ∧
      (grid.device κ).selfCheck = .ok () := by
  intro grid
  have laid : grid.Laid width typeName (height * width) :=
    laid_uniform name width height typeName
  rw [Nat.mul_comm] at small
  refine ⟨?_, fun x y inRow inColumn => ⟨_, laid.sits small inRow inColumn⟩, ?_, ?_,
    laid.selfCheck (built_uniform name width height typeName)⟩
  · rw [Nat.mul_comm, ← laid.size]
    simp [device, Handle.range]
  · intro bel listed
    have inside : bel.toNat < height * width := laid.size ▸ Handle.mem_range_iff.mp listed
    have inRow : bel.toNat % width < width :=
      Nat.mod_lt _ (Nat.pos_of_mul_pos_left (Nat.zero_lt_of_lt inside))
    have inColumn : bel.toNat / width < height := Nat.div_lt_of_lt_mul (Nat.mul_comm .. ▸ inside)
    have sits := laid.sits (κ := κ) small inRow inColumn
    rw [Nat.div_add_mod', Handle.ofNat_toNat] at sits
    exact ⟨_, _, inRow, inColumn, sits⟩
  · rw [laid.belNames small]
    exact laid.names_nodup.map (fun _ _ => Option.some.inj)

theorem uniform_addressable_of_slashes :
    3 * 2 < UInt32.size ∧
      ((uniform "g" 3 2 "7/Y1/").device Float32).belNamed "X2/Y1/7/Y1/" = some ⟨5⟩ := by
  have small : 3 * 2 < UInt32.size := by decide
  obtain ⟨-, sits, -⟩ := uniform_addressable (κ := Float32) "g" 3 2 "7/Y1/" small
  obtain ⟨bel, place⟩ := sits 2 1 (by decide) (by decide)
  have number : bel = ⟨5⟩ := Handle.toNat_injective place.number
  exact ⟨small, number ▸ place.belNamed⟩

end Grid

end FpgaPlacer
