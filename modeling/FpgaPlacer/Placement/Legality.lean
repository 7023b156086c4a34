import FpgaPlacer.Layout.Basic

/-!
# Legality rules

A rule says which bels a cell may go to, beyond type and occupancy.  Placers
ask it in a layout that already holds every placement made so far.  A table of
site rules is one way to write a rule down.
-/

namespace FpgaPlacer

/-- Whether a cell may be bound to a bel in a layout. -/
abbrev LegalityRule (κ : Type) := Layout κ → Symbol → BelId → Bool

/-- The rule that accepts every bel. -/
def LegalityRule.anyBel {κ : Type} : LegalityRule κ := fun _ _ _ => true

/-- Bels denied to a named cell or to all cells, and a limit on the bound bels
that share one horizontal position. -/
structure SiteRules where
  denied : List (Option String × BelId)
  columnLimit : Option Nat

namespace SiteRules

/-- Whether a cell is denied a bel. -/
def denies (rules : SiteRules) (cell : String) (bel : BelId) : Bool :=
  rules.denied.any (fun (name, site) => site = bel && name.all (· = cell))

/-- The number of bound bels with the horizontal position of a bel. -/
def boundInColumn {κ : Type} [BEq κ] (fabric : Fabric κ) (bel : BelId) : Nat :=
  let column (site : BelId) := (fabric.device.position site).map Prod.fst
  fabric.device.bels.countP
    (fun site => column site == column bel && (fabric.cellAt site).isSome)

/-- The legality rule that a table of site rules stands for. -/
def rule {κ : Type} [BEq κ] (rules : SiteRules) : LegalityRule κ :=
  fun layout cell bel =>
    !rules.denies (layout.design.display cell) bel &&
      rules.columnLimit.all (boundInColumn layout.fabric bel < ·)

end SiteRules

end FpgaPlacer
