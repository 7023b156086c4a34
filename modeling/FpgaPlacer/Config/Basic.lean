import FpgaPlacer.Labelled

/-!
# Flow configuration

What a flow run may be told: which placer to use and how to tune it, and when
to check and when to carry on.
-/

namespace FpgaPlacer

/-- The placer to run. -/
inductive PlaceStrategy where
  | bucket
  | heuristic
  deriving DecidableEq

instance : Labelled PlaceStrategy where
  all := [.bucket, .heuristic]
  label
    | .bucket => "bucket"
    | .heuristic => "heuristic"

/-- Which of several equally cheap bels is kept. -/
inductive TieBreak where
  | preferLast
  | preferFirst
  deriving DecidableEq

instance : Labelled TieBreak where
  all := [.preferLast, .preferFirst]
  label
    | .preferLast => "prefer-last"
    | .preferFirst => "prefer-first"

/-- Placement settings. -/
structure PlaceConfig where
  strategy : PlaceStrategy
  seed : UInt64
  improvementPasses : Nat
  stopWhenStable : Bool
  fanoutLimit : Nat
  tieBreak : TieBreak
  deriving DecidableEq

/-- The placement settings of an empty configuration. -/
def PlaceConfig.default : PlaceConfig where
  strategy := .heuristic
  seed := 1
  improvementPasses := 3
  stopWhenStable := false
  fanoutLimit := 5
  tieBreak := .preferLast

/-- When to check, and whether to carry on after a failed placement. -/
structure FlowPolicy where
  force : Bool
  archCheck : Bool
  check : Bool
  deriving DecidableEq

/-- The policy of an empty configuration. -/
def FlowPolicy.default : FlowPolicy where
  force := false
  archCheck := false
  check := true

/-- A flow configuration. -/
structure FlowConfig where
  place : PlaceConfig
  flow : FlowPolicy
  deriving DecidableEq

/-- The empty configuration. -/
def FlowConfig.default : FlowConfig := ⟨.default, .default⟩

end FpgaPlacer
