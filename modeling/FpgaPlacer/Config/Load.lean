import FpgaPlacer.Config.Basic
import FpgaPlacer.Config.Section
import FpgaPlacer.Toml.Document

/-!
# Loading a configuration

A configuration is a TOML document with the sections `place` and `flow`.
Settings that are not given have their default.  The values are judged only
after the whole document has been read.
-/

namespace FpgaPlacer

/-- Why a configuration was not loaded. -/
inductive ConfigError where
  | unreadable
  | malformed
  | fanoutLimitZero
  deriving DecidableEq

/-- The text of a configuration error. -/
def ConfigError.message : ConfigError → String
  | unreadable => "failed to read configuration"
  | malformed => "failed to parse configuration"
  | fanoutLimitZero => "validation error: place.fanout_limit must be at least 1"

/-- The fields of the placement settings, in order. -/
def PlaceConfig.fields : List (Field PlaceConfig) :=
  [⟨"strategy", fun value config => do
      return { config with strategy := ← value.toChoice? }⟩,
    ⟨"seed", fun value config => do
      return { config with seed := .ofNat (← value.toNatBelow? UInt64.size) }⟩,
    ⟨"improvement_passes", fun value config => do
      return { config with improvementPasses := ← value.toNatBelow? UInt32.size }⟩,
    ⟨"stop_when_stable", fun value config => do
      return { config with stopWhenStable := ← value.toBool? }⟩,
    ⟨"fanout_limit", fun value config => do
      return { config with fanoutLimit := ← value.toNatBelow? UInt64.size }⟩,
    ⟨"tie_break", fun value config => do
      return { config with tieBreak := ← value.toChoice? }⟩]

/-- The fields of the policy of the flow, in order. -/
def FlowPolicy.fields : List (Field FlowPolicy) :=
  [⟨"force", fun value policy => do
      return { policy with force := ← value.toBool? }⟩,
    ⟨"arch_check", fun value policy => do
      return { policy with archCheck := ← value.toBool? }⟩,
    ⟨"check", fun value policy => do
      return { policy with check := ← value.toBool? }⟩]

namespace FlowConfig

/-- The sections of a configuration; each starts from its defaults. -/
def sections : List (Field FlowConfig) :=
  [⟨"place", fun value config => do
      return { config with place := ← Field.putSection? PlaceConfig.fields .default value }⟩,
    ⟨"flow", fun value config => do
      return { config with flow := ← Field.putSection? FlowPolicy.fields .default value }⟩]

/-- The configuration that a document gives. -/
def ofDocument? (document : Toml.Document) : Option FlowConfig :=
  Field.putAllNamed? sections .default document

/-- Refuses settings that no placer can use. -/
def validated (config : FlowConfig) : Except ConfigError FlowConfig :=
  if config.place.fanoutLimit = 0 then .error .fanoutLimitZero else .ok config

/-- Loads a configuration from a document. -/
def ofDocument (document : Toml.Document) : Except ConfigError FlowConfig :=
  match ofDocument? document with
  | none => .error .malformed
  | some config => config.validated

/-- Loads a configuration from its text. -/
def load (text : String) : Except ConfigError FlowConfig :=
  match Toml.Document.parse? text with
  | none => .error .malformed
  | some document => ofDocument document

/-- Loads a configuration from the content of a file, which may be missing and
has to be UTF-8. -/
def loadFile (content : Option ByteArray) : Except ConfigError FlowConfig :=
  match content.bind String.fromUTF8? with
  | none => .error .unreadable
  | some text => load text

end FlowConfig

end FpgaPlacer
