import FpgaPlacer.Proofs.JsonCodecs
import FpgaPlacer.Proofs.ReaderYields

/-!
# What JSON texts hold

A number is kept as an integer only when it fits into 64 bits, and a decimal
fraction that overflows is refused.  So every value read from a text is plain,
however deeply it is nested.
-/

namespace FpgaPlacer

namespace Json

open Reader

variable {α : Type} {property : α → Prop} {reader : Reader α}

theorem yields_spaced (yields : Yields property reader) :
    Yields property (Text.spaced reader) :=
  yields.bind (fun _ holds => yields_bind (fun _ => yields_pure holds))

theorem yields_enclosed (yields : Yields property reader) (opening closing : Char) :
    Yields (fun values => ∀ value ∈ values, property value)
      (Text.enclosed opening closing reader) := by
  refine yields_bind (fun _ => ?_)
  refine ((yields_spaced yields).separated _).maybe.bind (fun found allHold => ?_)
  refine yields_bind (fun _ => yields_pure ?_)
  cases found with
  | none => simp
  | some values => exact allHold values rfl

theorem yields_number : Yields Plain Text.number := by
  refine yields_bind (fun negative => yields_bind (fun whole => yields_bind (fun fraction =>
    yields_bind (fun exponent => ?_))))
  dsimp only
  generalize (if negative.isSome = true then -(digitsValue 10 whole : Int)
    else (digitsValue 10 whole : Int)) = value
  split
  · rename_i kept
    refine yields_pure (.integer ?_)
    simp only [Bool.and_eq_true] at kept
    exact kept.1.2
  · split
    · exact yields_failure
    · rename_i small
      refine yields_pure (.float ?_)
      have finite := Binary64.isFinite_of_not_isInf
        (Binary64.isNaN_decimalFloat whole (fraction.getD []) (exponent.getD 0))
        (by simpa using small)
      split
      · exact Binary64.isFinite_neg finite
      · exact finite

theorem mem_of_mem_lastMembers {members : List (String × Json)} {member : String × Json}
    (kept : member ∈ Text.lastMembers members) : member ∈ members := by
  induction members with
  | nil => exact kept
  | cons first rest ih =>
      unfold Text.lastMembers at kept
      dsimp only at kept
      split at kept
      · exact List.mem_cons_of_mem _ (ih kept)
      · cases List.mem_cons.mp kept with
        | inl isFirst => exact isFirst ▸ List.mem_cons_self
        | inr later => exact List.mem_cons_of_mem _ (ih later)

theorem yields_valueWithin (depth : Nat) : Yields Plain (Text.valueWithin depth) := by
  induction depth with
  | zero =>
      intro input value rest read
      cases read
  | succ depth ih =>
      intro input value rest read
      unfold Text.valueWithin at read
      split at read
      · exact yields_bind (fun _ => yields_pure .null) _ _ _ read
      · exact yields_bind (fun _ => yields_pure (.boolean true)) _ _ _ read
      · exact yields_bind (fun _ => yields_pure (.boolean false)) _ _ _ read
      · exact yields_bind (fun _ => yields_pure (.string _)) _ _ _ read
      · exact (yields_enclosed ih _ _).bind (fun _ plain => yields_pure (.array plain)) _ _ _ read
      · have member : Yields (fun member : String × Json => member.2.Plain) (do
            let name ← Text.spaced Text.string
            Text.spaced (char ':')
            return (name, ← Text.valueWithin depth)) :=
          yields_bind (fun _ => yields_bind (fun _ => ih.bind (fun _ plain => yields_pure plain)))
        exact (yields_enclosed member _ _).bind (fun _ plain => yields_pure
          (.object (fun _ kept => plain _ (mem_of_mem_lastMembers kept)))) _ _ _ read
      · exact yields_number _ _ _ read

theorem plain_of_parse? {source : String} {json : Json} (read : parse? source = some json) :
    json.Plain := by
  obtain ⟨⟨value, rest⟩, readValue, same⟩ := Option.bind_eq_some_iff.mp read
  cases same
  refine yields_bind (fun _ => ?_) _ _ _ readValue
  exact (yields_spaced (yields_valueWithin _)).bind
    (fun _ plain => yields_bind (fun _ => yields_pure plain))

end Json

end FpgaPlacer
