import FpgaPlacer.Diagnostic.Render
import FpgaPlacer.Proofs.MarkedTexts

/-!
# What a rendered diagnostic tells

The text of a diagnostic tells all of it apart, even when its parts contain the arrows,
brackets and escapes of the format.  Line ends cut the text into its lines, brackets cut
severity and code out of the first line, and what a further line is about shows at its
start.
-/

namespace FpgaPlacer

/-! ## The words of a header -/

theorem Severity.text_injective {first second : Severity} (same : first.text = second.text) :
    first = second := by
  cases first <;> cases second <;> first | rfl | exact absurd same (by decide)

theorem Category.letter_injective {first second : Category}
    (same : first.letter = second.letter) : first = second := by
  cases first <;> cases second <;> first | rfl | exact absurd same (by decide)

theorem Category.isAlphanum_letter (category : Category) :
    category.letter.isAlphanum = true := by
  cases category <;> rfl

theorem toList_threeDigits (number : Nat) :
    (threeDigits number).toList =
      List.replicate (3 - number.repr.length) '0' ++ number.repr.toList := by
  simp [threeDigits]

theorem ofDigitChars_threeDigits (number : Nat) :
    Nat.ofDigitChars 10 (threeDigits number).toList 0 = number := by
  rw [toList_threeDigits, Nat.ofDigitChars_append, Nat.ofDigitChars_replicate_zero,
    Nat.mul_zero, Nat.toList_repr, Nat.ofDigitChars_ten_toDigits]

theorem isDigit_of_mem_threeDigits {number : Nat} {character : Char}
    (member : character ∈ (threeDigits number).toList) : character.isDigit = true := by
  rw [toList_threeDigits, List.mem_append] at member
  cases member with
  | inl leading =>
      rw [List.eq_of_mem_replicate leading]
      rfl
  | inr written => exact isDigit_of_mem_repr written

namespace DiagnosticCode

theorem toList_text (code : DiagnosticCode) :
    code.text.toList = code.category.letter :: (threeDigits code.number.toNat).toList := by
  simp [text]

theorem isAlphanum_of_mem_text {code : DiagnosticCode} {character : Char}
    (member : character ∈ code.text.toList) : character.isAlphanum = true := by
  rw [toList_text] at member
  cases List.mem_cons.mp member with
  | inl isLetter =>
      rw [isLetter]
      exact code.category.isAlphanum_letter
  | inr written => simp [Char.isAlphanum, isDigit_of_mem_threeDigits written]

theorem text_injective {first second : DiagnosticCode} (same : first.text = second.text) :
    first = second := by
  have chars := congrArg String.toList same
  rw [toList_text, toList_text] at chars
  obtain ⟨letters, digits⟩ := List.cons.inj chars
  have category : first.category = second.category := Category.letter_injective letters
  have numbers : first.number.toNat = second.number.toNat := by
    rw [← ofDigitChars_threeDigits first.number.toNat, digits, ofDigitChars_threeDigits]
  have number : first.number = second.number := UInt16.toNat_inj.mp numbers
  cases first
  cases second
  cases category
  cases number
  rfl

end DiagnosticCode

namespace Diagnostic

variable {color : Bool} {first second : Diagnostic}

/-- The escape that starts a coloured header. -/
def opening (color : Bool) : String := if color then "\x1b[1;" else ""

/-- The severity in a header, with the rest of its colour. -/
def paint (color : Bool) (severity : Severity) : String :=
  if color then ansiColor severity ++ "m" ++ severity.text else severity.text

/-- The escape that ends a coloured header. -/
def closing (color : Bool) : String := if color then "\x1b[0m" else ""

theorem header_eq (color : Bool) (diagnostic : Diagnostic) :
    diagnostic.header color = opening color ++ (paint color diagnostic.severity ++
      ("[" ++ (diagnostic.code.text ++ ("]" ++ closing color)))) := by
  cases color <;> simp [header, opening, paint, closing, String.append_assoc]

theorem paint_injective {first second : Severity} (same : paint color first = paint color second) :
    first = second := by
  cases color with
  | false => exact Severity.text_injective same
  | true => cases first <;> cases second <;> first | rfl | exact absurd same (by decide)

theorem isAlphanum_of_mem_paint {severity : Severity} :
    ∀ character ∈ (paint color severity).toList, character.isAlphanum = true := by
  apply List.all_eq_true.mp
  cases color <;> cases severity <;> rfl

/-! ## Diagnostics without line ends -/

/-- The text has no line end. -/
def OneLine (text : String) : Prop := '\n' ∉ text.toList

instance (text : String) : Decidable (OneLine text) :=
  inferInstanceAs (Decidable ('\n' ∉ text.toList))

/-- No part of the diagnostic has a line end. -/
structure Unbroken (diagnostic : Diagnostic) : Prop where
  message : OneLine diagnostic.message
  subject : ∀ text ∈ diagnostic.subject, OneLine text
  notes : ∀ text ∈ diagnostic.notes, OneLine text
  help : ∀ text ∈ diagnostic.help, OneLine text

theorem oneLine_append {start rest : String} (oneStart : OneLine start) (oneRest : OneLine rest) :
    OneLine (start ++ rest) := by
  rw [OneLine, String.toList_append]
  exact List.not_mem_append oneStart oneRest

theorem oneLine_of_isAlphanum {text : String}
    (alphanumeric : ∀ character ∈ text.toList, character.isAlphanum = true) : OneLine text := by
  intro member
  exact absurd (alphanumeric _ member) (by decide)

theorem oneLine_header (color : Bool) (diagnostic : Diagnostic) :
    OneLine (diagnostic.header color) := by
  have opened : OneLine (opening color) := by cases color <;> decide
  have closed : OneLine (closing color) := by cases color <;> decide
  have severity : OneLine (paint color diagnostic.severity) :=
    oneLine_of_isAlphanum isAlphanum_of_mem_paint
  have code : OneLine diagnostic.code.text :=
    oneLine_of_isAlphanum (fun _ member => DiagnosticCode.isAlphanum_of_mem_text member)
  rw [header_eq]
  refine oneLine_append opened (oneLine_append severity ?_)
  exact oneLine_append (by decide) (oneLine_append code (oneLine_append (by decide) closed))

def headline (color : Bool) (diagnostic : Diagnostic) : String :=
  diagnostic.header color ++ ": " ++ diagnostic.message

def footnotes (diagnostic : Diagnostic) : List String :=
  diagnostic.subject.toList.map ("  --> " ++ ·) ++
    (diagnostic.notes.map ("   = note: " ++ ·) ++ diagnostic.help.map ("   = help: " ++ ·))

theorem lines_eq (color : Bool) (diagnostic : Diagnostic) :
    diagnostic.lines color = diagnostic.headline color :: diagnostic.footnotes := by
  simp [lines, headline, footnotes, List.append_assoc]

theorem Unbroken.oneLine_lines {diagnostic : Diagnostic} (unbroken : diagnostic.Unbroken)
    (color : Bool) : ∀ line ∈ diagnostic.lines color, OneLine line := by
  intro line member
  rw [lines_eq, List.mem_cons, footnotes, List.mem_append, List.mem_append] at member
  obtain rfl | subject | note | help := member
  · exact oneLine_append (oneLine_append (oneLine_header color diagnostic) (by decide))
      unbroken.message
  · obtain ⟨text, listed, rfl⟩ := List.mem_map.mp subject
    exact oneLine_append (by decide) (unbroken.subject text (Option.mem_toList.mp listed))
  · obtain ⟨text, listed, rfl⟩ := List.mem_map.mp note
    exact oneLine_append (by decide) (unbroken.notes text listed)
  · obtain ⟨text, listed, rfl⟩ := List.mem_map.mp help
    exact oneLine_append (by decide) (unbroken.help text listed)

/-! ## Reading the text back -/

theorem toList_render (color : Bool) (diagnostic : Diagnostic) :
    (diagnostic.render color).toList =
      ((diagnostic.lines color).map String.toList).flatMap (· ++ ['\n']) := by
  simp [render, String.toList_join, List.flatMap_map]

theorem lines_of_render (firstUnbroken : first.Unbroken) (secondUnbroken : second.Unbroken)
    (same : first.render color = second.render color) :
    first.lines color = second.lines color := by
  have clear {diagnostic : Diagnostic} (unbroken : diagnostic.Unbroken) :
      ∀ part ∈ (diagnostic.lines color).map String.toList, '\n' ∉ part := by
    intro part member
    obtain ⟨line, listed, rfl⟩ := List.mem_map.mp member
    exact unbroken.oneLine_lines color line listed
  have chars := congrArg String.toList same
  rw [toList_render, toList_render] at chars
  have parts := parts_of_ended (clear firstUnbroken) (clear secondUnbroken) chars
  exact List.map_injective_iff.mpr (fun _ _ => String.toList_injective) parts

theorem toList_headline (color : Bool) (diagnostic : Diagnostic) :
    (diagnostic.headline color).toList = (opening color).toList ++
      ((paint color diagnostic.severity).toList ++ '[' :: (diagnostic.code.text.toList ++
        ']' :: ((closing color).toList ++ (": ".toList ++ diagnostic.message.toList)))) := by
  simp [headline, header_eq]

/-- The severity reaches up to the first bracket after the escape and the code up to the
next one; the message begins at a known distance from it. -/
theorem parts_of_headline (same : first.headline color = second.headline color) :
    first.severity = second.severity ∧ first.code = second.code ∧
      first.message = second.message := by
  have severityEnds {severity : Severity} : '[' ∉ (paint color severity).toList :=
    fun member => absurd (isAlphanum_of_mem_paint _ member) (by decide)
  have codeEnds {code : DiagnosticCode} : ']' ∉ code.text.toList :=
    fun member => absurd (DiagnosticCode.isAlphanum_of_mem_text member) (by decide)
  have chars := congrArg String.toList same
  rw [toList_headline, toList_headline] at chars
  obtain ⟨severity, rest⟩ :=
    cut_at_mark severityEnds severityEnds (List.append_cancel_left chars)
  obtain ⟨code, rest⟩ := cut_at_mark codeEnds codeEnds rest
  have message := List.append_cancel_left (List.append_cancel_left rest)
  exact ⟨paint_injective (String.toList_injective severity),
    DiagnosticCode.text_injective (String.toList_injective code), String.toList_injective message⟩

/-- No note and no help line starts as the line of a subject does, and no help line as a
note does. -/
theorem parts_of_footnotes (same : first.footnotes = second.footnotes) :
    first.subject = second.subject ∧ first.notes = second.notes ∧ first.help = second.help := by
  have helpBare {help : List String} :
      ∀ line ∈ help.map ("   = help: " ++ ·), ¬ Marked "   = note: " line := by
    rw [List.forall_mem_map]
    intro text _
    simp [Marked]
  have otherBare {notes help : List String} :
      ∀ line ∈ notes.map ("   = note: " ++ ·) ++ help.map ("   = help: " ++ ·),
        ¬ Marked "  --> " line := by
    rw [List.forall_mem_append, List.forall_mem_map, List.forall_mem_map]
    constructor
    · intro text _
      simp [Marked]
    · intro text _
      simp [Marked]
  obtain ⟨subjects, rest⟩ := texts_of_marked otherBare otherBare same
  obtain ⟨notes, helps⟩ := texts_of_marked helpBare helpBare rest
  refine ⟨by simpa using congrArg List.head? subjects, notes, ?_⟩
  exact List.map_injective_iff.mpr (fun _ _ => (String.append_right_inj _).mp) helps

/-- In either colour, two diagnostics whose parts have no line end are rendered alike only if
they are the same: in severity, category and number of the code, message, subject, notes and
help lines. -/
theorem render_eq_iff (firstUnbroken : first.Unbroken) (secondUnbroken : second.Unbroken)
    (color : Bool) : first.render color = second.render color ↔ first = second := by
  refine ⟨fun same => ?_, fun same => same ▸ rfl⟩
  have lines := lines_of_render firstUnbroken secondUnbroken same
  rw [lines_eq, lines_eq] at lines
  obtain ⟨headlines, footnotes⟩ := List.cons.inj lines
  obtain ⟨severity, code, message⟩ := parts_of_headline headlines
  obtain ⟨subject, notes, help⟩ := parts_of_footnotes footnotes
  cases first
  cases second
  cases severity
  cases code
  cases message
  cases subject
  cases notes
  cases help
  rfl

/-- A diagnostic whose message goes on as another one would begin, with an empty subject. -/
def disguised : Diagnostic where
  severity := .note
  code := ⟨.warning, 7⟩
  message := "]\x1b[0m: help[P1000]: x"
  subject := some ""
  notes := ["   = help: y"]
  help := []

/-- The diagnostic with the look of its note and without a subject. -/
def undisguised : Diagnostic :=
  { disguised with subject := none, notes := [], help := ["   = note: y"] }

theorem render_eq_iff_of_disguised :
    disguised.Unbroken ∧ undisguised.Unbroken ∧
      ∀ color, disguised.render color ≠ undisguised.render color := by
  have disguisedUnbroken : disguised.Unbroken :=
    ⟨by decide, by decide, by decide, by decide⟩
  have undisguisedUnbroken : undisguised.Unbroken :=
    ⟨by decide, by decide, by decide, by decide⟩
  refine ⟨disguisedUnbroken, undisguisedUnbroken, fun color same => ?_⟩
  have equal := (render_eq_iff disguisedUnbroken undisguisedUnbroken color).mp same
  exact absurd equal (by decide)

end Diagnostic

end FpgaPlacer
