import LogMarkers.Text.IdentifierRanges

/-!
# Identifiers

An identifier is a non-empty run of identifier characters, written plainly or raw (`r#type`). Both
facts about its text are part of the type, so everything that is named by an identifier of a source
text is named by a non-empty text without a separator (`Identifier.text_ne_empty`,
`Identifier.not_mem_of_isContinue`).
-/

namespace LogMarkers.Text

/-- Whether a code point lies in one of the inclusive ranges. -/
def inRanges (ranges : List (Nat × Nat)) (n : Nat) : Bool :=
  ranges.any fun (lo, hi) => decide (lo ≤ n) && decide (n ≤ hi)

/-- Letters and the underscore among the ASCII characters. -/
def isAsciiStart (c : Char) : Bool :=
  (decide ('a' ≤ c) && decide (c ≤ 'z')) || (decide ('A' ≤ c) && decide (c ≤ 'Z')) || c == '_'

/-- The decimal digits. -/
def isDigit (c : Char) : Bool := decide ('0' ≤ c) && decide (c ≤ '9')

/-- The characters that start an identifier: the underscore and `XID_Start`. -/
def isStart (c : Char) : Bool :=
  isAsciiStart c || (decide (0x80 ≤ c.toNat) && inRanges startRanges c.toNat)

/-- The characters that continue an identifier: `XID_Continue`. -/
def isContinue (c : Char) : Bool :=
  isStart c || isDigit c || (decide (0x80 ≤ c.toNat) && inRanges moreRanges c.toNat)

end LogMarkers.Text

namespace LogMarkers

open Text

/-- A word of the source language, with whether it was written raw. -/
structure Identifier where
  chars : List Char
  raw : Bool
  nonempty : chars ≠ []
  continues : ∀ c ∈ chars, isContinue c = true

namespace Identifier

instance : DecidableEq Identifier := fun a b =>
  decidable_of_iff (a.chars = b.chars ∧ a.raw = b.raw) (by cases a; cases b; simp)

/-- The name the identifier stands for; a raw identifier names the same as a plain one. -/
def text (i : Identifier) : String := String.ofList i.chars

/-- The identifier with these characters, if they form one. -/
def ofChars? (chars : List Char) (raw : Bool) : Option Identifier :=
  if h : chars ≠ [] ∧ chars.all isContinue = true then
    some ⟨chars, raw, h.1, List.all_eq_true.mp h.2⟩
  else none

/-- Whether the identifier is the plainly written word `word`. -/
def isWord (i : Identifier) (word : String) : Bool := !i.raw && i.text == word

theorem text_ne_empty (i : Identifier) : i.text ≠ "" := by
  intro h
  exact i.nonempty (by simpa [text] using h)

/-- A character that does not continue identifiers does not occur in a name. -/
theorem not_mem_of_isContinue (i : Identifier) {c : Char} (h : isContinue c = false) :
    c ∉ i.text.toList := by
  intro hm
  have := i.continues c (by simpa [text] using hm)
  simp [h] at this

theorem isContinue_colon : isContinue ':' = false := by decide

theorem isContinue_dot : isContinue '.' = false := by decide

end Identifier

end LogMarkers
