import LogMarkers.Sink.Manifest
import Mathlib.Data.List.DropRight

/-!
# A manifest is read back from its document

The document of a manifest is read back as this manifest, whatever its names and fingerprints are:
escapes are undone, blanks are passed over, and the entries keep their order.

* `readText_escapeChars`: a quoted text is read back;
* `ManifestEntry.readValue_render`, `readItems_renderEntries`: one entry, several entries;
* `Manifest.ofText?_render`: the whole document.
-/

namespace LogMarkers

namespace Json

open Text (hexChar hexValue? hexValue?_hexChar)

/-! ## 1. Quoted texts -/

/-- What is read for a character that was written between quotation marks: the character, or its
    number. -/
def Piece.Reads (p : Piece) (c : Char) : Prop := p = .char c ∨ p = .unit c.toNat ∧ c.toNat < 0x20

theorem readPieces_unit {a b c d : Char} {wa wb wc wd : Nat} (ha : hexValue? a = some wa)
    (hb : hexValue? b = some wb) (hc : hexValue? c = some wc) (hd : hexValue? d = some wd)
    (rest : List Char) :
    readPieces ('\\' :: 'u' :: a :: b :: c :: d :: rest) =
      (readPieces rest).map fun (pieces, after) =>
        (.unit (wa * 4096 + wb * 256 + wc * 16 + wd) :: pieces, after) := by
  rw [readPieces, ha, hb, hc, hd]
  cases readPieces rest <;> rfl

theorem readPieces_escape {c e : Char} (hc : c ≠ 'u') (he : escaped? c = some e)
    (rest : List Char) :
    readPieces ('\\' :: c :: rest) =
      (readPieces rest).map fun (pieces, after) => (.char e :: pieces, after) := by
  rw [readPieces.eq_def]
  split
  · simp_all
  · simp_all
  · simp_all
  · rename_i h
    cases h
    rw [he]
    cases readPieces rest <;> rfl
  · rename_i hnone h
    cases h
    exact absurd rfl (hnone c rest rfl)

theorem readPieces_plain {c : Char} (hquote : c ≠ '"') (hslash : c ≠ '\\') (hc : ¬ c.toNat < 0x20)
    (rest : List Char) :
    readPieces (c :: rest) =
      (readPieces rest).map fun (pieces, after) => (.char c :: pieces, after) := by
  rw [readPieces.eq_def]
  split
  · simp_all
  · simp_all
  · simp_all
  · simp_all
  · rename_i h
    cases h
    rw [if_neg (by simp [hslash, hc])]
    cases readPieces rest <;> rfl

/-- How a character is written: with a backslash before a letter that stands for it, by its number,
    or as it is. -/
theorem escapeChar_cases (c : Char) :
    (∃ e, e ≠ 'u' ∧ escaped? e = some c ∧ escapeChar c = ['\\', e]) ∨
      (c.toNat < 0x20 ∧ escapeChar c =
        ['\\', 'u', '0', '0', hexChar (c.toNat / 16), hexChar (c.toNat % 16)]) ∨
      (c ≠ '"' ∧ c ≠ '\\' ∧ ¬ c.toNat < 0x20 ∧ escapeChar c = [c]) := by
  by_cases hnamed : c ∈ ['"', '\\', '\x08', '\t', '\n', '\x0c', '\r']
  · refine .inl ?_
    simp only [List.mem_cons, List.not_mem_nil, or_false] at hnamed
    rcases hnamed with rfl | rfl | rfl | rfl | rfl | rfl | rfl <;>
      exact ⟨_, by decide, by decide, rfl⟩
  · simp only [List.mem_cons, List.not_mem_nil, or_false, not_or] at hnamed
    obtain ⟨hquote, hslash, hb, ht, hn, hf, hr⟩ := hnamed
    have hchars : escapeChar c = if c.toNat < 0x20 then
        ['\\', 'u', '0', '0', hexChar (c.toNat / 16), hexChar (c.toNat % 16)] else [c] := by
      rw [escapeChar, if_neg hquote, if_neg hslash, if_neg hb, if_neg ht, if_neg hn, if_neg hf,
        if_neg hr]
    by_cases hlt : c.toNat < 0x20
    · exact .inr (.inl ⟨hlt, by rw [hchars, if_pos hlt]⟩)
    · exact .inr (.inr ⟨hquote, hslash, hlt, by rw [hchars, if_neg hlt]⟩)

/-- The escape of a character is read as one piece that stands for it. -/
theorem readPieces_escapeChar (c : Char) :
    ∃ p : Piece, p.Reads c ∧ ∀ rest, readPieces (escapeChar c ++ rest) =
      (readPieces rest).map fun (pieces, after) => (p :: pieces, after) := by
  rcases escapeChar_cases c with ⟨e, hu, he, hchars⟩ | ⟨hlt, hchars⟩ | ⟨hquote, hslash, hc, hchars⟩
  · rw [hchars]
    exact ⟨_, .inl rfl, readPieces_escape hu he⟩
  · rw [hchars]
    refine ⟨.unit c.toNat, .inr ⟨rfl, hlt⟩, fun rest => ?_⟩
    have hzero : hexValue? '0' = some 0 := by decide
    have hhigh := hexValue?_hexChar (c.toNat / 16) (by omega)
    have hlow := hexValue?_hexChar (c.toNat % 16) (by omega)
    have hvalue : 0 * 4096 + 0 * 256 + c.toNat / 16 * 16 + c.toNat % 16 = c.toNat := by omega
    have hread := readPieces_unit hzero hzero hhigh hlow rest
    rw [hvalue] at hread
    exact hread
  · rw [hchars]
    exact ⟨_, .inl rfl, readPieces_plain hquote hslash hc⟩

theorem assemble_unit {n : Nat} (h : n < 0xD800) (pieces : List Piece) :
    assemble (.unit n :: pieces) = (assemble pieces).map (Char.ofNat n :: ·) := by
  cases pieces with
  | nil => simp [assemble, h]
  | cons p rest =>
    cases p with
    | char c => simp [assemble, h]
    | unit low => rw [assemble, if_pos (.inl h)]

theorem Piece.Reads.assemble {p : Piece} {c : Char} (h : p.Reads c) (pieces : List Piece) :
    assemble (p :: pieces) = (Json.assemble pieces).map (c :: ·) := by
  rcases h with rfl | ⟨rfl, hlt⟩
  · rw [Json.assemble]
  · rw [assemble_unit (by omega), Char.ofNat_toNat]

/-- **A quoted text is read back.** -/
theorem readText_escapeChars (cs rest : List Char) :
    readText (escapeChars cs ++ '"' :: rest) = some (some (String.ofList cs), rest) := by
  have hpieces : ∃ pieces, assemble pieces = some cs ∧
      readPieces (escapeChars cs ++ '"' :: rest) = some (pieces, rest) := by
    induction cs with
    | nil => exact ⟨[], rfl, rfl⟩
    | cons c tail ih =>
      obtain ⟨pieces, hassemble, hread⟩ := ih
      obtain ⟨p, hp, hescape⟩ := readPieces_escapeChar c
      refine ⟨p :: pieces, by rw [hp.assemble, hassemble]; rfl, ?_⟩
      rw [escapeChars, List.flatMap_cons, List.append_assoc, hescape]
      rw [escapeChars] at hread
      rw [hread]
      rfl
  obtain ⟨pieces, hassemble, hread⟩ := hpieces
  rw [readText, hread]
  simp [hassemble]

theorem toList_quote (text : String) :
    (quote text).toList = '"' :: (escapeChars text.toList ++ ['"']) := by
  simp [quote]

theorem readValue_quote (depth : Nat) (text : String) (rest : List Char) :
    readValue (depth + 1) ((quote text).toList ++ rest) = some (.text (some text), rest) := by
  have hchars : (quote text).toList ++ rest = '"' :: (escapeChars text.toList ++ '"' :: rest) := by
    simp [toList_quote]
  rw [hchars, readValue, readText_escapeChars, String.ofList_toList]
  rfl

/-! ## 2. Members -/

/-- Characters that are passed over before a value or a sign. -/
def AllBlank (cs : List Char) : Prop := ∀ c ∈ cs, isJsonBlank c = true

instance (cs : List Char) : Decidable (AllBlank cs) :=
  List.decidableBAll (isJsonBlank · = true) cs

theorem skipBlank_append {blank : List Char} (h : AllBlank blank) {c : Char}
    (hc : isJsonBlank c = false) (rest : List Char) :
    skipBlank (blank ++ c :: rest) = c :: rest := by
  rw [skipBlank, List.dropWhile_append_of_pos h, List.dropWhile_cons_of_neg (by simp [hc])]

theorem skipBlank_comma (cs : List Char) : skipBlank (',' :: cs) = ',' :: cs := rfl

theorem skipBlank_quote (text : String) (rest : List Char) :
    skipBlank (' ' :: ((quote text).toList ++ rest)) = (quote text).toList ++ rest := by
  rw [toList_quote]
  rfl

section Members

variable {value : List Char → Option (Json × List Char)} {blank : List Char}
  (hblank : AllBlank blank) {cs rest : List Char} {member : Json}
  (hmember : value (skipBlank cs) = some (member, rest)) (n : Nat) (name : String)

include hblank hmember

/-- A member with others behind it. -/
theorem readMembers_next {after : List Char} (hafter : skipBlank rest = ',' :: after) :
    readMembers value (n + 1) (blank ++ ((quote name).toList ++ ':' :: cs)) =
      (readMembers value n after).map fun (members, after) =>
        ((some name, member) :: members, after) := by
  have hchars : (quote name).toList ++ ':' :: cs =
      '"' :: (escapeChars name.toList ++ '"' :: ':' :: cs) := by simp [toList_quote]
  have hcolon : skipBlank (':' :: cs) = ':' :: cs := rfl
  rw [hchars, readMembers, skipBlank_append hblank (by decide)]
  simp only [bind, Option.bind, readText_escapeChars, hcolon, hmember, hafter,
    String.ofList_toList]
  cases readMembers value n after <;> rfl

/-- A member with nothing behind it. -/
theorem readMembers_last {after : List Char} (hafter : skipBlank rest = '\x7d' :: after) :
    readMembers value (n + 1) (blank ++ ((quote name).toList ++ ':' :: cs)) =
      some ([(some name, member)], after) := by
  have hchars : (quote name).toList ++ ':' :: cs =
      '"' :: (escapeChars name.toList ++ '"' :: ':' :: cs) := by simp [toList_quote]
  have hcolon : skipBlank (':' :: cs) = ':' :: cs := rfl
  rw [hchars, readMembers, skipBlank_append hblank (by decide)]
  simp only [bind, Option.bind, readText_escapeChars, hcolon, hmember, hafter,
    String.ofList_toList]
  rfl

end Members

/-- The characters of a member whose value is a text. -/
def memberChars (name text : String) : List Char :=
  (quote name).toList ++ ':' :: ' ' :: (quote text).toList

theorem memberChars_append (name text : String) (rest : List Char) :
    memberChars name text ++ rest =
      (quote name).toList ++ ':' :: ' ' :: ((quote text).toList ++ rest) := by
  simp [memberChars]

theorem readValue_skipBlank_quote (depth : Nat) (text : String) (rest : List Char) :
    readValue (depth + 1) (skipBlank (' ' :: ((quote text).toList ++ rest))) =
      some (.text (some text), rest) := by
  rw [skipBlank_quote, readValue_quote]

/-- An object with a member. -/
theorem readValue_object {depth : Nat} {rest inside after : List Char}
    {members : List (Option String × Json)} (hinside : skipBlank rest = '"' :: inside)
    (h : readMembers (readValue depth) (inside.length + 1) ('"' :: inside) = some (members, after)) :
    readValue (depth + 1) ('\x7b' :: rest) = some (.object members, after) := by
  rw [readValue, hinside]
  show (readMembers (readValue depth) (inside.length + 1) ('"' :: inside)).map _ = _
  rw [h]
  rfl

/-! ## 3. Items -/

/-- Blanks before an item are passed over. -/
theorem readItems_skipBlank (value : List Char → Option (Json × List Char)) (n : Nat)
    (cs : List Char) : readItems value n (skipBlank cs) = readItems value n cs := by
  have hskip : skipBlank (skipBlank cs) = skipBlank cs := List.dropWhile_idempotent ..
  cases n with
  | zero => rfl
  | succ n => rw [readItems, readItems, hskip]

section Items

variable {value : List Char → Option (Json × List Char)} {cs rest : List Char} {item : Json}
  (hitem : value (skipBlank cs) = some (item, rest)) (n : Nat)

include hitem

/-- An item with others behind it. -/
theorem readItems_next {after : List Char} (hafter : skipBlank rest = ',' :: after) :
    readItems value (n + 1) cs =
      (readItems value n after).map fun (items, after) => (item :: items, after) := by
  rw [readItems, hitem]
  simp only [bind, Option.bind, hafter]
  cases readItems value n after <;> rfl

/-- An item with nothing behind it. -/
theorem readItems_last {after : List Char} (hafter : skipBlank rest = ']' :: after) :
    readItems value (n + 1) cs = some ([item], after) := by
  rw [readItems, hitem]
  simp only [bind, Option.bind, hafter]
  rfl

end Items

/-- An array with an item. -/
theorem readValue_array {depth : Nat} {rest inside after : List Char} {items : List Json}
    (hinside : skipBlank rest = '\x7b' :: inside)
    (h : readItems (readValue depth) (inside.length + 1) ('\x7b' :: inside) = some (items, after)) :
    readValue (depth + 1) ('[' :: rest) = some (.array items, after) := by
  rw [readValue, hinside]
  show (readItems (readValue depth) (inside.length + 1) ('\x7b' :: inside)).map _ = _
  rw [h]
  rfl

end Json

open Json

/-! ## 4. Entries -/

namespace ManifestEntry

/-- The value that the lines of an entry stand for. -/
def toJson (e : ManifestEntry) : Json :=
  .object [(some "id", .text (some e.id)), (some "kind", .text (some e.kind.label)),
    (some "fingerprint", .text (some e.fingerprint))]

theorem ofJson?_toJson (e : ManifestEntry) : ofJson? e.toJson = some e := by
  have hrecord : e.toJson.record? ["id", "kind", "fingerprint"] =
      some [some (.text (some e.id)), some (.text (some e.kind.label)),
        some (.text (some e.fingerprint))] := rfl
  rw [ofJson?, hrecord]
  simp [Json.text?, ArtifactKind.ofJson?, ArtifactKind.ofLabel?_label]

theorem toList_render (e : ManifestEntry) :
    e.render.toList = "    ".toList ++ '\x7b' :: (("\n      ".toList ++ memberChars "id" e.id) ++
      ',' :: (("\n      ".toList ++ memberChars "kind" e.kind.label) ++
      ',' :: (("\n      ".toList ++ memberChars "fingerprint" e.fingerprint) ++
      "\n    ".toList ++ ['\x7d']))) := by
  have hid : (quote "id").toList = ['"', 'i', 'd', '"'] := by decide
  have hkind : (quote "kind").toList = ['"', 'k', 'i', 'n', 'd', '"'] := by decide
  have hprint : (quote "fingerprint").toList =
      ['"', 'f', 'i', 'n', 'g', 'e', 'r', 'p', 'r', 'i', 'n', 't', '"'] := by decide
  show ("    \x7b\n" ++ "      \"id\": " ++ quote e.id ++ ",\n" ++ "      \"kind\": " ++
    quote e.kind.label ++ ",\n" ++ "      \"fingerprint\": " ++ quote e.fingerprint ++ "\n" ++
    "    \x7d").toList = _
  rw [memberChars, memberChars, memberChars, hid, hkind, hprint]
  generalize quote e.id = id
  generalize quote e.kind.label = kind
  generalize quote e.fingerprint = fingerprint
  simp only [String.toList_append, List.append_assoc, List.cons_append, List.nil_append]
  rfl

/-- **The lines of an entry are read as its value.** -/
theorem readValue_render (e : ManifestEntry) (depth : Nat) (rest : List Char) :
    readValue (depth + 2) (skipBlank (e.render.toList ++ rest)) = some (e.toJson, rest) := by
  let line : List Char := "\n      ".toList
  let third := memberChars "fingerprint" e.fingerprint ++ ("\n    ".toList ++ '\x7d' :: rest)
  let second := memberChars "kind" e.kind.label ++ ',' :: (line ++ third)
  let first := memberChars "id" e.id ++ ',' :: (line ++ second)
  have hline : AllBlank line := by decide
  have hchars : e.render.toList ++ rest = "    ".toList ++ '\x7b' :: (line ++ first) := by
    simp [toList_render, first, second, third, line]
  have hmembers (n : Nat) : readMembers (readValue (depth + 1)) (n + 3) first =
      some ([(some "id", .text (some e.id)), (some "kind", .text (some e.kind.label)),
        (some "fingerprint", .text (some e.fingerprint))], rest) := by
    have hid := readMembers_next (by decide : AllBlank [])
      (readValue_skipBlank_quote depth e.id (',' :: (line ++ second))) (n + 2) "id"
      (skipBlank_comma _)
    have hkind := readMembers_next hline
      (readValue_skipBlank_quote depth e.kind.label (',' :: (line ++ third))) (n + 1) "kind"
      (skipBlank_comma _)
    have hprint := readMembers_last hline
      (readValue_skipBlank_quote depth e.fingerprint ("\n    ".toList ++ '\x7d' :: rest)) n
      "fingerprint" (skipBlank_append (by decide) (by decide) rest)
    rw [List.nil_append, ← memberChars_append] at hid
    rw [← memberChars_append] at hkind hprint
    rw [hid, hkind, hprint]
    rfl
  obtain ⟨inside, hinside⟩ : ∃ inside, first = '"' :: inside :=
    ⟨_, by simp only [first, memberChars_append, toList_quote, List.cons_append]; rfl⟩
  -- each of the three members takes more than one character
  obtain ⟨n, hn⟩ : ∃ n, inside.length + 1 = n + 3 := by
    have hlength := congrArg List.length hinside
    simp only [first, memberChars_append, toList_quote, List.length_cons, List.length_append]
      at hlength
    exact ⟨inside.length - 2, by omega⟩
  have hskip : skipBlank (line ++ first) = '"' :: inside := by
    rw [hinside, skipBlank_append hline (by decide)]
  rw [hchars, skipBlank_append (by decide) (by decide)]
  refine readValue_object hskip ?_
  rw [hn, ← hinside, hmembers]

end ManifestEntry

/-! ## 5. The document -/

theorem renderEntries_cons_cons (e f : ManifestEntry) (rest : List ManifestEntry) :
    renderEntries (e :: f :: rest) = e.render ++ ",\n" ++ renderEntries (f :: rest) := rfl

/-- The lines of entries open with a brace, and behind it there are more characters than further
    entries. -/
theorem exists_toList_renderEntries (e : ManifestEntry) (more : List ManifestEntry) :
    ∃ inside, (renderEntries (e :: more)).toList = "    ".toList ++ '\x7b' :: inside ∧
      more.length ≤ inside.length := by
  induction more generalizing e with
  | nil => exact ⟨_, e.toList_render, Nat.zero_le _⟩
  | cons f rest ih =>
    obtain ⟨inside, hinside, hlength⟩ := ih f
    obtain ⟨lines, hlines⟩ : ∃ lines, e.render.toList = "    ".toList ++ '\x7b' :: lines :=
      ⟨_, e.toList_render⟩
    refine ⟨lines ++ (",\n".toList ++ ("    ".toList ++ '\x7b' :: inside)), ?_, ?_⟩
    · rw [renderEntries_cons_cons, String.toList_append, String.toList_append, hlines, hinside]
      simp
    · simp only [List.length_append, List.length_cons]
      omega

/-- **The lines of entries are read as their values**, with the bracket that closes them. -/
theorem readItems_renderEntries (depth : Nat) (rest : List Char) {entries : List ManifestEntry}
    (hne : entries ≠ []) {n : Nat} (hn : entries.length ≤ n) :
    readItems (readValue (depth + 2)) n
        ((renderEntries entries).toList ++ ("\n  ".toList ++ ']' :: rest)) =
      some (entries.map (·.toJson), rest) := by
  induction entries generalizing n with
  | nil => exact absurd rfl hne
  | cons e more ih =>
    obtain ⟨n, rfl⟩ : ∃ k, n = k + 1 := ⟨n - 1, by simp at hn; omega⟩
    cases more with
    | nil =>
      exact readItems_last (e.readValue_render depth _) n
        (skipBlank_append (by decide) (by decide) rest)
    | cons f more =>
      have hchars : (renderEntries (e :: f :: more)).toList ++ ("\n  ".toList ++ ']' :: rest) =
          e.render.toList ++ ',' :: '\n' :: ((renderEntries (f :: more)).toList ++
            ("\n  ".toList ++ ']' :: rest)) := by
        simp [renderEntries_cons_cons]
      have hrest := ih (List.cons_ne_nil _ _) (n := n) (by simpa using hn)
      have hline : ∀ cs, readItems (readValue (depth + 2)) n ('\n' :: cs) =
          readItems (readValue (depth + 2)) n cs := fun cs => by
        rw [← readItems_skipBlank, ← readItems_skipBlank _ _ cs]
        rfl
      rw [hchars, readItems_next (e.readValue_render depth _) n (skipBlank_comma _), hline, hrest]
      rfl

namespace Manifest

/-- The value that the document of a manifest stands for. -/
def toJson (m : Manifest) : Json :=
  .object [(some "artifacts", .array (m.entries.map (·.toJson)))]

theorem ofJson?_toJson (m : Manifest) : ofJson? m.toJson = some m := by
  have hrecord : m.toJson.record? ["artifacts"] =
      some [some (.array (m.entries.map (·.toJson)))] := rfl
  have hentries : (m.entries.map (·.toJson)).mapM ManifestEntry.ofJson? = some m.entries := by
    induction m.entries with
    | nil => rfl
    | cons e rest ih => simp [List.mapM_cons, ManifestEntry.ofJson?_toJson, ih]
  rw [ofJson?, hrecord]
  simp [Json.array?, hentries]

/-- The array of a document after its opening bracket. -/
def arrayChars (m : Manifest) : List Char :=
  if m.entries = [] then [']']
  else '\n' :: ((renderEntries m.entries).toList ++ ("\n  ".toList ++ [']']))

theorem toList_render (m : Manifest) :
    m.render.toList = '\x7b' :: ("\n  ".toList ++ ((quote "artifacts").toList ++
      ':' :: ' ' :: '[' :: (m.arrayChars ++ ['\n', '\x7d']))) := by
  have hname : (quote "artifacts").toList =
      ['"', 'a', 'r', 't', 'i', 'f', 'a', 'c', 't', 's', '"'] := by decide
  rw [render, arrayChars]
  split <;> simp [hname]

theorem readValue_arrayChars (m : Manifest) (depth : Nat) (rest : List Char) :
    readValue (depth + 3) ('[' :: (m.arrayChars ++ rest)) =
      some (.array (m.entries.map (·.toJson)), rest) := by
  rw [arrayChars]
  split
  · rename_i hempty
    rw [hempty]
    rfl
  · rename_i hne
    obtain ⟨e, more, hentries⟩ := List.exists_cons_of_ne_nil hne
    obtain ⟨inside, hinside, hlength⟩ := exists_toList_renderEntries e more
    let cs := (renderEntries m.entries).toList ++ ("\n  ".toList ++ ']' :: rest)
    have hchars : '\n' :: ((renderEntries m.entries).toList ++ ("\n  ".toList ++ [']'])) ++ rest =
        '\n' :: cs := by simp [cs]
    have hskip : skipBlank cs = '\x7b' :: (inside ++ ("\n  ".toList ++ ']' :: rest)) := by
      simp only [cs, hentries, hinside, List.append_assoc, List.cons_append]
      exact skipBlank_append (by decide) (by decide) _
    rw [hchars]
    refine readValue_array hskip ?_
    rw [← hskip, readItems_skipBlank]
    refine readItems_renderEntries depth rest hne ?_
    rw [hentries, List.length_cons, List.length_append]
    omega

/-- **The document of a manifest is read as its value.** -/
theorem parse?_render (m : Manifest) : Json.parse? m.render = some m.toJson := by
  let array := m.arrayChars ++ ['\n', '\x7d']
  have hvalue (depth : Nat) : readValue (depth + 3) (skipBlank (' ' :: '[' :: array)) =
      some (.array (m.entries.map (·.toJson)), ['\n', '\x7d']) := m.readValue_arrayChars depth _
  have hmember (depth n : Nat) := readMembers_last (by decide : AllBlank []) (hvalue depth) n
    "artifacts" (rfl : skipBlank ['\n', '\x7d'] = ['\x7d'])
  obtain ⟨inside, hinside⟩ : ∃ inside,
      (quote "artifacts").toList ++ ':' :: ' ' :: '[' :: array = '"' :: inside :=
    ⟨_, by rw [toList_quote, List.cons_append]⟩
  have hrender : m.render.toList = '\x7b' :: ("\n  ".toList ++ '"' :: inside) := by
    rw [toList_render, ← hinside]
  obtain ⟨depth, hdepth⟩ : ∃ depth, m.render.toList.length = depth + 3 := by
    refine ⟨inside.length + 2, ?_⟩
    rw [hrender]
    simp
  have hread : readValue (m.render.toList.length + 1) m.render.toList = some (m.toJson, []) := by
    rw [hdepth, hrender]
    refine readValue_object (skipBlank_append (by decide) (by decide) inside) ?_
    rw [← hinside]
    exact hmember depth inside.length
  have hskip : skipBlank m.render.toList = m.render.toList := by
    rw [hrender]
    rfl
  rw [Json.parse?]
  simp only [hskip, hread]
  rfl

/-- **A manifest is read back from its document.** -/
theorem ofText?_render (m : Manifest) : ofText? m.render = some m := by
  rw [ofText?, parse?_render, Option.bind_some, ofJson?_toJson]

end Manifest

end LogMarkers
