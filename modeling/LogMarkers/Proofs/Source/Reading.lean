import LogMarkers.Source.Lexer
import LogMarkers.Source.Parser
import Mathlib.Data.Bool.AllAny

/-!
# Reading token trees piece by piece

What `readTrees` does with the front of a text, as a relation that can be put together: `Reads`
says which trees come out of the characters before a rest, whatever was read before and whatever is
open. `Reads.trans` reads one piece after the other, `Reads.group` what stands in delimiters, and
`readTrees_of_reads` is the whole text.

There is one lemma for each piece that generated code is made of: blanks, comments on one line,
signs, plain words and texts in quotes. A word is read whole where no character that continues it
follows.
-/

namespace LogMarkers.Source

open Text

/-! ## 1. Pieces -/

/-- The characters before `rest` are read as `trees`, in no more steps than there are characters;
    `after` is the line of the rest. -/
def Reads (cs : List Char) (line : Nat) (trees : List TokenTree) (rest : List Char) (after : Nat) :
    Prop :=
  ∃ k, k + rest.length ≤ cs.length ∧ ∀ n frames done,
    readTrees (n + k) frames done cs line = readTrees n frames (trees.reverse ++ done) rest after

namespace Reads

variable {cs mid rest : List Char} {line between after : Nat} {trees more : List TokenTree}

theorem refl (cs : List Char) (line : Nat) : Reads cs line [] cs line :=
  ⟨0, Nat.le_of_eq (Nat.zero_add _), fun _ _ _ => rfl⟩

/-- One piece after the other. -/
theorem trans (h : Reads cs line trees mid between) (h' : Reads mid between more rest after) :
    Reads cs line (trees ++ more) rest after := by
  obtain ⟨k, hk, hread⟩ := h
  obtain ⟨k', hk', hread'⟩ := h'
  refine ⟨k' + k, by omega, fun n frames done => ?_⟩
  rw [← Nat.add_assoc, hread, hread', List.reverse_append, List.append_assoc]

/-- One step over some characters. -/
theorem step (hlen : rest.length < cs.length)
    (h : ∀ n frames done, readTrees (n + 1) frames done cs line =
      readTrees n frames (trees.reverse ++ done) rest after) : Reads cs line trees rest after :=
  ⟨1, by omega, h⟩

end Reads

/-! ## 2. One step -/

section Step

variable {n : Nat} {frames : List Frame} {done : List TokenTree} {cs rest : List Char}
  {line after : Nat}

theorem readTrees_blank (h : afterBlank? cs line = some (rest, after)) :
    readTrees (n + 1) frames done cs line = readTrees n frames done rest after := by
  simp only [readTrees, h]

/-- Neither a blank nor a comment nor what stands for an unreadable token is at the front. -/
structure StartsToken (cs : List Char) (line : Nat) : Prop where
  blank : afterBlank? cs line = none
  doc : docComment? cs line = none
  readable : afterText? unreadable cs = none

theorem readTrees_nil : readTrees (n + 1) [] done [] line = .ok done.reverse := rfl

theorem readTrees_open {c : Char} (h : StartsToken (c :: cs) line) {d : Delimiter}
    (hd : Delimiter.opened? c = some d) :
    readTrees (n + 1) frames done (c :: cs) line =
      readTrees n (⟨d, line, done⟩ :: frames) [] cs line := by
  simp only [readTrees, h.blank, h.doc, h.readable, hd]

theorem readTrees_close {c : Char} (h : StartsToken (c :: cs) line)
    (hopen : Delimiter.opened? c = none) {d : Delimiter} (hd : Delimiter.closed? c = some d)
    {start : Nat} {before : List TokenTree} :
    readTrees (n + 1) (⟨d, start, before⟩ :: frames) done (c :: cs) line =
      readTrees n frames (.group d done.reverse start line :: before) cs line := by
  simp only [readTrees, h.blank, h.doc, h.readable, hopen, hd, ↓reduceIte]

theorem readTrees_leaf {c : Char} (h : StartsToken (c :: cs) line)
    (hopen : Delimiter.opened? c = none) (hclose : Delimiter.closed? c = none)
    {tree : TokenTree} (hleaf : leaf? (c :: cs) line = some (tree, rest, after)) :
    readTrees (n + 1) frames done (c :: cs) line =
      readTrees n frames (tree :: done) rest after := by
  simp only [readTrees, h.blank, h.doc, h.readable, hopen, hclose, hleaf]

end Step

/-- **A text that is read to its end is cut into the trees that come out.** -/
theorem readTrees_of_reads {cs : List Char} {trees : List TokenTree} {line after : Nat}
    (h : Reads cs line trees [] after) : readTrees (cs.length + 1) [] [] cs line = .ok trees := by
  obtain ⟨k, hk, hread⟩ := h
  obtain ⟨n, hn⟩ : ∃ n, cs.length + 1 = n + 1 + k := ⟨cs.length - k, by simp at hk; omega⟩
  rw [hn, hread (n + 1) [] [], List.append_nil, readTrees_nil, List.reverse_reverse]

/-! ## 3. What starts a token -/

theorem afterComment?_of_ne {c : Char} (h : c ≠ '/') (cs : List Char) (line : Nat) :
    afterComment? (c :: cs) line = none := by
  unfold afterComment?
  split <;> simp_all

theorem docComment?_of_ne {c : Char} (h : c ≠ '/') (cs : List Char) (line : Nat) :
    docComment? (c :: cs) line = none := by
  unfold docComment?
  split <;> simp_all

theorem afterText?_of_ne {c : Char} (h : c ≠ '(') (cs : List Char) :
    afterText? unreadable (c :: cs) = none := by
  have hfront : unreadable = '(' :: "/*ERROR*/)".toList := by decide
  rw [afterText?, if_neg]
  rw [hfront, List.isPrefixOf_cons_cons, Bool.and_eq_true, beq_iff_eq]
  exact fun e => h e.1.symm

theorem afterText?_paren {d : Char} (h : d ≠ '/') (cs : List Char) :
    afterText? unreadable ('(' :: d :: cs) = none := by
  have hfront : unreadable = '(' :: '/' :: "*ERROR*/)".toList := by decide
  rw [afterText?, if_neg]
  rw [hfront, List.isPrefixOf_cons_cons, List.isPrefixOf_cons_cons]
  simp only [Bool.and_eq_true, beq_iff_eq]
  exact fun e => h e.2.1.symm

theorem afterBlank?_of_not {c : Char} (h : c ≠ '/') (hb : isSourceBlank c = false)
    (cs : List Char) (line : Nat) : afterBlank? (c :: cs) line = none := by
  simp [afterBlank?, afterComment?_of_ne h, hb]

/-- A character that starts neither a comment nor what stands for an unreadable token. -/
theorem startsToken {c : Char} (hslash : c ≠ '/') (hparen : c ≠ '(')
    (hb : isSourceBlank c = false) (cs : List Char) (line : Nat) : StartsToken (c :: cs) line :=
  ⟨afterBlank?_of_not hslash hb cs line, docComment?_of_ne hslash cs line,
    afterText?_of_ne hparen cs⟩

theorem startsToken_paren {d : Char} (hd : d ≠ '/') (cs : List Char) (line : Nat) :
    StartsToken ('(' :: d :: cs) line :=
  ⟨afterBlank?_of_not (by decide) (by decide) _ line, docComment?_of_ne (by decide) _ line,
    afterText?_paren hd cs⟩

/-! ## 4. Blanks and delimiters -/

namespace Reads

variable {cs rest : List Char} {line after : Nat} {trees : List TokenTree}

/-- One blank. -/
theorem blank {c : Char} (hslash : c ≠ '/') (hb : isSourceBlank c = true) (cs : List Char)
    (line : Nat) : Reads (c :: cs) line [] cs (lineAfter c line) := by
  have hafter : afterBlank? (c :: cs) line = some (cs, lineAfter c line) := by
    simp [afterBlank?, afterComment?_of_ne hslash, hb]
  exact step (by simp) fun n frames done => readTrees_blank hafter

theorem space (cs : List Char) (line : Nat) : Reads (' ' :: cs) line [] cs line :=
  blank (by decide) (by decide) cs line

theorem newline (cs : List Char) (line : Nat) : Reads ('\n' :: cs) line [] cs (line + 1) :=
  blank (by decide) (by decide) cs line

/-- **A group is read as its content in its delimiters.** -/
theorem group {o c : Char} {d : Delimiter} (hopen : Delimiter.opened? o = some d)
    (hclose : Delimiter.opened? c = none) (hd : Delimiter.closed? c = some d)
    (ho : StartsToken (o :: cs) line) (hc : StartsToken (c :: rest) after)
    (h : Reads cs line trees (c :: rest) after) :
    Reads (o :: cs) line [.group d trees line after] rest after := by
  obtain ⟨k, hk, hread⟩ := h
  refine ⟨k + 2, by simp only [List.length_cons] at hk ⊢; omega, fun n frames done => ?_⟩
  have hfuel : n + (k + 2) = n + 1 + k + 1 := by omega
  rw [hfuel, readTrees_open ho hopen, hread, readTrees_close hc hclose hd, List.append_nil,
    List.reverse_reverse]
  rfl

theorem parens {d : Char} (hd : d ≠ '/') (h : Reads (d :: cs) line trees (')' :: rest) after) :
    Reads ('(' :: d :: cs) line [.group .paren trees line after] rest after :=
  group (by decide) (by decide) (by decide) (startsToken_paren hd cs line)
    (startsToken (by decide) (by decide) (by decide) rest after) h

theorem brackets (h : Reads cs line trees (']' :: rest) after) :
    Reads ('[' :: cs) line [.group .bracket trees line after] rest after :=
  group (by decide) (by decide) (by decide)
    (startsToken (by decide) (by decide) (by decide) cs line)
    (startsToken (by decide) (by decide) (by decide) rest after) h

theorem braces (h : Reads cs line trees ('\x7d' :: rest) after) :
    Reads ('\x7b' :: cs) line [.group .brace trees line after] rest after :=
  group (by decide) (by decide) (by decide)
    (startsToken (by decide) (by decide) (by decide) cs line)
    (startsToken (by decide) (by decide) (by decide) rest after) h

end Reads

/-! ## 5. Comments on one line -/

theorem cutLine_append {body : List Char} (h : ∀ d ∈ body, d ≠ '\n' ∧ d ≠ '\r')
    (rest : List Char) : cutLine (body ++ '\n' :: rest) = (body, '\n' :: rest) := by
  induction body with
  | nil => rfl
  | cons d tail ih =>
    obtain ⟨hn, hr⟩ := h d List.mem_cons_self
    have htail := ih fun d hd => h d (List.mem_cons_of_mem _ hd)
    rw [List.cons_append, cutLine]
    · rw [htail]
    · exact hn
    · exact fun _ e => absurd e hr

/-- A line comment that documents nothing is passed over up to the end of its line. -/
theorem Reads.lineComment {c : Char} (hslash : c ≠ '/') (hbang : c ≠ '!') {body : List Char}
    (h : ∀ d ∈ c :: body, d ≠ '\n' ∧ d ≠ '\r') (rest : List Char) (line : Nat) :
    Reads ('/' :: '/' :: (c :: body ++ '\n' :: rest)) line [] ('\n' :: rest) line := by
  have hcomment : afterComment? ('/' :: '/' :: (c :: body ++ '\n' :: rest)) line =
      some ('\n' :: rest, line) := by
    have hcut := congrArg Prod.snd (cutLine_append h rest)
    unfold afterComment?
    split <;> simp_all
  have hafter : afterBlank? ('/' :: '/' :: (c :: body ++ '\n' :: rest)) line =
      some ('\n' :: rest, line) := by
    rw [afterBlank?, hcomment]
  exact step (by simp; omega) fun n frames done => readTrees_blank hafter

theorem pairedReturns_of_notMem {cs : List Char} (h : '\r' ∉ cs) : pairedReturns cs = true := by
  induction cs with
  | nil => rfl
  | cons c tail ih =>
    rw [List.mem_cons, not_or] at h
    rw [pairedReturns]
    · simpa [Ne.symm h.1] using ih h.2
    · exact fun _ e => absurd e.symm h.1

/-- A line comment that documents what follows is read as the attribute it stands for. -/
theorem Reads.docComment {c : Char} (hslash : c ≠ '/') {body : List Char}
    (h : ∀ d ∈ c :: body, d ≠ '\n' ∧ d ≠ '\r') (rest : List Char) (line : Nat) :
    Reads ('/' :: '/' :: '/' :: (c :: body ++ '\n' :: rest)) line
      (DocComment.trees ⟨false, c :: body, '\n' :: rest, line⟩ line) ('\n' :: rest) line := by
  have hblank : afterBlank? ('/' :: '/' :: '/' :: (c :: body ++ '\n' :: rest)) line = none := by
    have hcomment : afterComment? ('/' :: '/' :: '/' :: (c :: body ++ '\n' :: rest)) line =
        none := by
      unfold afterComment?
      split <;> simp_all
      rename_i hne _ heq
      exact hne _ heq.symm
    rw [afterBlank?, hcomment]
    exact if_neg (by decide)
  have hpaired : pairedReturns (c :: body) = true :=
    pairedReturns_of_notMem fun hr => (h _ hr).2 rfl
  have hdoc : docComment? ('/' :: '/' :: '/' :: (c :: body ++ '\n' :: rest)) line =
      some ⟨false, c :: body, '\n' :: rest, line⟩ := by
    have hcut := cutLine_append h rest
    unfold docComment?
    split <;> simp_all [docComment?.ofLine]
  exact step (by simp; omega) fun n frames done => by
    simp only [readTrees, hblank, hdoc]

/-! ## 6. Signs -/

theorem quoted?_of_ne {c : Char} (h : c ∉ ['"', 'r', 'b', 'c', '\'']) (cs : List Char)
    (line : Nat) : quoted? (c :: cs) line = none := by
  unfold quoted?
  split <;> simp_all

theorem number?_of_not_digit {c : Char} (h : isDigit c = false) (cs : List Char) (line : Nat) :
    number? (c :: cs) line = none := by
  have hzero : c ≠ '0' := fun e => by
    rw [e] at h
    cases h
  have hwhole : whole? (c :: cs) = none := by
    unfold whole?
    split <;> simp_all
  have hfraction : fraction? (c :: cs) = none := by
    have hguard : (guard ((c :: cs).head?.any isDigit = true) : Option Unit) = none :=
      if_neg (by simp [h])
    rw [fraction?, hguard]
    rfl
  rw [number?, hfraction]
  simp [number?.integer, hwhole]

/-- A sign that is neither a slash nor a quote. -/
theorem Reads.sign {c : Char} (hc : c ∈ "~!@#$%^&*-=+|;:,<.>?".toList) (rest : List Char)
    (line : Nat) : Reads (c :: rest) line [.sign c (startsSign rest) line] rest line := by
  have hchars : ∀ d ∈ "~!@#$%^&*-=+|;:,<.>?".toList, d ≠ '/' ∧ d ≠ '(' ∧ d ≠ '\'' ∧
      isSourceBlank d = false ∧ Delimiter.opened? d = none ∧ Delimiter.closed? d = none ∧
      d ∉ ['"', 'r', 'b', 'c', '\''] ∧ isDigit d = false ∧ signChars.contains d = true :=
    List.all_iff_forall_prop.mp (by decide)
  obtain ⟨hslash, hparen, hquote, hblank, hopen, hclose, hquoted, hdigit, hsign⟩ := hchars c hc
  have hstarts : startsSign (c :: rest) = true := by
    unfold startsSign
    split <;> simp_all
  have hleaf : leaf? (c :: rest) line = some (.sign c (startsSign rest) line, rest, line) := by
    have hsigned : sign? (c :: rest) line = some (.sign c (startsSign rest) line, rest) := by
      unfold sign?
      rw [if_pos hstarts]
      split <;> simp_all
    rw [leaf?, quoted?_of_ne hquoted, number?_of_not_digit hdigit, hsigned]
  exact step (by simp) fun n frames done =>
    readTrees_leaf (startsToken hslash hparen hblank rest line) hopen hclose hleaf

/-! ## 7. Texts in quotes -/

theorem untilQuote?_append {inside : List Char} (h : ∀ d ∈ inside, d ≠ '"' ∧ d ≠ '\\')
    (rest : List Char) : untilQuote? (inside ++ '"' :: rest) = some (inside, rest) := by
  induction inside with
  | nil => rfl
  | cons d tail ih =>
    obtain ⟨hq, hb⟩ := h d List.mem_cons_self
    have htail := ih fun d hd => h d (List.mem_cons_of_mem _ hd)
    rw [List.cons_append, untilQuote?]
    · rw [htail]
      rfl
    · exact hq
    · exact fun _ _ e => absurd e hb

theorem decode?_chars {inside : List Char} (h : ∀ d ∈ inside, d ≠ '\\' ∧ d ≠ '\r') (n : Nat) :
    decode? .chars (inside.length + 1 + n) inside = some inside := by
  induction inside with
  | nil =>
    rw [List.length_nil, Nat.zero_add, Nat.add_comm, decode?]
  | cons d tail ih =>
    obtain ⟨hb, hr⟩ := h d List.mem_cons_self
    have htail := ih fun d hd => h d (List.mem_cons_of_mem _ hd)
    have hfuel : (d :: tail).length + 1 + n = tail.length + 1 + n + 1 := by
      simp only [List.length_cons]
      omega
    rw [hfuel, decode?]
    · rw [htail]
      simp [hr, TextForm.allows]
    · exact fun _ e => absurd e hr
    · exact hb

/-- A text without escapes stands for its characters. -/
theorem Reads.text {inside : List Char}
    (h : ∀ d ∈ inside, d ≠ '"' ∧ d ≠ '\\' ∧ d ≠ '\r' ∧ d ≠ '\n') {c : Char}
    (hc : isStart c = false) (rest : List Char) (line : Nat) :
    Reads ('"' :: (inside ++ '"' :: c :: rest)) line [.literal (.text (String.ofList inside)) line]
      (c :: rest) line := by
  have hquoted : quoted? ('"' :: (inside ++ '"' :: c :: rest)) line =
      some (.text (String.ofList inside), c :: rest, line) := by
    have huntil := untilQuote?_append (fun d hd => ⟨(h d hd).1, (h d hd).2.1⟩) (c :: rest)
    have hdecode := decode?_chars (fun d hd => ⟨(h d hd).2.1, (h d hd).2.2.1⟩) 0
    have hlines : lineAfterAll inside line = line := by
      rw [lineAfterAll, List.count_eq_zero.mpr fun hn => (h _ hn).2.2.2 rfl, Nat.add_zero]
    rw [Nat.add_zero] at hdecode
    simp [quoted?, plainText?, huntil, hdecode, hlines, TextForm.literal, afterLetters, hc]
  have hleaf : leaf? ('"' :: (inside ++ '"' :: c :: rest)) line =
      some (.literal (.text (String.ofList inside)) line, c :: rest, line) := by
    rw [leaf?, hquoted]
  exact step (by simp; omega) fun n frames done =>
    readTrees_leaf (startsToken (by decide) (by decide) (by decide) _ line) (by decide) (by decide)
      hleaf

/-! ## 8. Plain words -/

/-- Whether a text can be written as a plain word. -/
def spellsWord (text : String) : Bool :=
  match text.toList with
  | [] => false
  | c :: rest => isStart c && rest.all isContinue

theorem isContinue_of_isStart {c : Char} (h : isStart c = true) : isContinue c = true := by
  simp [isContinue, h]

/-- The first character of a word and the others. -/
theorem exists_cons_of_spellsWord {text : String} (h : spellsWord text = true) :
    ∃ c tail, text.toList = c :: tail ∧ isStart c = true ∧ ∀ d ∈ tail, isContinue d = true := by
  unfold spellsWord at h
  split at h
  · cases h
  · rename_i c tail e
    rw [Bool.and_eq_true, List.all_eq_true] at h
    exact ⟨c, tail, e, h⟩

/-- The plain word with this text. -/
def plainWord (text : String) (h : spellsWord text = true) : Identifier where
  chars := text.toList
  raw := false
  nonempty := by
    obtain ⟨c, tail, e, -⟩ := exists_cons_of_spellsWord h
    rw [e]
    exact List.cons_ne_nil _ _
  continues := by
    obtain ⟨c, tail, e, hc, htail⟩ := exists_cons_of_spellsWord h
    rw [e]
    intro d hd
    rcases List.mem_cons.mp hd with rfl | hd
    · exact isContinue_of_isStart hc
    · exact htail d hd

@[simp] theorem text_plainWord {text : String} (h : spellsWord text = true) :
    (plainWord text h).text = text := String.ofList_toList

@[simp] theorem isWord_plainWord {text : String} (h : spellsWord text = true) (word : String) :
    (plainWord text h).isWord word = (text == word) := by
  simp [Identifier.isWord, plainWord, Identifier.text]

theorem isName_plainWord {text : String} (h : spellsWord text = true) :
    isName (plainWord text h) = !reservedWords.contains text := by
  simp [isName, plainWord, Identifier.text]

/-- No quote and no number sign is at the front. -/
def Unquoted (cs : List Char) : Prop := ∀ d ∈ cs.head?, d ∉ ['"', '#', '\'']

/-- What ends a plain word: nothing that continues it, and nothing that makes it a literal. -/
structure EndsWord (rest : List Char) : Prop where
  atEnd : atWordEnd rest = true
  unquoted : Unquoted rest

/-- The numbers of the characters that are blanks of a source text. -/
def blankNumbers : List Nat :=
  [0x09, 0x0A, 0x0B, 0x0C, 0x0D, 0x20, 0x85, 0xA0, 0x1680, 0x2000, 0x2001, 0x2002, 0x2003, 0x2004,
    0x2005, 0x2006, 0x2007, 0x2008, 0x2009, 0x200A, 0x200E, 0x200F, 0x2028, 0x2029, 0x202F, 0x205F,
    0x3000]

theorem isSourceBlank_of_isStart {c : Char} (h : isStart c = true) : isSourceBlank c = false := by
  cases hb : isSourceBlank c with
  | false => rfl
  | true =>
    have hmem : c.toNat ∈ blankNumbers := by
      unfold blankNumbers
      simp only [isSourceBlank, isBlank, Bool.or_eq_true, Bool.and_eq_true, decide_eq_true_eq,
        beq_iff_eq] at hb
      simp only [List.mem_cons, List.not_mem_nil, or_false]
      omega
    have hnumbers : ∀ n ∈ blankNumbers, isStart (Char.ofNat n) = false := by decide +kernel
    have hc := hnumbers _ hmem
    rw [Char.ofNat_toNat, h] at hc
    cases hc

theorem isDigit_of_isStart {c : Char} (h : isStart c = true) : isDigit c = false := by
  cases hd : isDigit c with
  | false => rfl
  | true =>
    have hmem : c.toNat ∈ List.range' 48 10 := by
      simp only [isDigit, Bool.and_eq_true, decide_eq_true_eq, Char.le_def,
        UInt32.le_iff_toNat_le] at hd
      rw [List.mem_range'_1]
      exact ⟨hd.1, Nat.lt_of_le_of_lt hd.2 (by decide)⟩
    have hnumbers : ∀ n ∈ List.range' 48 10, isStart (Char.ofNat n) = false := by decide
    have hc := hnumbers _ hmem
    rw [Char.ofNat_toNat, h] at hc
    cases hc

/-- What a character that starts a word does not start. -/
structure StartChar (c : Char) : Prop where
  ne_slash : c ≠ '/'
  ne_paren : c ≠ '('
  not_opening : Delimiter.opened? c = none
  not_closing : Delimiter.closed? c = none
  not_sign : signChars.contains c = false
  not_digit : isDigit c = false
  not_blank : isSourceBlank c = false

theorem startChar_of_isStart {c : Char} (h : isStart c = true) : StartChar c := by
  have hmarks : ∀ d ∈ "()[]\x7b\x7d".toList ++ signChars, isStart d = false :=
    List.all_iff_forall_prop.mp (by decide)
  have hne : ∀ d ∈ "()[]\x7b\x7d".toList ++ signChars, c ≠ d := by
    intro d hd e
    rw [e, hmarks d hd] at h
    cases h
  refine ⟨hne '/' (by decide), hne '(' (by decide), ?_, ?_, ?_, isDigit_of_isStart h,
    isSourceBlank_of_isStart h⟩
  · simp [Delimiter.opened?, hne '(' (by decide), hne '[' (by decide), hne '\x7b' (by decide)]
  · simp [Delimiter.closed?, hne ')' (by decide), hne ']' (by decide), hne '\x7d' (by decide)]
  · rw [← Bool.not_eq_true, List.contains_iff_mem]
    exact fun hmem => hne c (List.mem_append_right _ hmem) rfl

theorem startsSign_of_isStart {c : Char} (h : isStart c = true) (cs : List Char) :
    startsSign (c :: cs) = false := by
  have hc := startChar_of_isStart h
  unfold startsSign
  split <;> rename_i heq
  · exact absurd (List.cons.inj heq).1 hc.ne_slash
  · exact absurd (List.cons.inj heq).1 hc.ne_slash
  · cases heq
    exact hc.not_sign
  · rfl

theorem rawText?_of_unquoted {form : TextForm} {cs : List Char} (h : Unquoted cs) (line : Nat) :
    rawText? form cs line = none := by
  cases cs with
  | nil => simp [rawText?]
  | cons d tail =>
    have hd := h d rfl
    simp only [List.mem_cons, List.not_mem_nil, or_false, not_or] at hd
    simp [rawText?, hd]

/-- A letter starts no literal where neither it nor an `r` behind it stands before a quote. -/
theorem quoted?_of_unquoted {c : Char} {cs : List Char} (hc : isStart c = true) (h : Unquoted cs)
    (h' : ∀ more, cs = 'r' :: more → Unquoted more) (line : Nat) :
    quoted? (c :: cs) line = none := by
  unfold quoted?
  split
  all_goals first
    | rfl
    | (rename_i e; cases e; first
        | exact absurd hc (by decide)
        | exact rawText?_of_unquoted h line
        | exact rawText?_of_unquoted (h' _ rfl) line
        | exact absurd (h _ rfl) (by decide))

theorem startsQuoted_of_unquoted {c : Char} {cs : List Char} (h : Unquoted cs)
    (h' : ∀ more, cs = 'r' :: more → Unquoted more) : startsQuoted (c :: cs) = false := by
  unfold startsQuoted
  split
  all_goals first
    | rfl
    | (rename_i e; cases e; first
        | exact absurd (h _ rfl) (by decide)
        | exact absurd (h' _ rfl _ rfl) (by decide))

theorem takeWhile_append_of_endsWord {tail rest : List Char}
    (htail : ∀ d ∈ tail, isContinue d = true) (hrest : EndsWord rest) :
    (tail ++ rest).takeWhile isContinue = tail ∧ (tail ++ rest).dropWhile isContinue = rest := by
  have hnone : rest.takeWhile isContinue = [] ∧ rest.dropWhile isContinue = rest := by
    cases rest with
    | nil => exact ⟨rfl, rfl⟩
    | cons d more =>
      have hd : isContinue d = false := by simpa [atWordEnd] using hrest.atEnd
      simp [hd]
  rw [List.takeWhile_append_of_pos htail, List.dropWhile_append_of_pos htail, hnone.1, hnone.2,
    List.append_nil]
  exact ⟨rfl, rfl⟩

theorem unquoted_of_isContinue {d : Char} (h : isContinue d = true) (more : List Char) :
    Unquoted (d :: more) := by
  have hquotes : ∀ q ∈ ['"', '#', '\''], isContinue q = false :=
    List.all_iff_forall_prop.mp (by decide)
  intro q hq hmem
  cases hq
  rw [hquotes _ hmem] at h
  cases h

/-- Behind the first character of a word stands no quote, nor behind a second one. -/
theorem unquoted_append {tail rest : List Char} (htail : ∀ d ∈ tail, isContinue d = true)
    (hrest : EndsWord rest) :
    Unquoted (tail ++ rest) ∧ ∀ d more, isContinue d = true → tail ++ rest = d :: more →
      Unquoted more := by
  cases tail with
  | nil =>
    refine ⟨hrest.unquoted, fun d more hd e => ?_⟩
    have hend := hrest.atEnd
    rw [List.nil_append] at e
    rw [e, atWordEnd, hd] at hend
    cases hend
  | cons d tail =>
    refine ⟨unquoted_of_isContinue (htail d List.mem_cons_self) _, fun d' more _ e => ?_⟩
    obtain ⟨-, rfl⟩ := List.cons.inj e
    cases tail with
    | nil => exact hrest.unquoted
    | cons d'' tail => exact unquoted_of_isContinue (htail d'' (by simp)) _

/-- The word at the front is the one with these characters. -/
theorem anyWord?_append {text : String} (h : spellsWord text = true) {rest : List Char}
    (hrest : EndsWord rest) : anyWord? (text.toList ++ rest) = some (plainWord text h, rest) := by
  obtain ⟨c, tail, e, hc, htail⟩ := exists_cons_of_spellsWord h
  obtain ⟨htake, hdrop⟩ := takeWhile_append_of_endsWord htail hrest
  obtain ⟨hfirst, -⟩ := unquoted_append htail hrest
  have hnamed : anyWord?.named false (c :: (tail ++ rest)) = some (plainWord text h, rest) := by
    have hchars : c :: tail ≠ [] ∧ (c :: tail).all isContinue = true :=
      ⟨List.cons_ne_nil _ _, by simpa [isContinue_of_isStart hc] using htail⟩
    rw [anyWord?.named, if_pos hc, htake, hdrop, Identifier.ofChars?, dif_pos hchars]
    simp [plainWord, e]
  rw [e, List.cons_append]
  unfold anyWord?
  split
  · rename_i heq
    obtain ⟨-, heq⟩ := List.cons.inj heq
    rw [heq] at hfirst
    exact absurd (hfirst '#' rfl) (by decide)
  · exact hnamed

/-- **A plain word is read as a word**, where nothing follows that continues it. -/
theorem Reads.word {text : String} (h : spellsWord text = true) {rest : List Char}
    (hrest : EndsWord rest) (line : Nat) :
    Reads (text.toList ++ rest) line [.word (plainWord text h) line] rest line := by
  have hword := anyWord?_append h hrest
  obtain ⟨c, tail, e, hc, htail⟩ := exists_cons_of_spellsWord h
  obtain ⟨hfirst, hsecond⟩ := unquoted_append htail hrest
  have hbehind : ∀ more, tail ++ rest = 'r' :: more → Unquoted more :=
    fun more => hsecond 'r' more (by decide)
  rw [e, List.cons_append] at hword ⊢
  have hc' := startChar_of_isStart hc
  have hsign : sign? (c :: (tail ++ rest)) line = none := by
    unfold sign?
    rw [startsSign_of_isStart hc, if_neg Bool.false_ne_true]
  have hleaf : leaf? (c :: (tail ++ rest)) line =
      some (.word (plainWord text h) line, rest, line) := by
    rw [leaf?, quoted?_of_unquoted hc hfirst hbehind, number?_of_not_digit hc'.not_digit, hsign,
      word?, startsQuoted_of_unquoted hfirst hbehind, if_neg Bool.false_ne_true, hword]
    rfl
  have hlength : rest.length < (c :: (tail ++ rest)).length := by
    simp only [List.length_cons, List.length_append]
    omega
  exact step hlength fun n frames done =>
    readTrees_leaf (startsToken hc'.ne_slash hc'.ne_paren hc'.not_blank _ line) hc'.not_opening
      hc'.not_closing hleaf

end LogMarkers.Source
