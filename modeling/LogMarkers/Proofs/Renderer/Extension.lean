import LogMarkers.Proofs.Source.ImplBlock
import LogMarkers.Proofs.Text.PathNames
import LogMarkers.Renderer
import LogMarkers.Scope.Basic

/-!
# Extensions can be read back

The text of an extension is cut into the trees of an attribute and of a block
(`treesOf_extension`), which are read as one `impl` of the owner, as long as the names in it are
ordinary words (`itemsOf_extension`).

* `reads_printingMethod`, `reads_joinLines`: a method and the methods of a block;
* `reads_ownerPath`: the path to the owner;
* `reads_block`: the block.
-/

namespace LogMarkers

open Text Source

namespace Source

theorem endsWord_cons {c : Char} (h : isContinue c = false ∧ c ∉ ['"', '#', '\''])
    (rest : List Char) : EndsWord (c :: rest) := by
  refine ⟨by simp [atWordEnd, h.1], fun d hd => ?_⟩
  cases hd
  exact h.2

/-- An ordinary text is a name of a path. -/
theorem IsOrdinary.isName {text : String} (h : IsOrdinary text) : PathText.IsName text := by
  have hword := h.word.isName_text
  rwa [text_plainWord] at hword

end Source

namespace Renderer

/-! ## 1. Methods -/

/-- A text that stands for itself in quotes, on one line. -/
def IsLine (text : String) : Prop :=
  ∀ d ∈ text.toList, d ≠ '"' ∧ d ≠ '\\' ∧ d ≠ '\r' ∧ d ≠ '\n'

theorem quoteMarks_of_notMem {cs : List Char} (h : '"' ∉ cs) : quoteMarks cs = cs := by
  induction cs with
  | nil => rfl
  | cons c rest ih =>
    rw [List.mem_cons, not_or] at h
    rw [quoteMarks, if_neg (Ne.symm h.1), ih h.2]

/-- Four spaces. -/
theorem reads_indent (rest : List Char) (l : Nat) :
    Reads (' ' :: ' ' :: ' ' :: ' ' :: rest) l [] rest l :=
  (Reads.space _ l).trans ((Reads.space _ l).trans ((Reads.space _ l).trans (Reads.space _ l)))

/-- The statement that prints a line. -/
theorem reads_print {message : String} (hm : IsLine message) (rest : List Char) (l : Nat) :
    Reads ("println".toList ++ '!' :: '(' :: '"' ::
        (message.toList ++ '"' :: ')' :: ';' :: '\n' :: rest)) l
      (Grammar.printTrees message l) ('\n' :: rest) l := by
  have htext := Reads.text hm (c := ')') (by decide) (';' :: '\n' :: rest) l
  rw [String.ofList_toList] at htext
  exact (Reads.word (by decide) (endsWord_cons (by decide) _) l).trans
    ((Reads.sign (by decide) _ l).trans
      ((Reads.parens (by decide) htext).trans (Reads.sign (by decide) ('\n' :: rest) l)))

/-- The receiver in its parentheses. -/
theorem reads_receiver (rest : List Char) (l : Nat) :
    Reads ('(' :: '&' :: ("self".toList ++ ')' :: rest)) l
      [.group .paren (Grammar.receiverTrees l) l l] rest l :=
  Reads.parens (by decide) ((Reads.sign (by decide) _ l).trans
    (Reads.word (by decide) (endsWord_cons (by decide) _) l))

/-- **A printing method is cut into the trees of a method.** -/
theorem reads_printingMethod {ident : String} (hi : spellsWord ident = true) {message : String}
    (hm : IsLine message) (rest : List Char) (l : Nat) :
    Reads ((printingMethod ident message).toList ++ rest) l
      (Grammar.methodTrees (plainWord ident hi) message l) rest (l + 3) := by
  have hquotes : quoteMarks message.toList = message.toList :=
    quoteMarks_of_notMem fun h => (hm _ h).1 rfl
  have hchars : (printingMethod ident message).toList ++ rest =
      ' ' :: ' ' :: ' ' :: ' ' :: ("pub".toList ++ ' ' :: ("fn".toList ++ ' ' :: (ident.toList ++
        '(' :: '&' :: ("self".toList ++ ')' :: ' ' :: '\x7b' :: '\n' ::
        ' ' :: ' ' :: ' ' :: ' ' :: ' ' :: ' ' :: ' ' :: ' ' ::
        ("println".toList ++ '!' :: '(' :: '"' :: (message.toList ++ '"' :: ')' :: ';' :: '\n' ::
        ' ' :: ' ' :: ' ' :: ' ' :: '\x7d' :: '\n' :: rest)))))) := by
    simp [printingMethod, hquotes]
  rw [hchars]
  have hbody := Reads.braces ((Reads.newline _ l).trans ((reads_indent _ (l + 1)).trans
    ((reads_indent _ (l + 1)).trans ((reads_print hm _ (l + 1)).trans
      ((Reads.newline _ (l + 1)).trans (reads_indent ('\x7d' :: '\n' :: rest) (l + 2)))))))
  have hword : ∀ {text : String} (h : spellsWord text = true) (cs : List Char),
      Reads (text.toList ++ ' ' :: cs) l [.word (plainWord text h) l] cs l := fun h cs =>
    (Reads.word h (endsWord_cons (by decide) _) l).trans (Reads.space cs l)
  exact (reads_indent _ l).trans ((hword (by decide) _).trans ((hword (by decide) _).trans
    ((Reads.word hi (endsWord_cons (by decide) _) l).trans ((reads_receiver _ l).trans
      ((Reads.space _ l).trans (hbody.trans (Reads.newline rest (l + 2))))))))

/-- A method as a renderer is asked for it: the name and the line it prints. -/
structure MethodText where
  ident : String
  message : String

/-- The name is an ordinary word, and the message stands for itself in quotes. -/
structure MethodText.IsPlain (t : MethodText) : Prop where
  ident : IsOrdinary t.ident
  message : IsLine t.message

/-- The text of the method. -/
def MethodText.text (t : MethodText) : String := printingMethod t.ident t.message

theorem MethodText.text_ne_empty (t : MethodText) : t.text ≠ "" := by
  intro e
  have hchars := congrArg String.toList e
  simp [MethodText.text, printingMethod] at hchars

/-- **Printing methods are cut into the trees of methods**, each of its name. -/
theorem reads_joinLines {texts : List MethodText} (h : ∀ t ∈ texts, t.IsPlain) (rest : List Char)
    (l : Nat) :
    ∃ (methods : List Grammar.Printed) (e : Nat), methods.length = texts.length ∧
      (∀ p ∈ methods, isName p.name = true) ∧
      Reads ((joinLines (texts.map (·.text))).toList ++ rest) l (Grammar.methodsTrees methods)
        rest e := by
  induction texts generalizing l with
  | nil => exact ⟨[], l, rfl, by simp, Reads.refl rest l⟩
  | cons t more ih =>
    have ht := h t List.mem_cons_self
    have hname : isName ht.ident.word = true := by
      simp [isName_plainWord, ht.ident.unreserved]
    obtain ⟨methods, e, hlength, hnames, hmore⟩ :=
      ih (fun t' ht' => h t' (List.mem_cons_of_mem _ ht')) (l + 4)
    cases more with
    | nil =>
      refine ⟨[⟨ht.ident.word, t.message, l⟩], l + 3, rfl, by simpa using hname, ?_⟩
      exact reads_printingMethod ht.ident.spells ht.message rest l
    | cons t' more =>
      refine ⟨⟨ht.ident.word, t.message, l⟩ :: methods, e, by simp [hlength], ?_, ?_⟩
      · simpa [hname] using hnames
      · have hchars : (joinLines ((t :: t' :: more).map (·.text))).toList ++ rest =
            t.text.toList ++ '\n' :: ((joinLines ((t' :: more).map (·.text))).toList ++ rest) := by
          simp [joinLines]
        rw [hchars]
        exact (reads_printingMethod ht.ident.spells ht.message _ l).trans
          ((Reads.newline _ (l + 3)).trans hmore)

/-! ## 2. Paths -/

/-- The characters behind the first name of a path. -/
def moreChars (names : List String) : List Char :=
  names.flatMap fun name => ':' :: ':' :: name.toList

theorem toList_join (first : String) (names : List String) :
    (PathText.join (first :: names)).toList = first.toList ++ moreChars names := by
  induction names generalizing first with
  | nil => simp [moreChars]
  | cons name names ih =>
    rw [PathText.join_cons_cons, String.toList_append, String.toList_append, ih]
    simp [moreChars]

theorem endsWord_moreChars (names : List String) (rest : List Char) :
    EndsWord (moreChars names ++ ' ' :: rest) := by
  cases names <;> exact endsWord_cons (by decide) _

/-- The names behind the first one are cut into the trees of these names. -/
theorem reads_moreChars {names : List String} (h : ∀ n ∈ names, IsOrdinary n) (rest : List Char)
    (l : Nat) :
    ∃ idents : List Identifier, idents.map (·.text) = names ∧ (∀ i ∈ idents, isName i = true) ∧
      Reads (moreChars names ++ ' ' :: rest) l (Grammar.moreTrees l idents) (' ' :: rest) l := by
  induction names with
  | nil => exact ⟨[], rfl, by simp, Reads.refl _ l⟩
  | cons name names ih =>
    have hname := h name List.mem_cons_self
    obtain ⟨idents, htexts, hidents, hmore⟩ := ih fun n hn => h n (List.mem_cons_of_mem _ hn)
    refine ⟨hname.word :: idents, by simp [htexts], ?_, ?_⟩
    · simpa [isName_plainWord, hname.unreserved] using hidents
    · have hchars : moreChars (name :: names) ++ ' ' :: rest =
          ':' :: ':' :: (name.toList ++ (moreChars names ++ ' ' :: rest)) := by
        simp [moreChars]
      -- the second colon is the last sign before the name
      have hlast : startsSign (name.toList ++ (moreChars names ++ ' ' :: rest)) = false := by
        obtain ⟨c, tail, e, hc, -⟩ := exists_cons_of_spellsWord hname.spells
        rw [e]
        exact startsSign_of_isStart hc _
      have hcolon := Reads.sign (c := ':') (by decide)
        (name.toList ++ (moreChars names ++ ' ' :: rest)) l
      rw [hlast] at hcolon
      rw [hchars]
      exact (Reads.sign (by decide) _ l).trans (hcolon.trans
        ((Reads.word hname.spells (endsWord_moreChars names rest) l).trans hmore))

/-- The names by which generated code leads to an owner. -/
def ownerNames (names : List String) (owner : String) : List String :=
  if names = [] then [owner] else crateWord :: (names ++ [owner])

theorem ownerPath_join {names : List String} (h : ∀ n ∈ names, PathText.IsName n)
    (owner : String) :
    ownerPath (PathText.join names) owner = PathText.join (ownerNames names owner) := by
  unfold ownerPath ownerNames
  by_cases hne : names = []
  · rw [if_pos hne, hne]
    rfl
  · obtain ⟨name, rest, e⟩ := List.exists_cons_of_ne_nil
      (List.append_ne_nil_of_left_ne_nil hne [owner])
    have hcrate : "crate::" = crateWord ++ "::" := by decide
    rw [if_neg hne, if_neg (PathText.join_ne_empty hne h), e, PathText.join_cons_cons, ← e,
      PathText.join_append_singleton hne, hcrate]
    simp only [String.append_assoc]

/-- **The path to an owner is cut into the trees of its names.** -/
theorem reads_ownerPath {names : List String} (hnames : ∀ n ∈ names, IsOrdinary n)
    {owner : String} (howner : IsOrdinary owner) (rest : List Char) (l : Nat) :
    ∃ (first : Identifier) (more : List Identifier),
      (first :: more).map (·.text) = ownerNames names owner ∧
      (isName first = true ∨ first.isWord "crate" = true) ∧ (∀ i ∈ more, isName i = true) ∧
      Reads ((PathText.join (ownerNames names owner)).toList ++ ' ' :: rest) l
        (Grammar.pathTrees l first more) (' ' :: rest) l := by
  unfold ownerNames
  split
  · refine ⟨howner.word, [], by simp, .inl ?_, by simp, ?_⟩
    · simp [isName_plainWord, howner.unreserved]
    · exact Reads.word howner.spells (endsWord_cons (by decide) _) l
  · have hall : ∀ n ∈ names ++ [owner], IsOrdinary n := by
      simpa [or_imp, forall_and, howner] using hnames
    obtain ⟨idents, htexts, hidents, hmore⟩ := reads_moreChars hall rest l
    have hcrate : spellsWord crateWord = true := by decide
    refine ⟨plainWord crateWord hcrate, idents, by simp [htexts], .inr ?_, hidents, ?_⟩
    · simp [crateWord]
    · rw [toList_join, List.append_assoc]
      exact (Reads.word hcrate (endsWord_moreChars _ _) l).trans hmore

/-! ## 3. Extensions -/

/-- A line with a comment. -/
theorem reads_comment (text : String)
    (h : (text.toList.all fun d => decide (d ≠ '\n' ∧ d ≠ '\r')) = true) (rest : List Char)
    (l : Nat) :
    Reads ('/' :: '/' :: (' ' :: text.toList ++ '\n' :: rest)) l [] rest (l + 1) := by
  have hchars : ∀ d ∈ ' ' :: text.toList, d ≠ '\n' ∧ d ≠ '\r' :=
    List.forall_mem_cons.mpr ⟨by decide, List.all_iff_forall_prop.mp h⟩
  exact (Reads.lineComment (by decide) (by decide) hchars rest l).trans (Reads.newline rest l)

/-- The attribute. -/
theorem reads_allow (rest : List Char) (l : Nat) :
    Reads ("#[allow(non_snake_case, dead_code)]".toList ++ rest) l (Grammar.allowTrees l) rest
      l := by
  have hchars : "#[allow(non_snake_case, dead_code)]".toList ++ rest =
      '#' :: '[' :: ("allow".toList ++ '(' :: ("non_snake_case".toList ++ ',' :: ' ' ::
        ("dead_code".toList ++ ')' :: ']' :: rest))) := by
    simp
  have harguments : Reads ("non_snake_case".toList ++ ',' :: ' ' ::
      ("dead_code".toList ++ ')' :: ']' :: rest)) l
      [.word (plainWord "non_snake_case" (by decide)) l, .sign ',' false l,
        .word (plainWord "dead_code" (by decide)) l] (')' :: ']' :: rest) l :=
    (Reads.word (by decide) (endsWord_cons (by decide) _) l).trans
      ((Reads.sign (by decide) _ l).trans ((Reads.space _ l).trans
        (Reads.word (by decide) (endsWord_cons (by decide) _) l)))
  rw [hchars]
  exact (Reads.sign (by decide) _ l).trans (Reads.brackets
    ((Reads.word (by decide) (endsWord_cons (by decide) _) l).trans
      (Reads.parens (by decide) harguments)))

/-- The block of a path with printing methods, up to the end of the text. -/
theorem reads_block {names : List String} (hnames : ∀ n ∈ names, IsOrdinary n) {owner : String}
    (howner : IsOrdinary owner) {texts : List MethodText} (h : ∀ t ∈ texts, t.IsPlain) (l : Nat) :
    ∃ first more methods e after, (first :: more).map (·.text) = ownerNames names owner ∧
      (isName first = true ∨ first.isWord "crate" = true) ∧ (∀ i ∈ more, isName i = true) ∧
      methods.length = texts.length ∧ (∀ p ∈ methods, isName p.name = true) ∧
      Reads ("impl".toList ++ ' ' :: ((PathText.join (ownerNames names owner)).toList ++
        ' ' :: '\x7b' :: '\n' :: ((joinLines (texts.map (·.text))).toList ++ ['\x7d', '\n']))) l
        (Grammar.blockTrees l first more methods e) [] after := by
  obtain ⟨methods, e, hlength, hmethods, hread⟩ := reads_joinLines h ['\x7d', '\n'] (l + 1)
  obtain ⟨first, more, htexts, hfirst, hmore, hpath⟩ := reads_ownerPath hnames howner
    ('\x7b' :: '\n' :: ((joinLines (texts.map (·.text))).toList ++ ['\x7d', '\n'])) l
  refine ⟨first, more, methods, e, e + 1, htexts, hfirst, hmore, hlength, hmethods, ?_⟩
  have hblock := (Reads.braces ((Reads.newline _ l).trans hread)).trans (Reads.newline [] e)
  exact (Reads.word (by decide) (endsWord_cons (by decide) _) l).trans ((Reads.space _ l).trans
    (hpath.trans ((Reads.space _ l).trans hblock)))

/-- The characters of an extension. -/
theorem toList_extension (space owner : String) (snippets : List Snippet) :
    (standard.extension space owner snippets).toList =
      '/' :: '/' :: (' ' :: "<auto-generated/>".toList ++ '\n' ::
        '/' :: '/' :: (' ' :: "Generated by autolog. Do not edit.".toList ++ '\n' :: '\n' ::
          ("#[allow(non_snake_case, dead_code)]".toList ++ '\n' ::
            ("impl".toList ++ ' ' :: ((ownerPath space owner).toList ++ ' ' :: '\x7b' :: '\n' ::
              ((joinLines (snippets.map (·.text))).toList ++ ['\x7d', '\n'])))))) := by
  simp [standard, header]

/-- **An extension is cut into the trees of the attribute and of the block of its owner.** -/
theorem treesOf_extension {names : List String} (hnames : ∀ n ∈ names, IsOrdinary n)
    {owner : String} (howner : IsOrdinary owner) {snippets : List Snippet}
    {texts : List MethodText} (hsnippets : snippets.map (·.text) = texts.map (·.text))
    (h : ∀ t ∈ texts, t.IsPlain) :
    ∃ first more methods e, (first :: more).map (·.text) = ownerNames names owner ∧
      (isName first = true ∨ first.isWord "crate" = true) ∧ (∀ i ∈ more, isName i = true) ∧
      methods.length = texts.length ∧ (∀ p ∈ methods, isName p.name = true) ∧
      treesOf (standard.extension (PathText.join names) owner snippets) =
        .ok (Grammar.allowTrees 4 ++ Grammar.blockTrees 5 first more methods e) := by
  obtain ⟨first, more, methods, e, after, htexts, hfirst, hmore, hlength, hmethods, hblock⟩ :=
    reads_block hnames howner h 5
  refine ⟨first, more, methods, e, htexts, hfirst, hmore, hlength, hmethods, ?_⟩
  have hread := (reads_comment "<auto-generated/>" (by decide) _ 1).trans
    ((reads_comment "Generated by autolog. Do not edit." (by decide) _ 2).trans
      ((Reads.newline _ 3).trans ((reads_allow _ 4).trans ((Reads.newline _ 4).trans hblock))))
  have hstart := readTrees_of_reads hread
  unfold treesOf
  rw [toList_extension, hsnippets, ownerPath_join fun n hn => (hnames n hn).isName]
  exact hstart

theorem length_le_length_moreChars (names : List String) :
    names.length ≤ (moreChars names).length := by
  induction names with
  | nil => exact Nat.le_refl 0
  | cons name names ih =>
    have hchars : moreChars (name :: names) = ':' :: ':' :: (name.toList ++ moreChars names) := rfl
    rw [hchars]
    simp only [List.length_cons, List.length_append]
    omega

theorem length_le_length_joinLines (texts : List MethodText) :
    texts.length ≤ (joinLines (texts.map (·.text))).toList.length := by
  induction texts with
  | nil => exact Nat.zero_le _
  | cons t more ih =>
    have ht : 0 < t.text.toList.length := List.length_pos_iff.mpr fun e =>
      t.text_ne_empty (String.toList_injective e)
    cases more with
    | nil => exact ht
    | cons t' more =>
      simp only [List.map_cons, joinLines, String.toList_append, List.length_append,
        List.length_cons] at ih ⊢
      omega

/-- **An extension is read as one `impl` of its owner**, by the names that lead there. -/
theorem itemsOf_extension {names : List String} (hnames : ∀ n ∈ names, IsOrdinary n)
    {owner : String} (howner : IsOrdinary owner) {snippets : List Snippet}
    {texts : List MethodText} (hsnippets : snippets.map (·.text) = texts.map (·.text))
    (h : ∀ t ∈ texts, t.IsPlain) :
    ∃ path line attributes members,
      itemsOf (standard.extension (PathText.join names) owner snippets) =
        .ok [.impl (some path) line attributes members] ∧
      path.written = ⟨ownerNames names owner, false⟩ := by
  obtain ⟨first, more, methods, e, htexts, hfirst, hmore, hlength, hmethods, htrees⟩ :=
    treesOf_extension hnames howner hsnippets h
  have hfuel : more.length + methods.length + 4 ≤
      4 * (standard.extension (PathText.join names) owner snippets).length + 16 := by
    have hpath : more.length ≤ (PathText.join (ownerNames names owner)).toList.length := by
      rw [← htexts, List.map_cons, toList_join, List.length_append]
      have hchars := length_le_length_moreChars (more.map (·.text))
      rw [List.length_map] at hchars
      omega
    have hlines := length_le_length_joinLines texts
    rw [← String.length_toList, toList_extension, hsnippets,
      ownerPath_join fun n hn => (hnames n hn).isName]
    simp only [List.length_cons, List.length_append]
    omega
  have hitems := Grammar.run_fileItems hfirst hmore hmethods hfuel 4 5 e 1
  refine ⟨⟨false, first :: more⟩, 5, [.plain ⟨false, [Grammar.isOrdinary_allow.word]⟩],
    methods.map Grammar.Printed.member, ?_, ?_⟩
  · unfold itemsOf
    rw [htrees]
    simp only [bind, Except.bind, hitems]
    rfl
  · simp [SourcePath.written, ← htexts]

end Renderer

end LogMarkers
