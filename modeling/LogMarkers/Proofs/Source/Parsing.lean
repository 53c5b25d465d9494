import LogMarkers.Proofs.Source.Reading
import LogMarkers.Source.File

/-!
# Running parsers

What a parser does at a cursor, for the steps that parsers are made of, and for the parts of the
grammar that generated code needs. A parser is run by rewriting with these equations: those of the
first section say what single steps do, and the questions about the front are answered by their
definitions, since the trees at the front are known.

* `run_outerAttributes_nil`, `run_simplePath_word`: nothing to take, and a single word;
* `run_typeBody_path`: the names of a path with separators between are read as this path;
* `run_earlyExpr_of_atom`: an operand alone is read as an expression.
-/

namespace LogMarkers.Source

namespace Parser

/-! ## 1. Steps -/

section Steps

variable {α β : Type}

@[simp] theorem run_pure (a : α) (c : Cursor) : (pure a : Parser α) c = .ok (a, c) := rfl

@[simp] theorem run_bind (p : Parser α) (f : α → Parser β) (c : Cursor) :
    (p >>= f) c = match p c with
      | .ok (a, after) => f a after
      | .error line => .error line := by
  show (p c >>= fun x => f x.1 x.2) = _
  cases p c <;> rfl

@[simp] theorem run_map (f : α → β) (p : Parser α) (c : Cursor) :
    (f <$> p) c = match p c with
      | .ok (a, after) => .ok (f a, after)
      | .error line => .error line := by
  show (p c >>= fun x => Except.ok (f x.1, x.2)) = _
  cases p c <;> rfl

@[simp] theorem run_discard (p : Parser α) (c : Cursor) :
    (discard p : Parser Unit) c = match p c with
      | .ok (_, after) => .ok ((), after)
      | .error line => .error line := by
  show (p c >>= fun x => Except.ok ((), x.2)) = _
  cases p c <;> rfl

@[simp] theorem run_ite (b : Prop) [Decidable b] (p q : Parser α) (c : Cursor) :
    (if b then p else q) c = if b then p c else q c := by
  split <;> rfl

@[simp] theorem run_get (c : Cursor) : (get : Parser Cursor) c = .ok (c, c) := rfl

@[simp] theorem run_set (c c' : Cursor) : (set c' : Parser PUnit) c = .ok ((), c') := rfl

@[simp] theorem run_modify (f : Cursor → Cursor) (c : Cursor) :
    (modify f : Parser PUnit) c = .ok ((), f c) := rfl

@[simp] theorem run_line (c : Cursor) : line c = .ok (c.line, c) := rfl

@[simp] theorem run_peek (look : Look) (c : Cursor) : peek look c = .ok (look c.trees, c) := rfl

@[simp] theorem run_atEnd (c : Cursor) : atEnd c = .ok (c.trees.isEmpty, c) := rfl

@[simp] theorem run_fail (c : Cursor) : (fail : Parser α) c = .error c.line := rfl

variable (tree : TokenTree) (trees : List TokenTree) (m : Nat) (left : Option Nat)

@[simp] theorem run_tree :
    Parser.tree ⟨tree :: trees, m, left⟩ = .ok (tree, ⟨trees, m, left⟩) := rfl

@[simp] theorem run_anyWord (ident : Identifier) (l : Nat) :
    anyWord ⟨.word ident l :: trees, m, left⟩ = .ok (⟨ident, l⟩, ⟨trees, m, left⟩) := rfl

@[simp] theorem run_sign (text : String) (c : Cursor) :
    Parser.sign text c =
      if Look.sign text c.trees then
        .ok ((), { c with trees := c.trees.drop text.toList.length })
      else .error c.line := by
  simp [Parser.sign, String.length_toList]

@[simp] theorem run_optSign (text : String) (c : Cursor) :
    optSign text c =
      .ok (if Look.sign text c.trees then
        (true, { c with trees := c.trees.drop text.toList.length })
      else (false, c)) := by
  cases h : Look.sign text c.trees <;> simp [optSign, h]

@[simp] theorem run_expect (look : Look) :
    expect look ⟨tree :: trees, m, left⟩ =
      if look (tree :: trees) then .ok ((), ⟨trees, m, left⟩) else .error tree.line := by
  simp [expect, Cursor.line]

@[simp] theorem run_optional (look : Look) :
    Parser.optional look ⟨tree :: trees, m, left⟩ =
      .ok (if look (tree :: trees) then (true, ⟨trees, m, left⟩)
        else (false, ⟨tree :: trees, m, left⟩)) := by
  cases h : look (tree :: trees) <;> simp [Parser.optional, h]

/-- The content of a group is read by itself, and has to be used up. -/
theorem run_groupThen (d : Delimiter) (p : Parser α) (rest : α → Parser β)
    (content : List TokenTree) (l e : Nat) {a : α}
    (h : p ⟨content, e, none⟩ = .ok (a, ⟨[], e, none⟩)) {b : β} {after : List TokenTree}
    (hrest : rest a ⟨trees, m, none⟩ = .ok (b, ⟨after, m, none⟩)) :
    groupThen d p rest ⟨.group d content l e :: trees, m, none⟩ = .ok (b, ⟨after, m, none⟩) := by
  simp [groupThen, Look.group, h, hrest]

theorem run_group (d : Delimiter) (p : Parser α) (content : List TokenTree) (l e : Nat) {a : α}
    (h : p ⟨content, e, none⟩ = .ok (a, ⟨[], e, none⟩)) :
    group d p ⟨.group d content l e :: trees, m, none⟩ = .ok (a, ⟨trees, m, none⟩) :=
  run_groupThen trees m d p pure content l e h rfl

/-- One repetition, where something is left. -/
theorem run_untilEnd_cons {p : Parser α} {n : Nat} {c next after : Cursor} {a : α} {as : List α}
    (hsome : c.trees.isEmpty = false) (hfirst : p c = .ok (a, next))
    (hrest : untilEnd p n next = .ok (as, after)) :
    untilEnd p (n + 1) c = .ok (a :: as, after) := by
  simp [untilEnd, hsome, hfirst, hrest]

end Steps

end Parser

attribute [simp] Look.nothing Look.word Look.anyWord Look.name Look.lifetime Look.signChars
  Look.sign Look.group Look.anyGroup Look.number Look.literal Look.text Look.second Look.third
  Look.oneOf Look.oneSign Look.point Look.colon Look.pathStart Cursor.line TokenTree.line

/-! ## 2. Words, attributes and paths -/

/-- A text that is written as a plain word and can be a name. -/
structure IsOrdinary (text : String) : Prop where
  spells : spellsWord text = true
  unreserved : text ∉ reservedWords

/-- An ordinary text as a word of a source text. -/
abbrev IsOrdinary.word {text : String} (h : IsOrdinary text) : Identifier := plainWord text h.spells

theorem IsOrdinary.ne_reserved {text word : String} (h : IsOrdinary text)
    (hw : word ∈ reservedWords) : text ≠ word := fun e => h.unreserved (e ▸ hw)

/-- An ordinary text is none of these words. -/
theorem IsOrdinary.ne_of_subset {text : String} (h : IsOrdinary text) {words : List String}
    (hwords : words ⊆ reservedWords) : ∀ word ∈ words, text ≠ word :=
  fun _ hword => h.ne_reserved (hwords hword)

namespace Grammar

open LogMarkers.Source.Parser

variable {g : Grammar} {b : Nat}

/-- No attribute stands at the front. -/
theorem run_outerAttributes_nil (hb : g.bound = b + 1) {c : Cursor}
    (h : Look.sign "#" c.trees = false) : g.outerAttributes c = .ok ([], c) := by
  have hsign : Look.signChars ['#'] c.trees = false := h
  simp [outerAttributes, hb, whileLook, hsign]

theorem run_innerAttributes_nil (hb : g.bound = b + 1) {c : Cursor}
    (h : (Look.sign "#" c.trees && Look.second (.sign "!") c.trees) = false) :
    g.innerAttributes c = .ok ([], c) := by
  unfold innerAttributes
  rw [hb, whileLook, run_bind, run_peek]
  dsimp only
  rw [h]
  rfl

theorem run_simplePath_word (hb : g.bound = b + 1) {text : String} (h : IsOrdinary text)
    {rest : List TokenTree} (hrest : Look.sign "::" rest = false) (l m : Nat) :
    g.simplePath ⟨.word h.word l :: rest, m, none⟩ = .ok (⟨false, [h.word]⟩, ⟨rest, m, none⟩) := by
  have hsign : Look.signChars [':', ':'] rest = false := hrest
  simp [simplePath, hb, simpleNames, isName_plainWord, h.unreserved, hsign]

/-- The separators and names that follow the first name of a path. -/
def moreTrees (l : Nat) (names : List Identifier) : List TokenTree :=
  names.flatMap fun name => [.sign ':' true l, .sign ':' false l, .word name l]

/-- The trees of a path. -/
def pathTrees (l : Nat) (first : Identifier) (names : List Identifier) : List TokenTree :=
  .word first l :: moreTrees l names

/-- What follows a path where a group in braces stands behind it: another name or the group. -/
theorem afterSegment (l : Nat) (names : List Identifier) (content rest : List TokenTree)
    (o e : Nat) :
    let trees := moreTrees l names ++ .group .brace content o e :: rest
    openAngle trees = false ∧ colonAngle trees = false ∧ Look.sign "#" trees = false := by
  cases names <;> simp [moreTrees, openAngle, colonAngle]

/-- A name of a path, or the word for the crate. -/
theorem run_segment (g : Grammar) {i : Identifier} (hi : isName i = true ∨ i.isWord "crate" = true)
    {trees : List TokenTree} (hopen : openAngle trees = false) (hcolon : colonAngle trees = false)
    (l m : Nat) :
    g.segment false ⟨.word i l :: trees, m, none⟩ = .ok ((i, false), ⟨trees, m, none⟩) := by
  cases hword : Look.oneOf ["super", "self", "crate", "try"] (.word i l :: trees) with
  | true => simp [segment, -Look.oneOf, hword]
  | false =>
    have hname : isName i = true := hi.resolve_right fun hcrate => by simp [hcrate] at hword
    cases hself : i.isWord "Self" <;>
      simp [segment, -Look.oneOf, hword, hself, hopen, hcolon, Parser.name, hname]

/-- The names of a path are read up to the group behind it. -/
theorem run_moreSegments (g : Grammar) {names : List Identifier}
    (hnames : ∀ i ∈ names, isName i = true) (l : Nat) (content rest : List TokenTree) (o e m : Nat)
    {n : Nat} (hn : names.length < n) :
    g.moreSegments false n ⟨moreTrees l names ++ .group .brace content o e :: rest, m, none⟩ =
      .ok (names.map (·, false), ⟨.group .brace content o e :: rest, m, none⟩) := by
  induction names generalizing n with
  | nil =>
    obtain ⟨n, rfl⟩ := Nat.exists_eq_succ_of_ne_zero (Nat.ne_of_gt hn)
    simp [moreTrees, moreSegments]
  | cons i names ih =>
    obtain ⟨n, rfl⟩ : ∃ k, n = k + 1 := ⟨n - 1, by omega⟩
    obtain ⟨hopen, hcolon, -⟩ := afterSegment l names content rest o e
    have hseg := run_segment g (.inl (hnames i List.mem_cons_self)) hopen hcolon l m
    have hrest := ih (fun j hj => hnames j (List.mem_cons_of_mem _ hj)) (n := n) (by simpa using hn)
    have htrees : moreTrees l (i :: names) =
        .sign ':' true l :: .sign ':' false l :: .word i l :: moreTrees l names := rfl
    rw [htrees]
    simp [moreSegments, hseg, hrest]

/-- A name is no other word that the language reserves, nor is the word for the crate. -/
theorem isWord_eq_false {i : Identifier} (hi : isName i = true ∨ i.isWord "crate" = true)
    {word : String} (hw : word ∈ reservedWords) (hne : word ≠ "crate") : i.isWord word = false := by
  cases hword : i.isWord word with
  | false => rfl
  | true =>
    simp only [Identifier.isWord, Bool.and_eq_true, Bool.not_eq_true', beq_iff_eq] at hword hi
    obtain ⟨hraw, htext⟩ := hword
    rcases hi with hname | ⟨-, hcrate⟩
    · simp [isName, hraw, htext, hw] at hname
    · exact absurd (htext.symm.trans hcrate) hne

/-- **A path before a group in braces is read as a type.** Its first name can be the word for the
    crate. -/
theorem run_typeBody_path {first : Identifier}
    (hfirst : isName first = true ∨ first.isWord "crate" = true) {names : List Identifier}
    (hnames : ∀ i ∈ names, isName i = true) (hb : names.length < g.bound) (l : Nat)
    (content rest : List TokenTree) (o e m : Nat) :
    g.typeBody true ⟨pathTrees l first names ++ .group .brace content o e :: rest, m, none⟩ =
      .ok (.path ⟨false, first :: names⟩, ⟨.group .brace content o e :: rest, m, none⟩) := by
  obtain ⟨hopen, hcolon, hhash⟩ := afterSegment l names content rest o e
  have hseg := run_segment g hfirst hopen hcolon l m
  have hmore := run_moreSegments g hnames l content rest o e m hb
  have hwords : ∀ word ∈ ["for", "fn", "unsafe", "extern"], first.isWord word = false :=
    fun word hword => isWord_eq_false hfirst
      ((by decide : ["for", "fn", "unsafe", "extern"] ⊆ reservedWords) hword)
      (by rintro rfl; simp at hword)
  simp only [List.forall_mem_cons, List.not_mem_nil, false_implies, implies_true, and_true]
    at hwords
  obtain ⟨hfor, hfn, hunsafe, hextern⟩ := hwords
  have hstart : ∀ trees, typePathStart (.word first l :: trees) = true := by
    intro trees
    rcases hfirst with h | h <;> simp [typePathStart, h]
  have hplain : g.pathType true false
      ⟨pathTrees l first names ++ .group .brace content o e :: rest, m, none⟩ =
      .ok (.path ⟨false, first :: names⟩, ⟨.group .brace content o e :: rest, m, none⟩) := by
    simp [pathType, qualifiedPath, plainPath, pathTrees, hseg, hmore, pathForm, Function.comp_def]
  have hbuiltIn : builtInStart (pathTrees l first names ++ .group .brace content o e :: rest) =
      false := by
    have hhash' : Look.signChars ['#'] (moreTrees l names ++ .group .brace content o e :: rest) =
        false := hhash
    simp [builtInStart, pathTrees, hhash']
  simp only [pathTrees, List.cons_append] at hplain hbuiltIn ⊢
  simp [typeBody, quantifier, optWord, hfor, hfn, hunsafe, hextern, hbuiltIn, hstart, hplain]

/-! ## 3. Expressions of one operand -/

/-- **An operand is the whole expression** if it starts with a word that starts no block, and
    nothing or the end of the statement stands behind it. -/
theorem run_earlyExpr_of_atom (hb : g.bound = b + 1) {i : Identifier} {l m : Nat}
    {more rest : List TokenTree} (hblock : blockStart (.word i l :: more) = false)
    (hrest : rest = [] ∨ rest = [.sign ';' false l])
    (hatom : g.atom true ⟨.word i l :: more, m, none⟩ = .ok ({}, ⟨rest, m, none⟩)) :
    g.earlyExpr ⟨.word i l :: more, m, none⟩ = .ok ({}, ⟨rest, m, none⟩) := by
  have hattributes : g.outerAttributes ⟨.word i l :: more, m, none⟩ =
      .ok ([], ⟨.word i l :: more, m, none⟩) := run_outerAttributes_nil hb (by simp)
  have htrailers : g.trailers g.bound {} ⟨rest, m, none⟩ = .ok ({}, ⟨rest, m, none⟩) := by
    rcases hrest with rfl | rfl <;> simp [trailers, hb]
  have hahead : Operator.ahead? rest = none := by rcases hrest with rfl | rfl <;> rfl
  have hafter : g.afterOperand true {} ⟨rest, m, none⟩ = .ok ({}, ⟨rest, m, none⟩) := by
    simp [afterOperand, climb, hb, hahead]
  have hoperand : g.operandBody true ⟨.word i l :: more, m, none⟩ =
      .ok ({}, ⟨rest, m, none⟩) := by
    simp [operandBody, hattributes, hatom, htrailers]
  simp [earlyExpr, hattributes, hblock, hoperand, hafter]

end Grammar

end LogMarkers.Source
