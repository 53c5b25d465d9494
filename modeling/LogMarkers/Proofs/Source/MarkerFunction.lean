import LogMarkers.Proofs.Source.ImplBlock

/-!
# Functions that stand for marker attributes

The trees of a file that imports the type of token streams and defines functions over it, and what
the grammar reads from them: a type and a pattern that are one word, the parameters, the body that
gives its argument back, the function behind its two attributes, and the file
(`run_definitionItems`).

As for blocks of methods, the equations of the parts are about any grammar whose parsers for smaller
parts do what they should, and only the last ones are about levels.
-/

namespace LogMarkers.Source.Grammar

open LogMarkers.Source.Parser

variable {g : Grammar} {b : Nat}

/-! ## 1. Types and patterns of one word -/

/-- What may follow a type that is one word: nothing that would belong to it. -/
structure EndsType (rest : List TokenTree) : Prop where
  separator : Look.sign "::" rest = false
  angle : Look.sign "<" rest = false
  bang : Look.sign "!" rest = false
  plus : Look.sign "+" rest = false
  hash : Look.sign "#" rest = false

theorem endsType_nil : EndsType [] := ⟨rfl, rfl, rfl, rfl, rfl⟩

theorem endsType_comma (l : Nat) (rest : List TokenTree) :
    EndsType (.sign ',' false l :: rest) := by
  constructor <;> simp

theorem endsType_brace (content rest : List TokenTree) (l e : Nat) :
    EndsType (.group .brace content l e :: rest) := by
  constructor <;> simp

/-- A single word is read as a type. -/
theorem run_typeBody_word (hb : g.bound = b + 1) {text : String} (h : IsOrdinary text)
    {rest : List TokenTree} (hrest : EndsType rest) (l m : Nat) :
    g.typeBody true ⟨.word h.word l :: rest, m, none⟩ =
      .ok (.path ⟨false, [h.word]⟩, ⟨rest, m, none⟩) := by
  have hname : isName h.word = true := by simp [isName_plainWord, h.unreserved]
  have hne := h.ne_of_subset (by decide : ["for", "fn", "unsafe", "extern"] ⊆ reservedWords)
  simp only [List.forall_mem_cons, List.not_mem_nil, false_implies, implies_true, and_true] at hne
  obtain ⟨hseparator, hangle, hbang, hplus, hhash⟩ := hrest
  have hopen : openAngle rest = false := by rw [openAngle, hangle]; rfl
  have hcolon : colonAngle rest = false := by rw [colonAngle, hseparator]; rfl
  have hseg := run_segment g (.inl hname) hopen hcolon l m
  simp only [Look.sign, String.reduceToList] at hseparator hbang hplus hhash
  have hplain : g.pathType true false ⟨.word h.word l :: rest, m, none⟩ =
      .ok (.path ⟨false, [h.word]⟩, ⟨rest, m, none⟩) := by
    simp [pathType, qualifiedPath, plainPath, hseg, moreSegments, hb, pathForm, hseparator, hbang,
      hplus]
  have hbuiltIn : builtInStart (.word h.word l :: rest) = false := by simp [builtInStart, hhash]
  have hstart : typePathStart (.word h.word l :: rest) = true := by simp [typePathStart, hname]
  simp [typeBody, quantifier, optWord, hne, hbuiltIn, hstart, hplain]

/-- A single word before a colon is read as a pattern. -/
theorem run_patternBody_word {text : String} (h : IsOrdinary text) (rest : List TokenTree)
    (l m : Nat) :
    g.patternBody ⟨.word h.word l :: .sign ':' false l :: rest, m, none⟩ =
      .ok (none, ⟨.sign ':' false l :: rest, m, none⟩) := by
  have hname : isName h.word = true := by simp [isName_plainWord, h.unreserved]
  have hne := h.ne_of_subset (by decide : ["self", "Self", "super", "crate", "_", "box", "true",
    "false", "const", "ref", "mut"] ⊆ reservedWords)
  simp only [List.forall_mem_cons, List.not_mem_nil, false_implies, implies_true, and_true] at hne
  simp [patternBody, pathPatternStart, bindingPattern, optWord, Parser.name, hname, hne]

/-! ## 2. Parameters and body -/

theorem isOrdinary_args : IsOrdinary "_args" := ⟨by decide, by decide⟩

theorem isOrdinary_item : IsOrdinary "item" := ⟨by decide, by decide⟩

theorem isOrdinary_tokenStream : IsOrdinary "TokenStream" := ⟨by decide, by decide⟩

/-- What reading the smaller parts of a function over token streams comes to. -/
structure ReadsWords (g : Grammar) : Prop where
  type : ∀ {text : String} (h : IsOrdinary text) {rest : List TokenTree}, EndsType rest → ∀ l m,
    g.type true ⟨.word h.word l :: rest, m, none⟩ =
      .ok (.path ⟨false, [h.word]⟩, ⟨rest, m, none⟩)
  pattern : ∀ {text : String} (h : IsOrdinary text) (rest : List TokenTree) (l m : Nat),
    g.pattern ⟨.word h.word l :: .sign ':' false l :: rest, m, none⟩ =
      .ok (none, ⟨.sign ':' false l :: rest, m, none⟩)
  statements : ∀ {text : String} (h : IsOrdinary text) (l m : Nat),
    g.statements ⟨[.word h.word l], m, none⟩ = .ok ((), ⟨[], m, none⟩)

/-- The trees of a parameter that is a token stream. -/
def streamTrees (name : Identifier) (l : Nat) : List TokenTree :=
  [.word name l, .sign ':' false l, .word isOrdinary_tokenStream.word l]

/-- The trees of the parameters of a function that stands for an attribute. -/
def streamsTrees (l : Nat) : List TokenTree :=
  streamTrees isOrdinary_args.word l ++
    .sign ',' false l :: streamTrees isOrdinary_item.word l

/-- A parameter that is a token stream is read, and what follows the comma behind it. -/
theorem run_functionParameters_stream (hb : g.bound = b + 1) (hg : g.ReadsWords) {name : String}
    (h : IsOrdinary name) (first : Bool) (l m n : Nat) {rest : List TokenTree}
    (hrest : rest = [] ∨ ∃ more, rest = .sign ',' false l :: more) :
    g.functionParameters (n + 1) first ⟨streamTrees h.word l ++ rest, m, none⟩ =
      match rest with
      | [] => .ok ((), ⟨[], m, none⟩)
      | _ :: more => g.functionParameters n false ⟨more, m, none⟩ := by
  have hself : name ≠ "self" := h.ne_reserved (by decide)
  have hmut : name ≠ "mut" := h.ne_reserved (by decide)
  have hattributes : g.outerAttributes ⟨streamTrees h.word l ++ rest, m, none⟩ =
      .ok ([], ⟨streamTrees h.word l ++ rest, m, none⟩) :=
    run_outerAttributes_nil hb (by simp [streamTrees])
  have hpattern := hg.pattern h (.word isOrdinary_tokenStream.word l :: rest) l m
  have htype : g.type true ⟨.word isOrdinary_tokenStream.word l :: rest, m, none⟩ =
      .ok (.path ⟨false, [isOrdinary_tokenStream.word]⟩, ⟨rest, m, none⟩) := by
    refine hg.type isOrdinary_tokenStream ?_ l m
    rcases hrest with rfl | ⟨more, rfl⟩
    · exact endsType_nil
    · exact endsType_comma l more
  have hreceiver : attempt g.receiver ⟨streamTrees h.word l ++ rest, m, none⟩ =
      .ok (none, ⟨streamTrees h.word l ++ rest, m, none⟩) := by
    simp [attempt, receiver, streamTrees, optWord, Parser.word, hself, hmut]
  simp only [streamTrees, List.cons_append, List.nil_append] at hattributes hreceiver ⊢
  rcases hrest with rfl | ⟨more, rfl⟩
  · simp [functionParameters, hattributes, hreceiver, hpattern, htype]
  · simp [functionParameters, hattributes, hreceiver, hpattern, htype]

/-- The two parameters are all that the function takes. -/
theorem run_functionParameters_streams (hb : g.bound = b + 1) (hg : g.ReadsWords) (l m n : Nat) :
    g.functionParameters (n + 2) true ⟨streamsTrees l, m, none⟩ = .ok ((), ⟨[], m, none⟩) := by
  have hsecond := run_functionParameters_stream hb hg isOrdinary_item false l m n (.inl rfl)
  rw [List.append_nil] at hsecond
  exact (run_functionParameters_stream hb hg isOrdinary_args true l m (n + 1)
    (.inr ⟨_, rfl⟩)).trans hsecond

/-- A single word is read as an expression. -/
theorem run_earlyExpr_word (hb : g.bound = b + 1) {text : String} (h : IsOrdinary text)
    (l m : Nat) : g.earlyExpr ⟨[.word h.word l], m, none⟩ = .ok ({}, ⟨[], m, none⟩) := by
  have hname : isName h.word = true := by simp [isName_plainWord, h.unreserved]
  have hne := h.ne_of_subset (by decide : ["true", "false", "async", "move", "static", "for",
    "const", "if", "while", "loop", "match", "unsafe", "try"] ⊆ reservedWords)
  simp only [List.forall_mem_cons, List.not_mem_nil, false_implies, implies_true, and_true] at hne
  have hpath : g.pathExpr true ⟨[.word h.word l], m, none⟩ = .ok ({}, ⟨[], m, none⟩) := by
    have hsegment : g.segment true ⟨[.word h.word l], m, none⟩ =
        .ok ((h.word, false), ⟨[], m, none⟩) := by
      simp [segment, Parser.name, hname, colonAngle]
    simp [pathExpr, qualifiedPath, plainPath, hsegment, moreSegments, hb]
  have hatom : g.atom true ⟨[.word h.word l], m, none⟩ = .ok ({}, ⟨[], m, none⟩) := by
    simp [atom, closureStart, quantifiedClosure, builtInStart, pathExprStart, typePathStart, hname,
      hne, hpath]
  exact run_earlyExpr_of_atom hb (by simp [blockStart, hne]) (.inl rfl) hatom

/-- A single word is a block's whole content. -/
theorem run_statementList_word (hb : g.bound = b + 1) {text : String} (h : IsOrdinary text)
    (l m n : Nat) :
    g.statementList (n + 1) ⟨[.word h.word l], m, none⟩ = .ok ((), ⟨[], m, none⟩) := by
  have hne := h.ne_of_subset (by decide : ["let", "pub", "extern", "use", "fn", "mod", "type",
    "struct", "enum", "trait", "impl", "macro", "crate", "static", "const", "unsafe",
    "async"] ⊆ reservedWords)
  simp only [List.forall_mem_cons, List.not_mem_nil, false_implies, implies_true, and_true] at hne
  have hattributes : g.outerAttributes ⟨[.word h.word l], m, none⟩ =
      .ok ([], ⟨[.word h.word l], m, none⟩) := run_outerAttributes_nil hb (by simp)
  have hpath := run_simplePath_word hb h (show Look.sign "::" [] = false from rfl) l m
  have hcall : g.callStatement ⟨[.word h.word l], m, none⟩ =
      .ok (.expression, ⟨[.word h.word l], m, none⟩) := by
    simp [callStatement, hpath]
  have hexpr := run_earlyExpr_word hb h l m
  have hstatement : g.statement ⟨[.word h.word l], m, none⟩ = .ok (true, ⟨[], m, none⟩) := by
    simp [statement, hattributes, hcall, itemStart, hne, hexpr, ExprForm.needsSemicolon]
  simp [statementList, whileLook, hb, hstatement]

/-! ## 3. The function and its attributes -/

theorem spellsWord_pub : spellsWord "pub" = true := by decide

theorem spellsWord_fn : spellsWord "fn" = true := by decide

/-- The trees of a function that gives back its second argument, after its attributes. -/
def functionTrees (name : Identifier) (l : Nat) : List TokenTree :=
  [.word (plainWord "pub" spellsWord_pub) l, .word (plainWord "fn" spellsWord_fn) l, .word name l,
    .group .paren (streamsTrees l) l l, .sign '-' true l, .sign '>' false l,
    .word isOrdinary_tokenStream.word l,
    .group .brace [.word isOrdinary_item.word (l + 1)] l (l + 2)]

/-- The signature of the function is read up to its body. -/
theorem run_signature_streams (hb : g.bound = b + 2) (hg : g.ReadsWords) {name : Identifier}
    (hname : isName name = true) (l m : Nat) (rest : List TokenTree) :
    g.signature false ⟨(functionTrees name l).tail ++ rest, m, none⟩ =
      .ok (⟨name, l⟩, ⟨.group .brace [.word isOrdinary_item.word (l + 1)] l (l + 2) :: rest, m,
        none⟩) := by
  have htype := hg.type isOrdinary_tokenStream (endsType_brace
    [.word isOrdinary_item.word (l + 1)] rest l (l + 2)) l m
  have hparameters : groupThen .paren (g.functionParameters g.bound true) (fun _ => do
      discard (g.returnType true)
      discard g.conditions)
      ⟨(functionTrees name l).drop 3 ++ rest, m, none⟩ =
      .ok ((), ⟨.group .brace [.word isOrdinary_item.word (l + 1)] l (l + 2) :: rest, m, none⟩) := by
    refine run_groupThen _ _ _ _ _ _ _ _ (hb ▸ run_functionParameters_streams hb hg l l b) ?_
    simp [returnType, htype, conditions, optWord]
  simp only [functionTrees, List.tail_cons, List.drop_succ_cons, List.drop_zero, List.cons_append,
    List.nil_append] at hparameters ⊢
  simp [signature, functionWords, foreignLanguage, optWord, Parser.word, Parser.name, hname,
    parameters, hparameters]

/-- **The function is read as a function of its name**, with the attributes before it. -/
theorem run_itemBody_function (hb : g.bound = b + 2) (hg : g.ReadsWords) {name : Identifier}
    (hname : isName name = true) (attributes : List Attribute) (l m : Nat)
    (rest : List TokenTree) :
    g.itemBody attributes ⟨functionTrees name l ++ rest, m, none⟩ =
      .ok (.function ⟨name, l⟩ attributes, ⟨rest, m, none⟩) := by
  have hsignature := run_signature_streams hb hg hname l m rest
  have hblock : g.attributedBlock
      ⟨.group .brace [.word isOrdinary_item.word (l + 1)] l (l + 2) :: rest, m, none⟩ =
      .ok ([], ⟨rest, m, none⟩) := by
    refine run_group _ _ _ _ _ _ _ ?_
    have hinner : g.innerAttributes ⟨[.word isOrdinary_item.word (l + 1)], l + 2, none⟩ =
        .ok ([], ⟨[.word isOrdinary_item.word (l + 1)], l + 2, none⟩) :=
      run_innerAttributes_nil hb (by simp)
    simp [hinner, hg.statements isOrdinary_item]
  simp only [functionTrees, List.tail_cons, List.cons_append, List.nil_append] at hsignature ⊢
  simp [itemBody, visibility, functionAhead, Parser.succeeds, functionWords, foreignLanguage,
    optWord, Parser.word, functionItem, hsignature, hblock]

/-- The trees of a comment that documents what follows it. -/
def docTrees (text : String) (l : Nat) : List TokenTree :=
  [.sign '#' false l,
    .group .bracket [.word docWord l, .sign '=' false l, .literal (.text text) l] l l]

theorem isOrdinary_procMacroAttribute : IsOrdinary "proc_macro_attribute" := ⟨by decide, by decide⟩

/-- The trees of the attribute that makes an attribute of a function. -/
def procMacroTrees (l : Nat) : List TokenTree :=
  [.sign '#' false l, .group .bracket [.word isOrdinary_procMacroAttribute.word l] l l]

/-- The attributes of a function with this documentation. -/
def definitionAttributes (text : String) : List Attribute :=
  [.assigned ⟨false, [docWord]⟩ (some text), .plain ⟨false, [isOrdinary_procMacroAttribute.word]⟩]

/-- A documenting comment is an attribute with a value. -/
theorem run_attributeBody_doc (hb : g.bound = b + 1) (text : String) (l m : Nat) :
    g.attributeBody ⟨[.word docWord l, .sign '=' false l, .literal (.text text) l], m, none⟩ =
      .ok (.assigned ⟨false, [docWord]⟩ (some text), ⟨[], m, none⟩) := by
  have hdoc : IsOrdinary "doc" := ⟨by decide, by decide⟩
  have hpath := run_simplePath_word hb hdoc
    (show Look.sign "::" [.sign '=' false l, .literal (.text text) l] = false by simp) l m
  have hword : docWord = hdoc.word := rfl
  rw [hword]
  simp [attributeBody, attributePath, hpath, attributeValue, attempt, Parser.literal]

theorem run_attributeBody_procMacro (hb : g.bound = b + 1) (l m : Nat) :
    g.attributeBody ⟨[.word isOrdinary_procMacroAttribute.word l], m, none⟩ =
      .ok (.plain ⟨false, [isOrdinary_procMacroAttribute.word]⟩, ⟨[], m, none⟩) := by
  have hpath := run_simplePath_word hb isOrdinary_procMacroAttribute
    (show Look.sign "::" [] = false from rfl) l m
  simp [attributeBody, attributePath, hpath]

/-! ## 4. The file -/

/-- A definition of an attribute: its documentation, its name and the line it starts on. -/
structure Defined where
  text : String
  name : Identifier
  line : Nat

/-- The trees of a definition, its attributes and its function on lines of their own. -/
def Defined.trees (d : Defined) : List TokenTree :=
  docTrees d.text d.line ++ (procMacroTrees (d.line + 1) ++ functionTrees d.name (d.line + 2))

/-- The item that a definition is read as. -/
def Defined.item (d : Defined) : Item :=
  .function ⟨d.name, d.line + 2⟩ (definitionAttributes d.text)

/-- The level of a grammar from which on its parsers read single words. -/
theorem readsWords_level (n : Nat) : (level (n + 3)).ReadsWords where
  type h _ hrest l m := run_typeBody_word (g := level (n + 2)) rfl h hrest l m
  pattern h rest l m := run_patternBody_word (g := level (n + 2)) h rest l m
  statements h l m := run_statementList_word (g := level (n + 2)) rfl h l m (n + 1)

/-- The two attributes before a function are taken. -/
theorem run_outerAttributes_definition {n : Nat} (d : Defined) (m : Nat) (rest : List TokenTree) :
    (level (n + 4)).outerAttributes ⟨d.trees ++ rest, m, none⟩ =
      .ok (definitionAttributes d.text,
        ⟨functionTrees d.name (d.line + 2) ++ rest, m, none⟩) := by
  have hdoc := fun trees => run_group trees m .bracket (level (n + 4)).attributeContent _ d.line _
    (run_attributeBody_doc (g := level (n + 3)) rfl d.text d.line d.line)
  have hmacro := fun trees => run_group trees m .bracket (level (n + 4)).attributeContent _
    (d.line + 1) _ (run_attributeBody_procMacro (g := level (n + 3)) rfl (d.line + 1) (d.line + 1))
  have hbound : (level (n + 4)).bound = n + 3 := rfl
  simp [outerAttributes, hbound, whileLook, Defined.trees, docTrees, procMacroTrees, functionTrees,
    hdoc, hmacro, definitionAttributes]

/-- **A definition is read as a function of its name with its attributes.** -/
theorem run_definition {n : Nat} {d : Defined} (hname : isName d.name = true) (m : Nat)
    (rest : List TokenTree) :
    (do (level (n + 4)).item (← (level (n + 4)).outerAttributes) : Parser Item)
      ⟨d.trees ++ rest, m, none⟩ = .ok (d.item, ⟨rest, m, none⟩) := by
  have hattributes := run_outerAttributes_definition (n := n) d m rest
  have hitem : (level (n + 4)).item (definitionAttributes d.text)
      ⟨functionTrees d.name (d.line + 2) ++ rest, m, none⟩ = .ok (d.item, ⟨rest, m, none⟩) :=
    run_itemBody_function (g := level (n + 3)) rfl (readsWords_level n) hname _ _ m rest
  simp [hattributes, hitem]

theorem run_definitions {n : Nat} {definitions : List Defined}
    (hnames : ∀ d ∈ definitions, isName d.name = true) (m : Nat) {k : Nat}
    (hk : definitions.length < k) :
    untilEnd (do (level (n + 4)).item (← (level (n + 4)).outerAttributes)) k
      ⟨definitions.flatMap Defined.trees, m, none⟩ =
      .ok (definitions.map Defined.item, ⟨[], m, none⟩) := by
  induction definitions generalizing k with
  | nil =>
    obtain ⟨k, rfl⟩ := Nat.exists_eq_succ_of_ne_zero (Nat.ne_of_gt hk)
    simp [untilEnd]
  | cons d definitions ih =>
    obtain ⟨k, rfl⟩ : ∃ j, k = j + 1 := ⟨k - 1, by omega⟩
    have hfirst := run_definition (n := n) (hnames d List.mem_cons_self) m
      (definitions.flatMap Defined.trees)
    have hrest := ih (fun d' hd => hnames d' (List.mem_cons_of_mem _ hd)) (k := k)
      (by simpa using hk)
    have hsome : (d.trees ++ definitions.flatMap Defined.trees).isEmpty = false := by
      simp [Defined.trees, docTrees]
    exact run_untilEnd_cons hsome hfirst hrest

theorem isOrdinary_procMacro : IsOrdinary "proc_macro" := ⟨by decide, by decide⟩

theorem spellsWord_use : spellsWord "use" = true := by decide

/-- The trees of the import of the type of token streams. -/
def importTrees (l : Nat) : List TokenTree :=
  [.word (plainWord "use" spellsWord_use) l, .word isOrdinary_procMacro.word l, .sign ':' true l,
    .sign ':' false l, .word isOrdinary_tokenStream.word l, .sign ';' false l]

/-- The import of the type of token streams. -/
def streamImport : Item :=
  .imports false (.path isOrdinary_procMacro.word (.name isOrdinary_tokenStream.word))

theorem run_itemBody_import {n : Nat} (l m : Nat) (rest : List TokenTree) :
    (level (n + 4)).itemBody [] ⟨importTrees l ++ rest, m, none⟩ =
      .ok (streamImport, ⟨rest, m, none⟩) := by
  have hlast : (level (n + 3)).useTree false
      ⟨.word isOrdinary_tokenStream.word l :: .sign ';' false l :: rest, m, none⟩ =
      .ok (some (.name isOrdinary_tokenStream.word), ⟨.sign ';' false l :: rest, m, none⟩) := by
    show (level (n + 2)).useTreeBody false _ = _
    simp [useTreeBody, isName_plainWord, isOrdinary_tokenStream.unreserved, optWord]
  have htree : (level (n + 4)).useTree true
      ⟨(importTrees l).tail ++ rest, m, none⟩ =
      .ok (some (.path isOrdinary_procMacro.word (.name isOrdinary_tokenStream.word)),
        ⟨.sign ';' false l :: rest, m, none⟩) := by
    show (level (n + 3)).useTreeBody true _ = _
    simp [useTreeBody, importTrees, isName_plainWord, isOrdinary_procMacro.unreserved, hlast]
  simp only [importTrees, List.tail_cons, List.cons_append, List.nil_append] at htree ⊢
  simp [itemBody, visibility, functionAhead, Parser.succeeds, functionWords, foreignLanguage,
    optWord, Parser.word, useItem, htree, streamImport]

/-- **A file with the import and definitions of attributes is read as the import and one function
    for each definition**, in their order. -/
theorem run_definitionItems {definitions : List Defined}
    (hnames : ∀ d ∈ definitions, isName d.name = true) {n : Nat} (hn : definitions.length + 7 ≤ n)
    (l m : Nat) :
    fileItems (.level n) ⟨importTrees l ++ definitions.flatMap Defined.trees, m, none⟩ =
      .ok (streamImport :: definitions.map Defined.item, ⟨[], m, none⟩) := by
  obtain ⟨n, rfl⟩ : ∃ k, n = k + 5 := ⟨n - 5, by omega⟩
  have hinner : (level (n + 5)).innerAttributes
      ⟨importTrees l ++ definitions.flatMap Defined.trees, m, none⟩ =
      .ok ([], ⟨importTrees l ++ definitions.flatMap Defined.trees, m, none⟩) :=
    run_innerAttributes_nil rfl (by simp [importTrees])
  have houter : (level (n + 5)).outerAttributes
      ⟨importTrees l ++ definitions.flatMap Defined.trees, m, none⟩ =
      .ok ([], ⟨importTrees l ++ definitions.flatMap Defined.trees, m, none⟩) :=
    run_outerAttributes_nil rfl (by simp [importTrees])
  have himport : (level (n + 5)).item []
      ⟨importTrees l ++ definitions.flatMap Defined.trees, m, none⟩ =
      .ok (streamImport, ⟨definitions.flatMap Defined.trees, m, none⟩) :=
    run_itemBody_import l m _
  have hrest := run_definitions (n := n + 1) hnames m (k := n + 3) (by omega)
  have hsome : (importTrees l ++ definitions.flatMap Defined.trees).isEmpty = false := by
    simp [importTrees]
  have hfirst : (do (level (n + 5)).item (← (level (n + 5)).outerAttributes) : Parser Item)
      ⟨importTrees l ++ definitions.flatMap Defined.trees, m, none⟩ =
      .ok (streamImport, ⟨definitions.flatMap Defined.trees, m, none⟩) := by
    simp [houter, himport]
  have hitems := run_untilEnd_cons hsome hfirst hrest
  simp only [fileItems, run_bind, run_discard, hinner]
  exact hitems

end LogMarkers.Source.Grammar
