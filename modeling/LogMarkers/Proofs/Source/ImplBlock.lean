import LogMarkers.Proofs.Source.Parsing

/-!
# Blocks of printing methods

The trees of a block with methods that print a line, and what the grammar reads from them. Each part
of the trees has its definition and its equation: a printing statement, a method, a list of methods,
the block behind its path, and the file with an attribute before the block (`run_fileItems`).

The parsers of a level call those of the level below, so the equations of the parts are stated for
any grammar whose parsers for smaller parts do what they should, and only the last one is about
levels.
-/

namespace LogMarkers.Source.Grammar

open LogMarkers.Source.Parser

variable {g : Grammar} {b : Nat}

/-! ## 1. Methods that print -/

/-- The trees of the statement that prints a text. -/
def printTrees (message : String) (l : Nat) : List TokenTree :=
  [.word (plainWord "println" (by decide)) l, .sign '!' false l,
    .group .paren [.literal (.text message) l] l l, .sign ';' false l]

/-- The trees of a receiver that is borrowed. -/
def receiverTrees (l : Nat) : List TokenTree :=
  [.sign '&' false l, .word (plainWord "self" (by decide)) l]

/-- The trees of a method that prints a text. -/
def methodTrees (name : Identifier) (message : String) (l : Nat) : List TokenTree :=
  [.word (plainWord "pub" (by decide)) l, .word (plainWord "fn" (by decide)) l, .word name l,
    .group .paren (receiverTrees l) l l,
    .group .brace (printTrees message (l + 1)) l (l + 2)]

theorem isOrdinary_println : IsOrdinary "println" := ⟨by decide, by decide⟩

theorem run_outerAttributes_print (hb : g.bound = b + 1) (message : String) (l m : Nat) :
    g.outerAttributes ⟨printTrees message l, m, none⟩ =
      .ok ([], ⟨printTrees message l, m, none⟩) :=
  run_outerAttributes_nil hb (by simp [printTrees])

/-- The call of a macro in parentheses is an operand. -/
theorem run_atom_print (hb : g.bound = b + 1) (message : String) (l m : Nat) :
    g.atom true ⟨printTrees message l, m, none⟩ = .ok ({}, ⟨[.sign ';' false l], m, none⟩) := by
  have hpath : g.qualifiedPath true ⟨printTrees message l, m, none⟩ =
      .ok (some (pathForm false [(plainWord "println" (by decide), false)]),
        ⟨(printTrees message l).tail, m, none⟩) := by
    simp [qualifiedPath, plainPath, segment, moreSegments, hb, openAngle, colonAngle, printTrees,
      Parser.name, isName_plainWord, isOrdinary_println.unreserved]
  simp only [printTrees, List.tail_cons] at hpath ⊢
  have hcall : g.pathExpr true ⟨printTrees message l, m, none⟩ =
      .ok ({}, ⟨[.sign ';' false l], m, none⟩) := by
    simp [pathExpr, hpath, printTrees, pathForm, Parser.anyGroup]
  simp only [printTrees] at hcall
  simp [atom, closureStart, quantifiedClosure, builtInStart, pathExprStart, typePathStart,
    isName_plainWord, isOrdinary_println.unreserved, hcall]

theorem run_earlyExpr_print (hb : g.bound = b + 1) (message : String) (l m : Nat) :
    g.earlyExpr ⟨printTrees message l, m, none⟩ = .ok ({}, ⟨[.sign ';' false l], m, none⟩) :=
  run_earlyExpr_of_atom hb (by simp [blockStart, quantifiedClosure]) (.inr rfl)
    (run_atom_print hb message l m)

/-- A printing statement is a block's whole content. -/
theorem run_statementList_print (hb : g.bound = b + 1) (message : String) (l m n : Nat) :
    g.statementList (n + 1) ⟨printTrees message l, m, none⟩ = .ok ((), ⟨[], m, none⟩) := by
  have hattributes := run_outerAttributes_print hb message l m
  have hexpr := run_earlyExpr_print hb message l m
  have hcall : g.callStatement ⟨printTrees message l, m, none⟩ =
      .ok (.expression, ⟨printTrees message l, m, none⟩) := by
    have hpath := run_simplePath_word hb isOrdinary_println
      (show Look.sign "::" (printTrees message l).tail = false by simp [printTrees]) l m
    simp only [printTrees, List.tail_cons] at hpath ⊢
    simp [callStatement, hpath]
  have hstatement : g.statement ⟨printTrees message l, m, none⟩ = .ok (false, ⟨[], m, none⟩) := by
    simp only [printTrees] at hattributes hexpr hcall ⊢
    simp [statement, hattributes, hcall, itemStart, hexpr]
  simp only [printTrees] at hstatement ⊢
  simp [statementList, whileLook, hb, hstatement]

/-! ## 2. Methods -/

/-- The receiver is all that the methods take. -/
theorem run_functionParameters (hb : g.bound = b + 1) (l m n : Nat) :
    g.functionParameters (n + 1) true ⟨receiverTrees l, m, none⟩ = .ok ((), ⟨[], m, none⟩) := by
  have hattributes : g.outerAttributes ⟨receiverTrees l, m, none⟩ =
      .ok ([], ⟨receiverTrees l, m, none⟩) :=
    run_outerAttributes_nil hb (by simp [receiverTrees])
  have hreceiver : g.receiver ⟨receiverTrees l, m, none⟩ = .ok (l, ⟨[], m, none⟩) := by
    simp [receiver, receiverTrees, optWord, Parser.word]
  simp only [receiverTrees] at hattributes hreceiver ⊢
  simp [functionParameters, hattributes, attempt, hreceiver]

/-- The signature of a method is read up to its body. -/
theorem run_signature (hb : g.bound = b + 1) {name : Identifier} (hname : isName name = true)
    (l m : Nat) (content rest : List TokenTree) (o e : Nat) :
    g.signature false ⟨.word (plainWord "fn" (by decide)) l :: .word name l ::
        .group .paren (receiverTrees l) l l :: .group .brace content o e :: rest, m, none⟩ =
      .ok (⟨name, l⟩, ⟨.group .brace content o e :: rest, m, none⟩) := by
  have hparameters : groupThen .paren (g.functionParameters g.bound true) (fun _ => do
      discard (g.returnType true)
      discard g.conditions)
      ⟨.group .paren (receiverTrees l) l l :: .group .brace content o e :: rest, m, none⟩ =
      .ok ((), ⟨.group .brace content o e :: rest, m, none⟩) := by
    refine run_groupThen _ _ _ _ _ _ _ _ (hb ▸ run_functionParameters hb l l b) ?_
    simp [returnType, conditions, optWord]
  simp [signature, functionWords, foreignLanguage, optWord, Parser.word, Parser.name, hname,
    parameters, hparameters]

/-- **A printing method is read as a method of its name.** -/
theorem run_implMember (hb : g.bound = b + 1)
    (hbody : ∀ message l m, g.statements ⟨printTrees message l, m, none⟩ = .ok ((), ⟨[], m, none⟩))
    {name : Identifier} (hname : isName name = true) (message : String) (l m : Nat)
    (rest : List TokenTree) :
    g.implMember ⟨methodTrees name message l ++ rest, m, none⟩ =
      .ok (some ⟨.method, ⟨name, l⟩, []⟩, ⟨rest, m, none⟩) := by
  have hattributes : g.outerAttributes ⟨methodTrees name message l ++ rest, m, none⟩ =
      .ok ([], ⟨methodTrees name message l ++ rest, m, none⟩) :=
    run_outerAttributes_nil hb (by simp [methodTrees])
  have hsignature := run_signature hb hname l m (printTrees message (l + 1)) rest l (l + 2)
  have hblock : g.attributedBlock
      ⟨.group .brace (printTrees message (l + 1)) l (l + 2) :: rest, m, none⟩ =
      .ok ([], ⟨rest, m, none⟩) := by
    refine run_group _ _ _ _ _ _ _ ?_
    have hinner : g.innerAttributes ⟨printTrees message (l + 1), l + 2, none⟩ =
        .ok ([], ⟨printTrees message (l + 1), l + 2, none⟩) :=
      run_innerAttributes_nil hb (by simp [printTrees])
    simp [hinner, hbody]
  simp only [methodTrees, List.cons_append, List.nil_append] at hattributes ⊢
  simp [implMember, hattributes, visibility, optWord, functionAhead, Parser.succeeds, functionWords,
    foreignLanguage, Parser.word, hsignature, hblock]

/-! ## 3. The block -/

/-- A printing method: its name, what it prints and the line it starts on. -/
structure Printed where
  name : Identifier
  message : String
  line : Nat

/-- The trees of some methods. -/
def methodsTrees (methods : List Printed) : List TokenTree :=
  methods.flatMap fun p => methodTrees p.name p.message p.line

/-- The member that a printing method is read as. -/
def Printed.member (p : Printed) : Member := ⟨.method, ⟨p.name, p.line⟩, []⟩

theorem run_methods (hb : g.bound = b + 1)
    (hbody : ∀ message l m, g.statements ⟨printTrees message l, m, none⟩ = .ok ((), ⟨[], m, none⟩))
    {methods : List Printed} (hnames : ∀ p ∈ methods, isName p.name = true) (m : Nat) {n : Nat}
    (hn : methods.length < n) :
    untilEnd g.implMember n ⟨methodsTrees methods, m, none⟩ =
      .ok (methods.map (some ·.member), ⟨[], m, none⟩) := by
  induction methods generalizing n with
  | nil =>
    obtain ⟨n, rfl⟩ := Nat.exists_eq_succ_of_ne_zero (Nat.ne_of_gt hn)
    simp [methodsTrees, untilEnd]
  | cons p methods ih =>
    obtain ⟨n, rfl⟩ : ∃ k, n = k + 1 := ⟨n - 1, by omega⟩
    have hfirst := run_implMember hb hbody (hnames p List.mem_cons_self) p.message p.line m
      (methodsTrees methods)
    have hrest := ih (fun q hq => hnames q (List.mem_cons_of_mem _ hq)) (n := n) (by simpa using hn)
    have htrees : methodsTrees (p :: methods) =
        methodTrees p.name p.message p.line ++ methodsTrees methods := rfl
    have hsome : (methodTrees p.name p.message p.line ++ methodsTrees methods).isEmpty = false := by
      simp [methodTrees]
    rw [htrees]
    exact run_untilEnd_cons hsome hfirst hrest

/-- **The block of a path with printing methods is read as an `impl` of this path.** -/
theorem run_itemBody_impl (hb : g.bound = b + 1) {first : Identifier}
    (hfirst : isName first = true ∨ first.isWord "crate" = true) {names : List Identifier}
    {methods : List Printed} (hmethods : methods.length < g.bound)
    (hnames : ∀ p ∈ methods, isName p.name = true)
    (hbody : ∀ message l m, g.statements ⟨printTrees message l, m, none⟩ = .ok ((), ⟨[], m, none⟩))
    (htype : ∀ l content o e m,
      g.type true ⟨pathTrees l first names ++ [.group .brace content o e], m, none⟩ =
        .ok (.path ⟨false, first :: names⟩, ⟨[.group .brace content o e], m, none⟩))
    (attributes : List Attribute) (l e m : Nat) :
    g.itemBody attributes ⟨.word (plainWord "impl" (by decide)) l :: (pathTrees l first names ++
        [.group .brace (methodsTrees methods) l e]), m, none⟩ =
      .ok (.impl (some ⟨false, first :: names⟩) l attributes (methods.map Printed.member),
        ⟨[], m, none⟩) := by
  have htype' := htype l (methodsTrees methods) l e m
  have hblock : g.memberBlock g.implMember ⟨[.group .brace (methodsTrees methods) l e], m, none⟩ =
      .ok (([], methods.map (some ·.member)), ⟨[], m, none⟩) := by
    refine run_group _ _ _ _ _ _ _ ?_
    have hinner : g.innerAttributes ⟨methodsTrees methods, e, none⟩ =
        .ok ([], ⟨methodsTrees methods, e, none⟩) := by
      refine run_innerAttributes_nil hb ?_
      cases methods <;> simp [methodsTrees, methodTrees]
    simp [hinner, run_methods hb hbody hnames e hmethods]
  have hconst : first.isWord "const" = false := isWord_eq_false hfirst (by decide) (by decide)
  simp only [pathTrees, List.cons_append] at htype' ⊢
  have himpl : g.implItem false attributes ⟨.word (plainWord "impl" (by decide)) l ::
      .word first l :: (moreTrees l names ++ [.group .brace (methodsTrees methods) l e]), m, none⟩ =
      .ok (.impl (some ⟨false, first :: names⟩) l attributes (methods.map Printed.member),
        ⟨[], m, none⟩) := by
    simp [implItem, optWord, Parser.word, parametersAhead, hconst, htype', conditions, hblock,
      TypeForm.path?]
  simp [itemBody, visibility, functionAhead, Parser.succeeds, functionWords, foreignLanguage,
    optWord, Parser.word, himpl]

/-! ## 4. The file -/

/-- The trees of the attribute that allows unused members of any spelling. -/
def allowTrees (l : Nat) : List TokenTree :=
  [.sign '#' false l,
    .group .bracket [.word (plainWord "allow" (by decide)) l,
      .group .paren [.word (plainWord "non_snake_case" (by decide)) l, .sign ',' false l,
        .word (plainWord "dead_code" (by decide)) l] l l] l l]

/-- The trees of the block of a path with printing methods. -/
def blockTrees (l : Nat) (first : Identifier) (names : List Identifier) (methods : List Printed)
    (e : Nat) : List TokenTree :=
  .word (plainWord "impl" (by decide)) l ::
    (pathTrees l first names ++ [.group .brace (methodsTrees methods) l e])

theorem isOrdinary_allow : IsOrdinary "allow" := ⟨by decide, by decide⟩

/-- The attribute is taken, and the block is none. -/
theorem run_outerAttributes_allow {n : Nat} (l l' m : Nat) (trees : List TokenTree) :
    (level (n + 3)).outerAttributes
      ⟨allowTrees l ++ .word (plainWord "impl" (by decide)) l' :: trees, m, none⟩ =
      .ok ([.plain ⟨false, [isOrdinary_allow.word]⟩],
        ⟨.word (plainWord "impl" (by decide)) l' :: trees, m, none⟩) := by
  have hcontent : ∀ arguments : List TokenTree, (level (n + 3)).attributeContent
      ⟨[.word isOrdinary_allow.word l, .group .paren arguments l l], l, none⟩ =
      .ok (.plain ⟨false, [isOrdinary_allow.word]⟩, ⟨[], l, none⟩) := by
    intro arguments
    show (level (n + 2)).attributeBody _ = _
    have hpath := run_simplePath_word (g := level (n + 2)) (b := n) rfl isOrdinary_allow
      (show Look.sign "::" [.group .paren arguments l l] = false by simp) l l
    simp [attributeBody, attributePath, hpath, withArguments, SourcePath.isWord]
  have hgroup := fun rest arguments => run_group rest m .bracket _ _ l l (hcontent arguments)
  have hbound : (level (n + 3)).bound = n + 2 := rfl
  simp [outerAttributes, hbound, whileLook, allowTrees, hgroup]

/-- **A file with an attribute and the block of a path is read as one `impl` of this path.** -/
theorem run_fileItems {first : Identifier}
    (hfirst : isName first = true ∨ first.isWord "crate" = true) {names : List Identifier}
    (hnames : ∀ i ∈ names, isName i = true) {methods : List Printed}
    (hmethods : ∀ p ∈ methods, isName p.name = true) {n : Nat}
    (hn : names.length + methods.length + 4 ≤ n) (l l' e m : Nat) :
    fileItems (.level n) ⟨allowTrees l ++ blockTrees l' first names methods e, m, none⟩ =
      .ok ([.impl (some ⟨false, first :: names⟩) l' [.plain ⟨false, [isOrdinary_allow.word]⟩]
        (methods.map Printed.member)], ⟨[], m, none⟩) := by
  obtain ⟨n, rfl⟩ : ∃ k, n = k + 4 := ⟨n - 4, by omega⟩
  have hblock : (level (n + 4)).item [.plain ⟨false, [isOrdinary_allow.word]⟩]
      ⟨blockTrees l' first names methods e, m, none⟩ =
      .ok (.impl (some ⟨false, first :: names⟩) l' [.plain ⟨false, [isOrdinary_allow.word]⟩]
        (methods.map Printed.member), ⟨[], m, none⟩) := by
    have hcount : methods.length < n + 2 := by omega
    have hlength : names.length < n + 1 := by omega
    exact run_itemBody_impl (g := level (n + 3)) rfl hfirst hcount hmethods
      (fun message l m => run_statementList_print (g := level (n + 2)) rfl message l m (n + 1))
      (fun l content o e m =>
        run_typeBody_path (g := level (n + 2)) hfirst hnames hlength l content [] o e m) _ l' e m
  have hattributes := run_outerAttributes_allow (n := n + 1) l l' m
    (pathTrees l' first names ++ [.group .brace (methodsTrees methods) l' e])
  have hinner : (level (n + 4)).innerAttributes
      ⟨allowTrees l ++ blockTrees l' first names methods e, m, none⟩ =
      .ok ([], ⟨allowTrees l ++ blockTrees l' first names methods e, m, none⟩) :=
    run_innerAttributes_nil rfl (by simp [allowTrees])
  have hsome : (allowTrees l ++ blockTrees l' first names methods e).isEmpty = false := by
    simp [allowTrees]
  have hbound : (level (n + 4)).bound = n + 3 := rfl
  unfold blockTrees at hblock hinner hsome ⊢
  simp [fileItems, hinner, hbound, untilEnd, hsome, hattributes, hblock]

end LogMarkers.Source.Grammar
