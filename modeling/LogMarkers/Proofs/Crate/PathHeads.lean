import LogMarkers.Proofs.Crate.SelfTypes

/-!
# What canonical paths start with

A canonical path starts with the word for the crate, or with the name of another crate. Resolution
keeps this at every step but one: a path with a leading double colon is taken as it is written.
Where no alias and no import is written with a leading double colon before `self` or `super`, one
way to such a path is left: `extern crate self as name` binds the name to the path `::self`.

* `HeadIsCanonical`, `ScopeIndex.ComesFrom.resultClosed_head`: what every step keeps;
* `ScopeIndex.RenamesWord`: a module has bound one of the two words as the name of a crate;
* `SourceSet.heads_canonical_iff`: canonical paths start as they should exactly if no module has.
-/

namespace LogMarkers

/-! ## 1. Heads of paths -/

/-- The words that lead to a module from where they are written. -/
def relativeWords : List String := ["self", "super"]

/-- The path starts with the word for the crate, or with what can be the name of another crate. -/
def HeadIsCanonical (path : List String) : Prop :=
  ∃ first rest, path = first :: rest ∧
    (first = crateWord ∨ IsSpelled first ∧ first ∉ relativeWords)

/-- The path has a leading double colon before a word that is none of a crate. -/
def WrittenPath.RootsWord (p : WrittenPath) : Prop :=
  p.leadingColon = true ∧ ∃ word ∈ relativeWords, p.segments.head? = some word

instance (p : WrittenPath) : Decidable p.RootsWord := inferInstanceAs (Decidable (_ ∧ _))

theorem headIsCanonical_crate (names : List String) : HeadIsCanonical (crateWord :: names) :=
  ⟨crateWord, names, rfl, .inl rfl⟩

/-- A path from the root of all crates, with a name of a crate in front. -/
theorem headIsCanonical_absolute {p : WrittenPath} (hp : p.Spelled) (hl : p.leadingColon = true)
    (hne : p.segments ≠ []) (hno : ¬ p.RootsWord) : HeadIsCanonical p.segments := by
  obtain ⟨first, rest, e⟩ := List.exists_cons_of_ne_nil hne
  have hspelled : IsSpelled first := hp first (e ▸ List.mem_cons_self)
  have hword : first ∉ relativeWords := fun hmem => hno ⟨hl, first, hmem, by rw [e]; rfl⟩
  exact ⟨first, rest, e, .inr ⟨hspelled, hword⟩⟩

theorem HeadIsCanonical.append {path : List String} (h : HeadIsCanonical path)
    (rest : List String) : HeadIsCanonical (path ++ rest) := by
  obtain ⟨first, names, rfl, hfirst⟩ := h
  exact ⟨first, names ++ rest, rfl, hfirst⟩

namespace ScopeIndex

variable {x : ScopeIndex} {G : Given}

/-- A name that its module does not declare is bound to one of the two words, as the name of a
    crate. -/
def RenamesWord (x : ScopeIndex) : Prop :=
  ∃ module name word, name ∉ relativeWords ∧ word ∈ relativeWords ∧
    x.item? module name = none ∧ x.import? module name = some ⟨[word], true⟩

namespace ComesFrom

theorem imports_of_follows (h : x.ComesFrom G) {p : WrittenPath} (hp : x.Follows p) :
    G.Imports p := by
  cases hp with
  | glob hs hg => exact .inl ((h.scopes _ _ hs).globs p hg)
  | aliased hi => exact .inl ((h.of_item? hi).2 p rfl)
  | imported _ _ _ hm => exact (h.of_import? hm).2

/-- **Only the name of a crate puts one of the two words behind a leading double colon**, if the
    sources do not. -/
theorem not_rootsWord_of_follows (h : x.ComesFrom G) (hG : ∀ p, G.link p → ¬ p.RootsWord)
    (hno : ¬ x.RenamesWord) {p : WrittenPath} (hp : x.Follows p) : ¬ p.RootsWord := by
  cases hp with
  | glob hs hg => exact hG p ((h.scopes _ _ hs).globs p hg)
  | aliased hi => exact hG p ((h.of_item? hi).2 p rfl)
  | @imported module name _ hself hsuper hi hm =>
    rcases (h.of_import? hm).2 with hlink | ⟨crate, rfl⟩
    · exact hG p hlink
    · rintro ⟨-, word, hword, e⟩
      obtain rfl : crate.text = word := Option.some.inj e
      have hname : name ∉ relativeWords := by simp [relativeWords, hself, hsuper]
      exact hno ⟨module, name, _, hname, hword, hi, hm⟩

/-- **Every step of resolution keeps the heads of paths canonical**, where no followed path roots
    one of the two words. -/
theorem resultClosed_head (hx : x.ComesFrom G) (hspelled : ∀ p, G.link p → p.Spelled)
    (hno : ∀ p, x.Follows p → ¬ p.RootsWord) :
    x.ResultClosed IsSpelled (fun _ => True) HeadIsCanonical where
  linked _ hp := (hx.imports_of_follows hp).spelled hspelled
  known _ _ := trivial
  root := trivial
  parent _ _ _ _ := trivial
  enter _ _ _ _ _ := trivial
  absolute p hp hl hne :=
    headIsCanonical_absolute ((hx.imports_of_follows hp).spelled hspelled) hl hne (hno p hp)
  external first rest hfirst _ hself hsuper :=
    ⟨first, rest, rfl, .inr ⟨hfirst, by simp [relativeWords, hself, hsuper]⟩⟩
  inside _ _ := headIsCanonical_crate _
  item _ _ _ _ _ := headIsCanonical_crate _
  unresolved _ _ _ _ _ _ := headIsCanonical_crate _
  child _ _ _ _ _ _ _ _ := headIsCanonical_crate _
  extend _ rest hbase _ _ _ := hbase.append rest

end ComesFrom

/-- A name that is bound to such a word stands for it. -/
theorem lookup_of_renamed {module name word : String} (hi : x.item? module name = none)
    (hm : x.import? module name = some ⟨[word], true⟩) :
    x.lookup module name [] = some [word] := by
  refine lookup_of_explicit x ?_
  rw [lookupExplicit_import x List.not_mem_nil hi hm]
  exact resolveWritten_leadingColon x (List.cons_ne_nil _ _)

/-- So its module reaches a path that starts with the word, and that is all of it. -/
theorem resolve_of_renamed {module name word : String} (hname : name ∉ relativeWords)
    (hi : x.item? module name = none) (hm : x.import? module name = some ⟨[word], true⟩) :
    x.resolve module ⟨["self", name], false⟩ = some [word] := by
  have hself : name ≠ "self" := fun e => hname (by simp [relativeWords, e])
  have hsuper : name ≠ "super" := fun e => hname (by simp [relativeWords, e])
  unfold resolve
  rw [resolveWritten_self, resolveInside_single x hself hsuper, lookup_of_renamed hi hm]

end ScopeIndex

/-! ## 2. Crates that are lowered -/

/-- The word for the module that it is written in. -/
def selfWord : Identifier :=
  ⟨"self".toList, false, by decide, List.all_eq_true.mp (by decide)⟩

/-- **Canonical paths start with the word for the crate or with the name of another crate**, where
    the sources root none of the two words: exactly if no module has bound one of them as the name
    of a crate, under a name that it does not declare. -/
theorem SourceSet.heads_canonical_iff {s : SourceSet} {c : LoweredCrate} (h : s.lower = .ok c)
    (hlinks : ∀ p, s.Links p → ¬ p.RootsWord) :
    (∀ module ∈ c.scopes.modules.keys, ∀ (names : List Identifier) (path : List String),
        c.scopes.resolve module ⟨names.map (·.text), false⟩ = some path → HeadIsCanonical path) ↔
      ¬ c.scopes.RenamesWord := by
  have hcomes := SourceSet.comesFrom_lower h
  constructor
  · rintro hheads ⟨module, name, word, hname, hword, hi, hm⟩
    obtain ⟨ident, rfl⟩ := (hcomes.of_import? hm).1
    have hresolved := ScopeIndex.resolve_of_renamed hname hi hm
    obtain ⟨first, rest, e, hfirst⟩ :=
      hheads module (ScopeIndex.mem_keys_of_import? hm) [selfWord, ident] [word] hresolved
    obtain ⟨rfl, -⟩ := List.cons.inj e
    rcases hfirst with rfl | ⟨-, hno⟩
    · exact absurd hword (by decide)
    · exact hno hword
  · intro hno module _ names path hpath
    have hclosed := hcomes.resultClosed_head (fun _ hlink => SourceSet.Links.spelled hlink)
      fun _ hp => hcomes.not_rootsWord_of_follows hlinks hno hp
    have hnames : ∀ name ∈ names.map (·.text), IsSpelled name := by
      intro name hname
      obtain ⟨ident, -, rfl⟩ := List.mem_map.mp hname
      exact ident.isSpelled_text
    exact (ScopeIndex.resolveWritten_closed hclosed).1 module _ false true [] trivial hnames
      (fun hl => absurd hl Bool.false_ne_true) path hpath

/-- The links of a source set are those that reading it comes to. -/
theorem SourceSet.mem_of_links {s : SourceSet} {paths : List WrittenPath}
    (h : (s.parse.toOption.map fun files => files.flatMap fun f => links f.items) = some paths)
    {path : WrittenPath} (hp : s.Links path) : path ∈ paths := by
  obtain ⟨files, hparse, f, hf, hpath⟩ := hp
  rw [hparse] at h
  cases h
  exact List.mem_flatMap.mpr ⟨f, hf, hpath⟩

/-- A crate that gives another crate a second name, with an alias behind it. -/
def shownSources : SourceSet := oneFile
  "extern crate core as base;\n\ntype Shown = base::fmt::Debug;\n"

/-- All its paths start as they should. -/
theorem heads_canonical_shownSources :
    ∃ c, shownSources.lower = .ok c ∧ c.scopes.import? "" "base" = some ⟨["core"], true⟩ ∧
      ∀ module ∈ c.scopes.modules.keys, ∀ (names : List Identifier) (path : List String),
        c.scopes.resolve module ⟨names.map (·.text), false⟩ = some path →
          HeadIsCanonical path := by
  let shown : WrittenPath := ⟨["base", "fmt", "Debug"], false⟩
  let core : WrittenPath := ⟨["core"], true⟩
  have hlinks : (shownSources.parse.toOption.map fun files => files.flatMap fun f =>
      links f.items) = some [shown] := by decide +kernel
  have hread : (shownSources.lower.toOption.map fun c =>
      (c.scopes.import? "" "base", c.scopes.linkPaths)) = some (some core, [shown, core]) := by
    decide +kernel
  obtain ⟨c, hc, e⟩ := Option.map_eq_some_iff.mp hread
  obtain ⟨hbase, hpaths⟩ := Prod.mk.inj e
  have hlower := eq_ok_of_toOption hc
  refine ⟨c, hlower, hbase, (SourceSet.heads_canonical_iff hlower fun p hp => ?_).mpr ?_⟩
  · rw [List.mem_singleton.mp (SourceSet.mem_of_links hlinks hp)]
    decide
  · rintro ⟨module, name, word, -, hword, -, hm⟩
    have hmem : (⟨[word], true⟩ : WrittenPath) ∈ [shown, core] :=
      hpaths ▸ ScopeIndex.import_mem_linkPaths hm
    have hcore : word = "core" := by simpa [shown, core] using hmem
    exact absurd (hcore ▸ hword) (by decide)

/-- A crate that gives itself a name, and implements a type of it behind that name. -/
def selfNamedSources : SourceSet := oneFile
  "extern crate self as me;\n\npub struct Widget;\n\nimpl me::Widget \x7b\x7d\n"

/-- **A type of this crate is found under `self`**, though no path is written with a leading double
    colon. -/
theorem head_not_canonical_selfNamedSources :
    ∃ c, selfNamedSources.lower = .ok c ∧ (∀ p, selfNamedSources.Links p → ¬ p.RootsWord) ∧
      (∀ p ∈ c.scopes.implTargets.values, p.leadingColon = false) ∧
      (∀ i n, c.tree.node? i = some n → n.attributes = []) ∧
      c.scopes.item? "" "Widget" = some .nominal ∧
      c.scopes.resolve "" ⟨["me", "Widget"], false⟩ = some ["self", "Widget"] ∧
      ¬ HeadIsCanonical ["self", "Widget"] := by
  let own : WrittenPath := ⟨["self"], true⟩
  have hlinks : (selfNamedSources.parse.toOption.map fun files => files.flatMap fun f =>
      links f.items) = some [] := by decide +kernel
  have hread : (selfNamedSources.lower.toOption.map fun c =>
      (c.scopes.scope? "", c.scopes.implTargets.values, c.tree.nodes.toList.map (·.attributes))) =
      some (some ⟨.ofList [("Widget", .nominal)], .ofList [("me", own)], []⟩,
        [⟨["me", "Widget"], false⟩], [[], [], []]) := by
    decide +kernel
  obtain ⟨c, hc, e⟩ := Option.map_eq_some_iff.mp hread
  obtain ⟨hscope, e⟩ := Prod.mk.inj e
  obtain ⟨htargets, hattributes⟩ := Prod.mk.inj e
  refine ⟨c, eq_ok_of_toOption hc, fun p hp => ?_, ?_, ?_, ?_, ?_, ?_⟩
  · cases SourceSet.mem_of_links hlinks hp
  · rw [htargets]
    decide
  · intro i n hn
    have hmem : n.attributes ∈ c.tree.nodes.toList.map (·.attributes) :=
      List.mem_map_of_mem (Array.mem_toList_iff.mpr (Array.mem_of_getElem? hn))
    rw [hattributes] at hmem
    simpa using hmem
  · rw [ScopeIndex.item?, hscope]
    decide
  · have hi : c.scopes.item? "" "me" = none := by
      rw [ScopeIndex.item?, hscope]
      decide
    have hm : c.scopes.import? "" "me" = some own := by
      rw [ScopeIndex.import?, hscope]
      decide
    unfold ScopeIndex.resolve
    rw [ScopeIndex.resolveWritten_name _ (by decide) (by decide) (by decide), if_pos rfl,
      ScopeIndex.lookup_of_renamed hi hm]
    exact ScopeIndex.descend_external _ rfl
  · rintro ⟨first, rest, e, hfirst⟩
    obtain ⟨rfl, -⟩ := List.cons.inj e
    rcases hfirst with e | ⟨-, hno⟩
    · exact absurd e (by decide)
    · exact hno (by decide)

end LogMarkers
