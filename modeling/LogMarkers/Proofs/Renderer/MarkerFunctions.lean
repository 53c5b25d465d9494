import LogMarkers.Proofs.Renderer.Extension
import LogMarkers.Proofs.Source.MarkerFunction
import LogMarkers.Proofs.Text.ByteOrder
import Mathlib.Data.List.Sort

/-!
# Definitions of markers can be read back

The text that defines the markers of a registry is cut into the trees of an import and of one
function for each marker (`treesOf_markerDeclarations`), and read as these items
(`itemsOf_markerDeclarations`), as long as the identities are words with separators between.

A function is called by the last name of the identity only. The identities of a registry are all
different, their last names need not be, so the text defines a name twice exactly if two identities
end in the same one (`markerDeclarations_definesOnce_iff`).

* `find?_ofList`: of the markers registered under an identity the last one counts;
* `identities_eq_of_mem_iff`, `ofList_eq_of_perm`: the order of registrations is lost;
* `reads_markerDefinition`, `reads_markerDefinitions`: the definition of a marker and of several.
-/

namespace LogMarkers

open Text Source

/-! ## 1. What registrations come to -/

namespace Registry

theorem ext_find? {r s : Registry} (h : ∀ p, r.find? p = s.find? p) : r = s := by
  have hentries : r.entries = s.entries := Table.ext_get? fun k => h ⟨k⟩
  cases r
  cases s
  cases hentries
  rfl

/-- **The last marker registered under an identity is the one found there.** -/
theorem find?_ofList (markers : List Marker) (p : SymbolPath) :
    (ofList markers).find? p = markers.reverse.find? fun m => decide (m.identity = p) := by
  have hfold : ∀ r : Registry, (markers.foldl register r).find? p =
      (markers.reverse.find? fun m => decide (m.identity = p)).or (r.find? p) := by
    induction markers with
    | nil => exact fun r => rfl
    | cons m markers ih =>
      intro r
      rw [List.foldl_cons, ih, find?_register, List.reverse_cons, List.find?_append,
        Option.or_assoc]
      congr 1
      by_cases hp : p = m.identity
      · simp [hp]
      · simp [hp, Ne.symm hp]
  have hempty : empty.find? p = none := Table.get?_empty p.text
  rw [ofList, hfold, hempty, Option.or_none]

theorem mem_markers_iff {r : Registry} {m : Marker} :
    m ∈ r.markers ↔ r.find? m.identity = some m := by
  constructor
  · intro hm
    obtain ⟨⟨k, m'⟩, he, rfl⟩ := List.mem_map.mp hm
    have hfound := Table.lookup_of_mem r.entries.sorted he
    rw [← r.keyed k m' hfound] at hfound
    exact hfound
  · intro hfound
    exact List.mem_map.mpr ⟨_, Table.mem_of_lookup hfound, rfl⟩

/-- The registered markers are among the registrations. -/
theorem mem_of_mem_ofList {markers : List Marker} {m : Marker} (h : m ∈ (ofList markers).markers) :
    m ∈ markers := by
  rw [mem_markers_iff, find?_ofList] at h
  exact List.mem_reverse.mp (List.mem_of_find?_eq_some h)

/-- **The registered identities are those of the registrations.** -/
theorem mem_identities_ofList {markers : List Marker} {p : SymbolPath} :
    p ∈ (ofList markers).markers.map (·.identity) ↔ p ∈ markers.map (·.identity) := by
  constructor
  · intro hp
    obtain ⟨m, hm, rfl⟩ := List.mem_map.mp hp
    exact List.mem_map_of_mem (mem_of_mem_ofList hm)
  · intro hp
    obtain ⟨m, hm, rfl⟩ := List.mem_map.mp hp
    have hsome : ((ofList markers).find? m.identity).isSome := by
      rw [find?_ofList, List.find?_isSome]
      exact ⟨m, List.mem_reverse.mpr hm, decide_eq_true rfl⟩
    obtain ⟨m', hfound⟩ := Option.isSome_iff_exists.mp hsome
    have hidentity := identity_of_find? hfound
    exact List.mem_map.mpr ⟨m', mem_markers_iff.mpr (hidentity ▸ hfound), hidentity⟩

/-- The markers are listed by increasing identity. -/
theorem pairwise_identity (r : Registry) :
    r.markers.Pairwise fun m m' => m.identity.text < m'.identity.text := by
  refine List.pairwise_map.mpr (r.entries.sorted.imp_of_mem fun he he' hlt => ?_)
  have hkey := r.keyed _ _ (Table.lookup_of_mem r.entries.sorted he)
  have hkey' := r.keyed _ _ (Table.lookup_of_mem r.entries.sorted he')
  rwa [hkey, hkey']

theorem nodup_identities (r : Registry) : (r.markers.map (·.identity)).Nodup := by
  refine List.pairwise_map.mpr (r.pairwise_identity.imp fun {m m'} hlt e => ?_)
  rw [e] at hlt
  exact KeyOrder.irrefl _ hlt

/-- **Registries with the same identities list them alike.** -/
theorem identities_eq_of_mem_iff {r s : Registry}
    (h : ∀ p, p ∈ r.markers.map (·.identity) ↔ p ∈ s.markers.map (·.identity)) :
    r.markers.map (·.identity) = s.markers.map (·.identity) := by
  have hsorted : ∀ r : Registry,
      (r.markers.map (·.identity)).Pairwise fun p q => p.text < q.text :=
    fun r => List.pairwise_map.mpr r.pairwise_identity
  refine ((List.perm_ext_iff_of_nodup r.nodup_identities s.nodup_identities).mpr h).eq_of_pairwise
    (fun p q _ _ hpq hqp => ?_) (hsorted r) (hsorted s)
  exact absurd (KeyOrder.trans hpq hqp) (KeyOrder.irrefl _)

/-- Where the identities are distinct, every marker is found under its own. -/
theorem find?_ofList_eq_some_iff {markers : List Marker}
    (h : (markers.map (·.identity)).Nodup) {p : SymbolPath} {m : Marker} :
    (ofList markers).find? p = some m ↔ m ∈ markers ∧ m.identity = p := by
  constructor
  · intro hfound
    have hidentity := identity_of_find? hfound
    exact ⟨mem_of_mem_ofList (mem_markers_iff.mpr (hidentity ▸ hfound)), hidentity⟩
  · rintro ⟨hm, rfl⟩
    obtain ⟨m', hm', e⟩ := List.mem_map.mp
      (mem_identities_ofList.mpr (List.mem_map_of_mem (f := (·.identity)) hm))
    have hsame := List.inj_on_of_nodup_map h (mem_of_mem_ofList hm') hm e
    rwa [mem_markers_iff, hsame] at hm'

/-- **Distinct identities can be registered in any order.** -/
theorem ofList_eq_of_perm {markers markers' : List Marker} (h : markers'.Perm markers)
    (hnodup : (markers.map (·.identity)).Nodup) : ofList markers' = ofList markers := by
  refine ext_find? fun p => Option.ext fun m => ?_
  rw [find?_ofList_eq_some_iff ((h.map _).nodup_iff.mpr hnodup), find?_ofList_eq_some_iff hnodup,
    h.mem_iff]

end Registry

/-! ## 2. Identities of words -/

/-- An identity of words with separators between, the last of which can be a name. -/
def SymbolPath.IsWritten (p : SymbolPath) : Prop :=
  ∃ names last, (∀ n ∈ names, spellsWord n = true) ∧ IsOrdinary last ∧
    p = .ofSegments (names ++ [last])

/-- A name behind the name of a crate. -/
theorem SymbolPath.isWritten_pair {crate name : String} (hcrate : spellsWord crate = true)
    (hname : IsOrdinary name) : (SymbolPath.ofSegments [crate, name]).IsWritten :=
  ⟨[crate], name, by simpa using hcrate, hname, rfl⟩

/-- The characters of words with separators between. -/
theorem isContinue_of_mem_join {names : List String} (h : ∀ n ∈ names, spellsWord n = true)
    {c : Char} (hc : c ∈ (PathText.join names).toList) : isContinue c = true ∨ c = ':' := by
  have hword : ∀ n ∈ names, ∀ d ∈ n.toList, isContinue d = true := by
    intro n hn d hd
    obtain ⟨first, tail, e, hfirst, htail⟩ := exists_cons_of_spellsWord (h n hn)
    rw [e] at hd
    rcases List.mem_cons.mp hd with rfl | hd
    · exact isContinue_of_isStart hfirst
    · exact htail d hd
  cases names with
  | nil => simp [PathText.join] at hc
  | cons first names =>
    rw [Renderer.toList_join, List.mem_append, Renderer.moreChars, List.mem_flatMap] at hc
    rcases hc with hc | ⟨n, hn, hc⟩
    · exact .inl (hword first List.mem_cons_self c hc)
    · rcases List.mem_cons.mp hc with rfl | hc
      · exact .inr rfl
      · rcases List.mem_cons.mp hc with rfl | hc
        · exact .inr rfl
        · exact .inl (hword n (List.mem_cons_of_mem _ hn) c hc)

namespace SymbolPath.IsWritten

variable {p : SymbolPath}

/-- The last word of the identity is its name. -/
theorem isOrdinary_name (h : p.IsWritten) : IsOrdinary p.name := by
  obtain ⟨names, last, -, hlast, rfl⟩ := h
  have hname : (SymbolPath.ofSegments (names ++ [last])).name = last := by
    unfold SymbolPath.name SymbolPath.ofSegments PathText.last
    by_cases hne : names = []
    · rw [hne, List.nil_append]
      simp only [PathText.join]
      rw [PathText.cutLast?_of_isName hlast.isName]
    · rw [PathText.join_append_singleton hne, PathText.cutLast?_append _ hlast.isName]
  rwa [hname]

/-- The identity stands on one line. -/
theorem onOneLine (h : p.IsWritten) : ∀ c ∈ p.text.toList, c ≠ '\n' ∧ c ≠ '\r' := by
  obtain ⟨names, last, hnames, hlast, rfl⟩ := h
  have hall : ∀ n ∈ names ++ [last], spellsWord n = true := by
    simpa [or_imp, forall_and, hlast.spells] using hnames
  intro c hc
  rcases isContinue_of_mem_join hall hc with hword | rfl
  · exact ⟨by rintro rfl; exact absurd hword (by decide),
      by rintro rfl; exact absurd hword (by decide)⟩
  · decide

end SymbolPath.IsWritten

namespace Renderer

/-! ## 3. The text of a definition -/

/-- What the definition of a marker is documented with. -/
def documentation (m : Marker) : String :=
  " " ++ levelWord m.kind ++ " marker `" ++ m.identity.text ++ "`."

/-- The line that documents a marker. -/
theorem reads_documentation {m : Marker} (hm : m.identity.IsWritten) (rest : List Char) (l : Nat) :
    Reads ('/' :: '/' :: '/' :: ((documentation m).toList ++ '\n' :: rest)) l
      (Grammar.docTrees (documentation m) l) ('\n' :: rest) l := by
  have hlevel : ∀ kind, ∀ c ∈ (levelWord kind).toList, c ≠ '\n' ∧ c ≠ '\r' := by
    rintro (_ | _ | _) <;> exact List.all_iff_forall_prop.mp (by decide)
  have hmiddle : ∀ c ∈ " marker `".toList, c ≠ '\n' ∧ c ≠ '\r' :=
    List.all_iff_forall_prop.mp (by decide)
  have hend : ∀ c ∈ "`.".toList, c ≠ '\n' ∧ c ≠ '\r' := List.all_iff_forall_prop.mp (by decide)
  have hchars : (documentation m).toList = ' ' :: ((levelWord m.kind).toList ++
      (" marker `".toList ++ (m.identity.text.toList ++ "`.".toList))) := by
    simp [documentation]
  have hline : ∀ c ∈ (documentation m).toList, c ≠ '\n' ∧ c ≠ '\r' := by
    rw [hchars]
    exact List.forall_mem_cons.mpr ⟨by decide, List.forall_mem_append.mpr ⟨hlevel _,
      List.forall_mem_append.mpr ⟨hmiddle, List.forall_mem_append.mpr ⟨hm.onOneLine, hend⟩⟩⟩⟩
  have htext : String.ofList (documentation m).toList = documentation m := String.ofList_toList
  rw [hchars] at hline htext ⊢
  have hread := Reads.docComment (by decide) hline rest l
  have htrees : DocComment.trees ⟨false, _, '\n' :: rest, l⟩ l =
      Grammar.docTrees (String.ofList (' ' :: ((levelWord m.kind).toList ++
        (" marker `".toList ++ (m.identity.text.toList ++ "`.".toList))))) l := rfl
  rwa [htrees, htext] at hread

/-- The attribute that makes an attribute of a function. -/
theorem reads_procMacro (rest : List Char) (l : Nat) :
    Reads ('#' :: '[' :: ("proc_macro_attribute".toList ++ ']' :: rest)) l
      (Grammar.procMacroTrees l) rest l :=
  (Reads.sign (by decide) _ l).trans (Reads.brackets
    (Reads.word (by decide) (endsWord_cons (by decide) _) l))

/-- The characters of a parameter that is a token stream. -/
def streamChars (name : String) (rest : List Char) : List Char :=
  name.toList ++ ':' :: ' ' :: ("TokenStream".toList ++ rest)

theorem reads_stream {name : String} (h : IsOrdinary name) {c : Char}
    (hc : isContinue c = false ∧ c ∉ ['"', '#', '\'']) (rest : List Char) (l : Nat) :
    Reads (streamChars name (c :: rest)) l (Grammar.streamTrees h.word l) (c :: rest) l :=
  (Reads.word h.spells (endsWord_cons (by decide) _) l).trans
    ((Reads.sign (by decide) _ l).trans ((Reads.space _ l).trans
      (Reads.word (by decide) (endsWord_cons hc _) l)))

/-- The two parameters in their parentheses. -/
theorem reads_streams (rest : List Char) (l : Nat) :
    Reads ('(' :: streamChars "_args" (',' :: ' ' :: streamChars "item" (')' :: rest))) l
      [.group .paren (Grammar.streamsTrees l) l l] rest l := by
  have hcontent := (reads_stream Grammar.isOrdinary_args (c := ',') (by decide)
      (' ' :: streamChars "item" (')' :: rest)) l).trans
    ((Reads.sign (by decide) _ l).trans ((Reads.space _ l).trans
      (reads_stream Grammar.isOrdinary_item (c := ')') (by decide) rest l)))
  have hchars : "_args".toList = '_' :: "args".toList := by decide
  unfold streamChars at hcontent ⊢
  rw [hchars] at hcontent ⊢
  exact Reads.parens (by decide) hcontent

/-- The body that gives an argument back. -/
theorem reads_body (rest : List Char) (l : Nat) :
    Reads ('\x7b' :: '\n' :: ' ' :: ' ' :: ' ' :: ' ' ::
        ("item".toList ++ '\n' :: '\x7d' :: rest)) l
      [.group .brace [.word Grammar.isOrdinary_item.word (l + 1)] l (l + 2)] rest (l + 2) :=
  Reads.braces ((Reads.newline _ l).trans ((reads_indent _ (l + 1)).trans
    ((Reads.word (by decide) (endsWord_cons (by decide) _) (l + 1)).trans
      (Reads.newline ('\x7d' :: rest) (l + 1)))))

/-- The characters of a function that gives its second argument back. -/
def functionChars (name : String) (rest : List Char) : List Char :=
  "pub".toList ++ ' ' :: ("fn".toList ++ ' ' :: (name.toList ++ '(' ::
    streamChars "_args" (',' :: ' ' :: streamChars "item" (')' :: ' ' :: '-' :: '>' :: ' ' ::
      ("TokenStream".toList ++ ' ' :: '\x7b' :: '\n' :: ' ' :: ' ' :: ' ' :: ' ' ::
        ("item".toList ++ '\n' :: '\x7d' :: rest))))))

theorem reads_function {name : String} (h : IsOrdinary name) (rest : List Char) (l : Nat) :
    Reads (functionChars name rest) l (Grammar.functionTrees h.word l) rest (l + 2) := by
  have hword : ∀ (text : String) (ht : spellsWord text = true) (cs : List Char),
      Reads (text.toList ++ ' ' :: cs) l [.word (plainWord text ht) l] cs l := fun _ ht cs =>
    (Reads.word ht (endsWord_cons (by decide) _) l).trans (Reads.space cs l)
  have harrow := ((Reads.space _ l).trans ((Reads.sign (c := '-') (by decide) _ l).trans
    ((Reads.sign (c := '>') (by decide) _ l).trans ((Reads.space _ l).trans
      ((hword "TokenStream" (by decide) _).trans (reads_body rest l))))))
  exact (hword "pub" (by decide) _).trans ((hword "fn" (by decide) _).trans
    ((Reads.word h.spells (endsWord_cons (by decide) _) l).trans
      ((reads_streams _ l).trans harrow)))

/-! ## 4. The text of all definitions -/

/-- A marker as the definition it is read as, from this line on. -/
def defined (m : Marker) (h : m.identity.IsWritten) (l : Nat) : Grammar.Defined :=
  ⟨documentation m, h.isOrdinary_name.word, l⟩

/-- **The definition of a marker is cut into the trees of a function with two attributes.** -/
theorem reads_markerDefinition {m : Marker} (hm : m.identity.IsWritten) (rest : List Char)
    (l : Nat) :
    Reads ((markerDefinition m).toList ++ rest) l (defined m hm (l + 1)).trees rest (l + 6) := by
  have hchars : (markerDefinition m).toList ++ rest =
      '\n' :: '/' :: '/' :: '/' :: ((documentation m).toList ++ '\n' ::
        '#' :: '[' :: ("proc_macro_attribute".toList ++ ']' :: '\n' ::
          functionChars m.identity.name ('\n' :: rest))) := by
    simp [markerDefinition, documentation, functionChars, streamChars]
  rw [hchars]
  exact (Reads.newline _ l).trans ((reads_documentation hm _ (l + 1)).trans
    ((Reads.newline _ (l + 1)).trans ((reads_procMacro _ (l + 2)).trans
      ((Reads.newline _ (l + 2)).trans ((reads_function hm.isOrdinary_name _ (l + 3)).trans
        (Reads.newline rest (l + 5)))))))

/-- The item is the definition of the marker: a function of the last name of its identity, with an
    attribute that documents the whole identity and one that makes it an attribute. -/
def Defines (m : Marker) (item : Item) : Prop :=
  ∃ (h : spellsWord m.identity.name = true) (line : Nat),
    item = .function ⟨plainWord m.identity.name h, line⟩
      (Grammar.definitionAttributes (documentation m))

/-- **Definitions of markers are cut into the trees of functions**, one for each marker. -/
theorem reads_markerDefinitions {markers : List Marker} (h : ∀ m ∈ markers, m.identity.IsWritten)
    (l : Nat) :
    ∃ (definitions : List Grammar.Defined) (after : Nat),
      (∀ d ∈ definitions, isName d.name = true) ∧
      List.Forall₂ (fun m (d : Grammar.Defined) => Defines m d.item) markers definitions ∧
      Reads (markers.flatMap fun m => (markerDefinition m).toList) l
        (definitions.flatMap Grammar.Defined.trees) [] after := by
  induction markers generalizing l with
  | nil => exact ⟨[], l, by simp, .nil, Reads.refl [] l⟩
  | cons m markers ih =>
    have hm := h m List.mem_cons_self
    obtain ⟨definitions, after, hnames, hdefines, hread⟩ :=
      ih (fun m' hm' => h m' (List.mem_cons_of_mem _ hm')) (l + 6)
    have hname : isName (defined m hm (l + 1)).name = true := by
      simp [defined, isName_plainWord, hm.isOrdinary_name.unreserved]
    have hfirst : Defines m (defined m hm (l + 1)).item := ⟨hm.isOrdinary_name.spells, _, rfl⟩
    exact ⟨defined m hm (l + 1) :: definitions, after, List.forall_mem_cons.mpr ⟨hname, hnames⟩,
      .cons hfirst hdefines, (reads_markerDefinition hm _ l).trans hread⟩

/-- The import of the type of token streams. -/
theorem reads_import (rest : List Char) (l : Nat) :
    Reads ("use".toList ++ ' ' :: ("proc_macro".toList ++ ':' :: ':' ::
        ("TokenStream".toList ++ ';' :: '\n' :: rest))) l
      (Grammar.importTrees l) rest (l + 1) := by
  have hlast : startsSign ("TokenStream".toList ++ ';' :: '\n' :: rest) = false := by
    have hchars : "TokenStream".toList = 'T' :: "okenStream".toList := by decide
    rw [hchars]
    exact startsSign_of_isStart (by decide) _
  have hcolon := Reads.sign (c := ':') (by decide) ("TokenStream".toList ++ ';' :: '\n' :: rest) l
  rw [hlast] at hcolon
  exact (Reads.word (by decide) (endsWord_cons (by decide) _) l).trans ((Reads.space _ l).trans
    ((Reads.word (by decide) (endsWord_cons (by decide) _) l).trans
      ((Reads.sign (by decide) _ l).trans (hcolon.trans
        ((Reads.word (by decide) (endsWord_cons (by decide) _) l).trans
          ((Reads.sign (by decide) _ l).trans (Reads.newline rest l)))))))

/-- The characters of the definitions of a registry. -/
theorem toList_markerDeclarations (r : Registry) :
    (standard.markerDeclarations r).toList =
      '/' :: '/' :: (' ' :: "<auto-generated/>".toList ++ '\n' :: '/' :: '/' ::
        (' ' :: "Marker attributes recognized by autolog. They expand to the item unchanged.".toList
          ++ '\n' :: '\n' :: ("use".toList ++ ' ' :: ("proc_macro".toList ++ ':' :: ':' ::
            ("TokenStream".toList ++ ';' :: '\n' ::
              r.markers.flatMap fun m => (markerDefinition m).toList))))) := by
  have hjoin : ∀ texts : List String, (String.join texts).toList = texts.flatMap String.toList := by
    intro texts
    simp
  simp [standard, header, hjoin, List.flatMap_map]

theorem treesOf_markerDeclarations {r : Registry} (h : ∀ m ∈ r.markers, m.identity.IsWritten) :
    ∃ definitions : List Grammar.Defined, (∀ d ∈ definitions, isName d.name = true) ∧
      List.Forall₂ (fun m (d : Grammar.Defined) => Defines m d.item) r.markers definitions ∧
      treesOf (standard.markerDeclarations r) =
        .ok (Grammar.importTrees 4 ++ definitions.flatMap Grammar.Defined.trees) := by
  obtain ⟨definitions, after, hnames, hdefines, hread⟩ := reads_markerDefinitions h 5
  refine ⟨definitions, hnames, hdefines, ?_⟩
  have hall := (reads_comment "<auto-generated/>" (by decide) _ 1).trans
    ((reads_comment "Marker attributes recognized by autolog. They expand to the item unchanged."
      (by decide) _ 2).trans ((Reads.newline _ 3).trans ((reads_import _ 4).trans hread)))
  have htrees := readTrees_of_reads hall
  unfold treesOf
  rw [toList_markerDeclarations]
  exact htrees

theorem length_le_length_markerDefinitions (markers : List Marker) :
    markers.length ≤ (markers.flatMap fun m => (markerDefinition m).toList).length := by
  induction markers with
  | nil => exact Nat.le_refl 0
  | cons m markers ih =>
    have hm : 0 < (markerDefinition m).toList.length := by
      simp [markerDefinition]
    rw [List.flatMap_cons, List.length_append, List.length_cons]
    omega

/-- **The definitions of a registry are read as the import and one function for each marker**, in
    the order of the markers. -/
theorem itemsOf_markerDeclarations {r : Registry} (h : ∀ m ∈ r.markers, m.identity.IsWritten) :
    ∃ functions, itemsOf (standard.markerDeclarations r) =
        .ok (Grammar.streamImport :: functions) ∧
      List.Forall₂ Defines r.markers functions := by
  obtain ⟨definitions, hnames, hdefines, htrees⟩ := treesOf_markerDeclarations h
  have hfuel : definitions.length + 7 ≤ 4 * (standard.markerDeclarations r).length + 16 := by
    have hlength := length_le_length_markerDefinitions r.markers
    rw [← String.length_toList, toList_markerDeclarations, ← hdefines.length_eq]
    simp only [List.length_cons, List.length_append]
    omega
  refine ⟨definitions.map Grammar.Defined.item, ?_, List.forall₂_map_right_iff.mpr hdefines⟩
  unfold itemsOf
  rw [htrees]
  simp only [bind, Except.bind, Grammar.run_definitionItems hnames hfuel 4 1]
  rfl

end Renderer

/-! ## 5. Names that are defined once -/

/-- The name of an item that is a function. -/
def Source.Item.functionName? : Item → Option String
  | .function declared _ => some declared.ident.text
  | _ => none

/-- A source text can be read, and the functions in it that stand in no module have different
    names. -/
def DefinesOnce (text : String) : Prop :=
  ∃ items, itemsOf text = .ok items ∧ (items.filterMap Item.functionName?).Nodup

namespace Renderer

/-- Definitions are functions of the last names of the identities. -/
theorem functionNames_of_defines {markers : List Marker} {functions : List Item}
    (h : List.Forall₂ Defines markers functions) :
    functions.filterMap Item.functionName? = markers.map (·.identity.name) := by
  induction h with
  | nil => rfl
  | cons hm _ ih =>
    obtain ⟨hword, line, rfl⟩ := hm
    simp [Item.functionName?, ih]

theorem definesOnce_markerDeclarations_iff {r : Registry}
    (h : ∀ m ∈ r.markers, m.identity.IsWritten) :
    DefinesOnce (standard.markerDeclarations r) ↔ (r.markers.map (·.identity.name)).Nodup := by
  obtain ⟨functions, hitems, hdefines⟩ := itemsOf_markerDeclarations h
  have hnames : (Grammar.streamImport :: functions).filterMap Item.functionName? =
      r.markers.map (·.identity.name) := by
    rw [List.filterMap_cons_none rfl, functionNames_of_defines hdefines]
  unfold DefinesOnce
  constructor
  · rintro ⟨items, hitems', hnodup⟩
    rw [hitems] at hitems'
    cases hitems'
    rwa [hnames] at hnodup
  · exact fun hnodup => ⟨_, hitems, hnames ▸ hnodup⟩

end Renderer

namespace Registry

/-- The last names are different exactly if different identities were registered under different
    last names. -/
theorem nodup_names_ofList {markers : List Marker} :
    ((ofList markers).markers.map (·.identity.name)).Nodup ↔
      ∀ m ∈ markers, ∀ m' ∈ markers, m.identity.name = m'.identity.name →
        m.identity = m'.identity := by
  have hnames : (ofList markers).markers.map (·.identity.name) =
      ((ofList markers).markers.map (·.identity)).map SymbolPath.name := by
    rw [List.map_map]
    rfl
  rw [hnames, List.nodup_map_iff_inj_on (nodup_identities _)]
  simp only [mem_identities_ofList, List.forall_mem_map]

end Registry

/-- **What the definitions of a registry define**, for all registrations of identities that are
    words with separators between: the text is an import and one function for each registered
    identity, by increasing identity, whatever the order of the registrations. No name is defined
    twice exactly if no two identities end in the same name. -/
theorem markerDeclarations_definesOnce_iff {markers : List Marker}
    (h : ∀ m ∈ markers, m.identity.IsWritten) :
    let r := Registry.ofList markers
    let text := Renderer.standard.markerDeclarations r
    (∃ functions, itemsOf text = .ok (Grammar.streamImport :: functions) ∧
      List.Forall₂ Renderer.Defines r.markers functions) ∧
    (∀ p, p ∈ r.markers.map (·.identity) ↔ p ∈ markers.map (·.identity)) ∧
    (r.markers.Pairwise fun m m' => utf8Bytes m.identity.text < utf8Bytes m'.identity.text) ∧
    (∀ markers' : List Marker,
      (∀ p, p ∈ markers'.map (·.identity) ↔ p ∈ markers.map (·.identity)) →
      (Registry.ofList markers').markers.map (·.identity) = r.markers.map (·.identity)) ∧
    (∀ markers' : List Marker, markers'.Perm markers → (markers.map (·.identity)).Nodup →
      Renderer.standard.markerDeclarations (Registry.ofList markers') = text) ∧
    (DefinesOnce text ↔ ∀ m ∈ markers, ∀ m' ∈ markers, m.identity.name = m'.identity.name →
      m.identity = m'.identity) := by
  intro r text
  have hwritten : ∀ m ∈ r.markers, m.identity.IsWritten := fun m hm =>
    h m (Registry.mem_of_mem_ofList hm)
  refine ⟨Renderer.itemsOf_markerDeclarations hwritten, fun p => Registry.mem_identities_ofList,
    r.pairwise_identity.imp utf8Bytes_lt, fun markers' hsame => ?_, fun markers' hperm hnodup => ?_,
    (Renderer.definesOnce_markerDeclarations_iff hwritten).trans Registry.nodup_names_ofList⟩
  · refine Registry.identities_eq_of_mem_iff fun p => ?_
    rw [Registry.mem_identities_ofList, Registry.mem_identities_ofList, hsame p]
  · exact congrArg _ (Registry.ofList_eq_of_perm hperm hnodup)

/-- The markers of the standard registry have different names. -/
theorem definesOnce_standardMarkers :
    (∀ m ∈ Registry.standard.markers, m.identity.IsWritten) ∧
      DefinesOnce (Renderer.standard.markerDeclarations Registry.standard) := by
  have hidentities : Registry.standard.markers.map (·.identity) =
      [.ofSegments ["autolog", "auto_log_class"], .ofSegments ["autolog", "auto_log_method"],
        .ofSegments ["autolog", "auto_log_property"]] := by decide
  have hwritten : ∀ p ∈ Registry.standard.markers.map (·.identity), p.IsWritten := by
    have hpair : ∀ {name : String}, IsOrdinary name →
        (SymbolPath.ofSegments ["autolog", name]).IsWritten := SymbolPath.isWritten_pair (by decide)
    rw [hidentities]
    simp only [List.forall_mem_cons, List.not_mem_nil, false_implies, implies_true,
      and_true]
    exact ⟨hpair ⟨by decide, by decide⟩, hpair ⟨by decide, by decide⟩,
      hpair ⟨by decide, by decide⟩⟩
  have hmarkers := List.forall_mem_map.mp hwritten
  have hstandard : Registry.ofList Registry.standard.markers = Registry.standard := by decide
  obtain ⟨-, -, -, -, -, honce⟩ := markerDeclarations_definesOnce_iff hmarkers
  rw [hstandard] at honce
  exact ⟨hmarkers, honce.mpr (by decide)⟩

/-- Two crates that each have a marker of the same name. -/
def twinMarkers : List Marker :=
  [⟨.ofSegments ["alpha", "trace"], .declaration, [.struct]⟩,
    ⟨.ofSegments ["beta", "trace"], .declaration, [.struct]⟩]

/-- Both markers become a function `trace` in one text, although their identities differ. -/
theorem not_definesOnce_twinMarkers :
    (∀ m ∈ twinMarkers, m.identity.IsWritten) ∧ (twinMarkers.map (·.identity)).Nodup ∧
      (∃ items, itemsOf (Renderer.standard.markerDeclarations (Registry.ofList twinMarkers)) =
        .ok items ∧ items.filterMap Item.functionName? = ["trace", "trace"]) ∧
      ¬ DefinesOnce (Renderer.standard.markerDeclarations (Registry.ofList twinMarkers)) := by
  have htrace : IsOrdinary "trace" := ⟨by decide, by decide⟩
  have hwritten : ∀ m ∈ twinMarkers, m.identity.IsWritten := by
    simp only [twinMarkers, List.forall_mem_cons, List.not_mem_nil, false_implies, implies_true,
      and_true]
    exact ⟨SymbolPath.isWritten_pair (by decide) htrace,
      SymbolPath.isWritten_pair (by decide) htrace⟩
  have hregistered : ∀ m ∈ (Registry.ofList twinMarkers).markers, m.identity.IsWritten :=
    fun m hm => hwritten m (Registry.mem_of_mem_ofList hm)
  obtain ⟨functions, hitems, hdefines⟩ := Renderer.itemsOf_markerDeclarations hregistered
  have hnames : (Registry.ofList twinMarkers).markers.map (·.identity.name) =
      ["trace", "trace"] := by decide
  refine ⟨hwritten, by decide, ⟨_, hitems, ?_⟩, fun honce => ?_⟩
  · rw [List.filterMap_cons_none rfl, Renderer.functionNames_of_defines hdefines, hnames]
  · have hnodup := (Renderer.definesOnce_markerDeclarations_iff hregistered).mp honce
    rw [hnames] at hnodup
    exact absurd hnodup (by decide)

end LogMarkers
