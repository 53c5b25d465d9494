import LogMarkers.Text.Identifier
import LogMarkers.Text.PathText

/-!
# Names in paths

A name is a text that is not empty and has no colon. Names joined to a path can be read off it
again, and putting one more name behind a path is the same on texts and on lists of names.

* `KeptApart`: cutting joined names gives them back; so it is with names (`segments_join`), and with
  what any text is cut into, colons and all (`segments_join_segments`);
* `within_join`: a name inside a joined path is joined behind it;
* `segments_within`: the names of a path with one more name behind it;
* `cutLast?_append`: the last name of a path and what stands before it;
* `within_injective`: a name inside a path tells the path;
* `eq_or_append_of_append_eq`: a separator of a path with one more name is the last one, or one of
  the path.
-/

namespace LogMarkers.PathText

/-- A text that can be one name of a path. -/
def IsName (text : String) : Prop := text ≠ "" ∧ ':' ∉ text.toList

instance (text : String) : Decidable (IsName text) := inferInstanceAs (Decidable (_ ∧ _))

/-! ## 1. Splitting -/

/-- Characters before which no separator starts are put in front of the first piece. -/
theorem splitChars_cons {c : Char} {cs : List Char} (hc : ∀ rest, c :: cs ≠ ':' :: ':' :: rest)
    {piece : List Char} {pieces : List (List Char)} (h : splitChars cs = piece :: pieces) :
    splitChars (c :: cs) = (c :: piece) :: pieces := by
  rw [splitChars]
  · rw [h]
  · rintro rest rfl rfl
    exact hc rest rfl

theorem splitChars_ne_nil (cs : List Char) : splitChars cs ≠ [] := by
  unfold splitChars
  split
  · exact List.cons_ne_nil _ _
  · exact List.cons_ne_nil _ _
  · split <;> exact List.cons_ne_nil _ _

/-- Characters that are one piece. -/
def IsPiece (cs : List Char) : Prop := splitChars cs = [cs]

/-- A text without a colon is one piece. -/
theorem isPiece_of_notMem {cs : List Char} (h : ':' ∉ cs) : IsPiece cs := by
  induction cs with
  | nil => rfl
  | cons c rest ih =>
    rw [List.mem_cons, not_or] at h
    exact splitChars_cons (fun _ e => h.1 (List.cons.inj e).1.symm) (ih h.2)

/-- What stands before the first separator is the first piece, unless a colon before it makes the
    separator start earlier. -/
theorem IsPiece.splitChars_append {cs : List Char} (h : IsPiece cs)
    (hlast : cs.getLast? ≠ some ':') (rest : List Char) :
    splitChars (cs ++ ':' :: ':' :: rest) = cs :: splitChars rest := by
  induction cs with
  | nil => rfl
  | cons c tail ih =>
    have hc : ∀ more, c :: tail ≠ ':' :: ':' :: more := by
      intro more e
      rw [e] at h
      cases h
    have htail : IsPiece tail := by
      obtain ⟨piece, pieces, e⟩ := List.exists_cons_of_ne_nil (splitChars_ne_nil tail)
      have hwhole := splitChars_cons hc e
      rw [h] at hwhole
      cases hwhole
      exact e
    cases tail with
    | nil => exact splitChars_cons (fun more e => hlast (by rw [(List.cons.inj e).1]; rfl)) rfl
    | cons d tail =>
      rw [List.getLast?_cons_cons] at hlast
      refine splitChars_cons (fun more e => ?_) (ih htail hlast)
      obtain ⟨hfirst, hrest⟩ := List.cons.inj e
      obtain ⟨hsecond, -⟩ := List.cons.inj hrest
      exact hc tail (by rw [hfirst, hsecond])

/-- The first piece starts like the text. -/
theorem exists_cons_of_splitChars {c : Char} {cs piece : List Char} {pieces : List (List Char)}
    (h : splitChars cs = (c :: piece) :: pieces) : ∃ rest, cs = c :: rest := by
  unfold splitChars at h
  split at h
  · cases h
  · cases h
  · split at h <;> cases h <;> exact ⟨_, rfl⟩

/-- An empty first piece of several is the one before a separator. -/
theorem exists_separator_of_splitChars {cs piece : List Char} {pieces : List (List Char)}
    (h : splitChars cs = [] :: piece :: pieces) : ∃ rest, cs = ':' :: ':' :: rest := by
  unfold splitChars at h
  split at h
  · cases h
  · exact ⟨_, rfl⟩
  · split at h <;> cases h

/-- **The pieces of a text are pieces, and only the last can end in a colon.** -/
theorem splitChars_pieces (cs : List Char) : (∀ piece ∈ splitChars cs, IsPiece piece) ∧
    (splitChars cs).Pairwise fun piece _ => piece.getLast? ≠ some ':' := by
  fun_induction splitChars cs with
  | case1 => exact ⟨by simp [IsPiece, splitChars], List.pairwise_singleton _ _⟩
  | case2 rest ih =>
    refine ⟨fun piece hp => ?_, List.pairwise_cons.mpr ⟨fun _ _ => by simp, ih.2⟩⟩
    rcases List.mem_cons.mp hp with rfl | hp
    · rfl
    · exact ih.1 piece hp
  | case3 c rest _ hnone => exact absurd hnone (splitChars_ne_nil rest)
  | case4 c rest hc piece pieces e ih =>
    rw [e] at ih
    obtain ⟨hlast, hpairs⟩ := List.pairwise_cons.mp ih.2
    constructor
    · intro other hother
      rcases List.mem_cons.mp hother with rfl | hother
      · refine splitChars_cons (fun more hsep => ?_) (ih.1 piece List.mem_cons_self)
        obtain ⟨rfl, rfl⟩ := List.cons.inj hsep
        obtain ⟨tail, rfl⟩ := exists_cons_of_splitChars e
        exact hc tail rfl rfl
      · exact ih.1 other (List.mem_cons_of_mem _ hother)
    · refine List.pairwise_cons.mpr ⟨fun other hother => ?_, hpairs⟩
      cases piece with
      | nil =>
        -- the separator behind the character would start with it if it were a colon
        obtain ⟨next, more, rfl⟩ := List.exists_cons_of_ne_nil (List.ne_nil_of_mem hother)
        obtain ⟨tail, rfl⟩ := exists_separator_of_splitChars e
        intro hcolon
        exact hc _ (Option.some.inj hcolon) rfl
      | cons d piece =>
        rw [List.getLast?_cons_cons]
        exact hlast other hother

theorem IsName.isPiece {name : String} (h : IsName name) : IsPiece name.toList :=
  isPiece_of_notMem h.2

theorem IsName.getLast?_ne {name : String} (h : IsName name) : name.toList.getLast? ≠ some ':' :=
  fun e => h.2 (List.mem_of_getLast? e)

theorem split_append {name : String} (h : IsPiece name.toList)
    (hlast : name.toList.getLast? ≠ some ':') (text : String) :
    split (name ++ "::" ++ text) = name :: split text := by
  unfold split
  have hchars : (name ++ "::" ++ text).toList = name.toList ++ ':' :: ':' :: text.toList := by
    simp
  rw [hchars, h.splitChars_append hlast, List.map_cons, String.ofList_toList]

/-! ## 2. Joining -/

theorem join_cons_cons (first second : String) (rest : List String) :
    join (first :: second :: rest) = first ++ "::" ++ join (second :: rest) := rfl

/-- The pieces of joined pieces are these pieces, if only the last can end in a colon. -/
theorem split_join_of_pieces {names : List String} (hne : names ≠ [])
    (h : ∀ n ∈ names, IsPiece n.toList)
    (hlast : names.Pairwise fun n _ => n.toList.getLast? ≠ some ':') :
    split (join names) = names := by
  induction names with
  | nil => exact absurd rfl hne
  | cons first rest ih =>
    have hfirst := h first List.mem_cons_self
    obtain ⟨hends, hrest⟩ := List.pairwise_cons.mp hlast
    cases rest with
    | nil =>
      unfold split
      rw [join_singleton, hfirst]
      simp
    | cons second rest =>
      rw [join_cons_cons, split_append hfirst (hends second List.mem_cons_self),
        ih (List.cons_ne_nil _ _) (fun n hn => h n (List.mem_cons_of_mem _ hn)) hrest]

theorem split_join {names : List String} (hne : names ≠ []) (h : ∀ n ∈ names, IsName n) :
    split (join names) = names :=
  split_join_of_pieces hne (fun n hn => (h n hn).isPiece)
    (List.pairwise_iff_forall_sublist.mpr fun hsub =>
      (h _ (hsub.subset List.mem_cons_self)).getLast?_ne)

/-- Names that stay apart when they are joined: none is empty, and cutting gives them back. -/
structure KeptApart (names : List String) : Prop where
  nonempty : ∀ n ∈ names, n ≠ ""
  split_join : names ≠ [] → split (join names) = names

theorem KeptApart.segments_join {names : List String} (h : KeptApart names) :
    segments (join names) = names := by
  by_cases hnil : names = []
  · rw [hnil]
    rfl
  · rw [segments, h.split_join hnil]
    exact List.filter_eq_self.mpr fun n hn => decide_eq_true (h.nonempty n hn)

theorem keptApart_of_isName {names : List String} (h : ∀ n ∈ names, IsName n) :
    KeptApart names where
  nonempty n hn := (h n hn).1
  split_join hne := split_join hne h

/-- The names of any text stay apart, also where colons are left inside them. -/
theorem keptApart_segments (text : String) : KeptApart (segments text) where
  nonempty _ hn := of_decide_eq_true (List.mem_filter.mp hn).2
  split_join hne := by
    obtain ⟨hpieces, hlast⟩ := splitChars_pieces text.toList
    refine split_join_of_pieces hne (fun n hn => ?_) ?_
    · obtain ⟨cs, hcs, rfl⟩ := List.mem_map.mp (List.mem_filter.mp hn).1
      simpa using hpieces cs hcs
    · refine List.Pairwise.filter _ (List.Pairwise.map String.ofList (fun cs _ h => ?_) hlast)
      rwa [String.toList_ofList]

/-- **The names of joined names are these names.** -/
theorem segments_join {names : List String} (h : ∀ n ∈ names, IsName n) :
    segments (join names) = names := (keptApart_of_isName h).segments_join

/-- **Joining the names of a text keeps them**, whatever the text. -/
theorem segments_join_segments (text : String) :
    segments (join (segments text)) = segments text := (keptApart_segments text).segments_join

theorem join_eq_empty_iff {names : List String} (h : ∀ n ∈ names, n ≠ "") :
    join names = "" ↔ names = [] := by
  constructor
  · intro e
    cases names with
    | nil => rfl
    | cons first rest =>
      have hfirst := h first List.mem_cons_self
      cases rest with
      | nil => exact absurd e hfirst
      | cons second rest =>
        rw [join_cons_cons, String.append_assoc, String.append_eq_empty_iff] at e
        exact absurd e.1 hfirst
  · rintro rfl
    rfl

theorem join_ne_empty {names : List String} (hne : names ≠ []) (h : ∀ n ∈ names, IsName n) :
    join names ≠ "" :=
  fun e => hne ((join_eq_empty_iff fun n hn => (h n hn).1).mp e)

theorem join_append_singleton {names : List String} (hne : names ≠ []) (name : String) :
    join (names ++ [name]) = join names ++ "::" ++ name := by
  induction names with
  | nil => exact absurd rfl hne
  | cons first rest ih =>
    cases rest with
    | nil => rfl
    | cons second rest =>
      have hrest := ih (List.cons_ne_nil _ _)
      rw [List.cons_append] at hrest
      rw [List.cons_append, List.cons_append, join_cons_cons, hrest, join_cons_cons]
      simp only [String.append_assoc]

/-- **A name inside a joined path is joined behind it**, if no name of the path is empty. -/
theorem within_join_of_nonempty {names : List String} (h : ∀ n ∈ names, n ≠ "") (name : String) :
    within (join names) name = join (names ++ [name]) := by
  by_cases hne : names = []
  · rw [hne]
    rfl
  · rw [within, if_neg (mt (join_eq_empty_iff h).mp hne), join_append_singleton hne]

theorem within_join {names : List String} (h : ∀ n ∈ names, IsName n) (name : String) :
    within (join names) name = join (names ++ [name]) :=
  within_join_of_nonempty (fun n hn => (h n hn).1) name

/-- The names of a path with one more name behind it. -/
theorem segments_within {names : List String} (h : ∀ n ∈ names, IsName n) {name : String}
    (hname : IsName name) :
    segments (within (join names) name) = segments (join names) ++ [name] := by
  have hall : ∀ n ∈ names ++ [name], IsName n := by
    intro n hn
    rcases List.mem_append.mp hn with hn | hn
    · exact h n hn
    · exact List.mem_singleton.mp hn ▸ hname
  rw [within_join h, segments_join hall, segments_join h]

/-- Names joined, none of them being the empty path. -/
def IsPath (text : String) : Prop :=
  ∃ names : List String, (∀ n ∈ names, IsName n) ∧ text = join names

theorem isPath_empty : IsPath "" := ⟨[], by simp, rfl⟩

theorem IsPath.join_segments {path : String} (h : IsPath path) : join (segments path) = path := by
  obtain ⟨names, hnames, rfl⟩ := h
  rw [segments_join hnames]

theorem IsPath.isName_of_mem {path : String} (h : IsPath path) : ∀ n ∈ segments path, IsName n := by
  obtain ⟨names, hnames, rfl⟩ := h
  rw [segments_join hnames]
  exact hnames

theorem isName_of_mem_append {names : List String} (h : ∀ n ∈ names, IsName n) {more : List String}
    (hmore : ∀ n ∈ more, IsName n) : ∀ n ∈ names ++ more, IsName n := fun n hn =>
  (List.mem_append.mp hn).elim (h n) (hmore n)

theorem IsPath.within {path name : String} (h : IsPath path) (hname : IsName name) :
    IsPath (within path name) := by
  obtain ⟨names, hnames, rfl⟩ := h
  exact ⟨names ++ [name], isName_of_mem_append hnames (by simpa using hname),
    within_join hnames name⟩

/-- A path with one more name behind it is longer. -/
theorem length_lt_length_within (path : String) {name : String} (h : name ≠ "") :
    path.length < (within path name).length := by
  have hpos : 0 < name.length := Nat.pos_of_ne_zero fun e => h (String.length_eq_zero_iff.mp e)
  unfold within
  split
  · rename_i e
    rw [e]
    exact hpos
  · rw [String.length_append, String.length_append]
    omega

/-! ## 3. The last separator -/

/-- One step of searching for the last separator: it is one of the rest, or it starts here. -/
theorem cutLastChars?_cons (c : Char) (rest : List Char) :
    cutLastChars? (c :: rest) =
      match cutLastChars? rest with
      | some (before, after) => some (c :: before, after)
      | none =>
        match c, rest with
        | ':', ':' :: after => some ([], after)
        | _, _ => none := rfl

theorem cutLastChars?_of_notMem {cs : List Char} (h : ':' ∉ cs) : cutLastChars? cs = none := by
  induction cs with
  | nil => rfl
  | cons c rest ih =>
    rw [List.mem_cons, not_or] at h
    rw [cutLastChars?_cons, ih h.2]
    simp [Ne.symm h.1]

theorem cutLastChars?_append (before : List Char) {after : List Char} (h : ':' ∉ after) :
    cutLastChars? (before ++ ':' :: ':' :: after) = some (before, after) := by
  induction before with
  | nil =>
    have hcolon : cutLastChars? (':' :: after) = none := by
      rw [cutLastChars?_cons, cutLastChars?_of_notMem h]
      cases after with
      | nil => rfl
      | cons c rest =>
        rw [List.mem_cons, not_or] at h
        simp [Ne.symm h.1]
    rw [List.nil_append, cutLastChars?_cons, hcolon]
    rfl
  | cons c rest ih => rw [List.cons_append, cutLastChars?_cons, ih]

theorem eq_append_of_cutLastChars? {cs before after : List Char}
    (h : cutLastChars? cs = some (before, after)) : cs = before ++ ':' :: ':' :: after := by
  induction cs generalizing before with
  | nil => cases h
  | cons c rest ih =>
    rw [cutLastChars?_cons] at h
    cases hr : cutLastChars? rest with
    | some cut =>
      obtain ⟨b, a⟩ := cut
      rw [hr] at h
      cases h
      rw [ih hr]
      rfl
    | none =>
      rw [hr] at h
      simp only at h
      split at h
      · cases h
        rfl
      · cases h

theorem cutLast?_of_isName {name : String} (h : IsName name) : cutLast? name = none := by
  unfold cutLast?
  rw [cutLastChars?_of_notMem h.2]
  rfl

/-- **The last name of a path and what stands before it.** -/
theorem cutLast?_append (path : String) {name : String} (h : IsName name) :
    cutLast? (path ++ "::" ++ name) = some (path, name) := by
  have hchars : (path ++ "::" ++ name).toList = path.toList ++ ':' :: ':' :: name.toList := by
    simp
  unfold cutLast?
  rw [hchars, cutLastChars?_append _ h.2]
  simp

theorem cutLast?_within (path : String) {name : String} (h : IsName name) :
    cutLast? (within path name) = if path = "" then none else some (path, name) := by
  unfold within
  split
  · exact cutLast?_of_isName h
  · exact cutLast?_append path h

/-- **A name inside a path tells the path**: both can be read off the text. -/
theorem within_injective {path path' name name' : String} (h : IsName name) (h' : IsName name')
    (e : within path name = within path' name') : path = path' ∧ name = name' := by
  have hcut := cutLast?_within path h
  rw [e, cutLast?_within path' h'] at hcut
  split at hcut
  · rename_i hpath'
    split at hcut
    · rename_i hpath
      rw [hpath, hpath', within_empty, within_empty] at e
      exact ⟨hpath.trans hpath'.symm, e⟩
    · cases hcut
  · split at hcut
    · cases hcut
    · cases hcut
      exact ⟨rfl, rfl⟩

/-- **A name stands only behind a joined path**: what comes before it is joined names too. -/
theorem isPath_of_isPath_within {path name : String} (hname : IsName name)
    (h : IsPath (within path name)) : IsPath path := by
  obtain ⟨names, hnames, e⟩ := h
  by_cases hpath : path = ""
  · exact hpath ▸ isPath_empty
  rw [within, if_neg hpath] at e
  have hcut := cutLast?_append path hname
  rcases List.eq_nil_or_concat names with rfl | ⟨before, last, rfl⟩
  · rw [e] at hcut
    cases hcut
  · have hlast : IsName last := hnames last (by simp)
    have hbefore : ∀ n ∈ before, IsName n := fun n hn => hnames n (by simp [hn])
    by_cases hb : before = []
    · rw [e, hb, List.concat_eq_append, List.nil_append, join_singleton,
        cutLast?_of_isName hlast] at hcut
      cases hcut
    · rw [e, List.concat_eq_append, join_append_singleton hb, cutLast?_append _ hlast] at hcut
      cases hcut
      exact ⟨before, hbefore, rfl⟩

theorem eq_append_of_cutLast? {text before after : String}
    (h : cutLast? text = some (before, after)) : text = before ++ "::" ++ after := by
  obtain ⟨⟨b, a⟩, hcut, e⟩ := Option.map_eq_some_iff.mp h
  cases e
  apply String.toList_injective
  rw [eq_append_of_cutLastChars? hcut]
  simp

/-- The names of a path with a separator and one more name behind it. -/
theorem segments_append {names : List String} (h : ∀ n ∈ names, IsName n) {name : String}
    (hname : IsName name) : segments (join names ++ "::" ++ name) = names ++ [name] := by
  by_cases hne : names = []
  · subst hne
    have hsplit : split ("" ++ "::" ++ name) = ["", name] := by
      unfold split
      have hchars : ("" ++ "::" ++ name).toList = ':' :: ':' :: name.toList := by simp
      rw [hchars, splitChars, hname.isPiece]
      simp
    unfold segments
    rw [join_nil, hsplit]
    simp [hname.1]
  · have hwithin : join names ++ "::" ++ name = within (join names) name := by
      rw [within, if_neg (join_ne_empty hne h)]
    rw [hwithin, segments_within h hname, segments_join h]

/-- A separator of a path with one more name is the one before the name, or one of the path. -/
theorem eq_or_append_of_append_eq {path name before after : List Char} (hname : ':' ∉ name)
    (hpath : path.getLast? ≠ some ':')
    (h : path ++ ':' :: ':' :: name = before ++ ':' :: ':' :: after) :
    before = path ∨ ∃ between, path = before ++ ':' :: ':' :: between := by
  rcases List.append_eq_append_iff.mp h with ⟨more, rfl, e⟩ | ⟨more, rfl, e⟩
  -- the separator stands behind the path: only right behind it, the name has no colon
  · match more, e with
    | [], _ => exact .inl (List.append_nil _)
    | [_], e =>
      simp only [List.cons_append, List.nil_append, List.cons.injEq] at e
      exact absurd (e.2.2 ▸ List.mem_cons_self) hname
    | _ :: _ :: more, e =>
      simp only [List.cons_append, List.cons.injEq] at e
      exact absurd (e.2.2 ▸ List.mem_append_right more List.mem_cons_self) hname
  -- the separator starts inside the path, which does not end in a colon
  · match more, e, hpath with
    | [], _, _ => exact .inl (List.append_nil _).symm
    | [_], e, hpath =>
      simp only [List.cons_append, List.cons.injEq] at e
      exact absurd (by rw [← e.1, List.getLast?_concat]) hpath
    | _ :: _ :: more, e, _ =>
      simp only [List.cons_append, List.cons.injEq] at e
      exact .inr ⟨more, by rw [← e.1, ← e.2.1]⟩

end LogMarkers.PathText

/-- What an identifier stands for is a name. -/
theorem LogMarkers.Identifier.isName_text (i : LogMarkers.Identifier) :
    LogMarkers.PathText.IsName i.text :=
  ⟨i.text_ne_empty, i.not_mem_of_isContinue LogMarkers.Identifier.isContinue_colon⟩
