import LogMarkers.Proofs.Text.PathNames
import LogMarkers.Tree.WrittenPath

/-!
# Paths and their spellings

A path is spelled by joining its names, and a spelling is read by cutting it at the separators and
leaving empty pieces out. The two undo each other: reading gives back every path whose names are
names, and writing what was read of any text and reading it again changes nothing. Of colons that
stand in an odd number some are left at the start of a name or in the last one, where they do not
become a separator when the names are joined again.

* `PathText.segments_trimStart`: separators at the start have no influence on the names;
* `PathText.startsWithSeparator_join`: joined names that stay apart do not start with a separator;
* `WrittenPath.ofSpelling_spelling_eq_self_iff`: exactly the paths whose names stay apart are read
  back.
-/

namespace LogMarkers

namespace PathText

/-! ## 1. Separators at the start -/

/-- A separator at the start is only an empty piece more. -/
theorem segments_separator (text : String) : segments ("::" ++ text) = segments text := by
  have hchars : ("::" ++ text).toList = ':' :: ':' :: text.toList := by simp
  unfold segments split
  rw [hchars, splitChars, List.map_cons, List.filter_cons_of_neg (by simp)]

/-- **Separators at the start of a text have no influence on its names.** -/
theorem segments_trimStart (text : String) : segments (trimStart text) = segments text := by
  have htrim : ∀ cs : List Char,
      segments (String.ofList (trimChars cs)) = segments (String.ofList cs) := by
    intro cs
    fun_induction trimChars cs with
    | case1 rest ih =>
      have hrest : String.ofList (':' :: ':' :: rest) = "::" ++ String.ofList rest := by
        apply String.toList_injective
        simp
      rw [ih, hrest, segments_separator]
    | case2 => rfl
  rw [trimStart, htrim, String.ofList_toList]

theorem startsWithSeparator_separator (text : String) :
    startsWithSeparator ("::" ++ text) = true := by
  have hchars : ("::" ++ text).toList = ':' :: ':' :: text.toList := by simp
  unfold startsWithSeparator
  rw [hchars]
  rfl

/-- A text that starts with a separator starts with an empty piece. -/
theorem exists_split_of_startsWithSeparator {text : String} (h : startsWithSeparator text = true) :
    ∃ pieces, split text = "" :: pieces := by
  unfold startsWithSeparator at h
  split at h
  · rename_i rest hchars
    exact ⟨(splitChars rest).map String.ofList, by rw [split, hchars, splitChars]; rfl⟩
  · cases h

/-- **Joined names that stay apart do not start with a separator.** -/
theorem startsWithSeparator_join {names : List String} (h : KeptApart names) :
    startsWithSeparator (join names) = false := by
  by_cases hnil : names = []
  · rw [hnil]
    rfl
  · rw [← Bool.not_eq_true]
    intro hstarts
    obtain ⟨pieces, hsplit⟩ := exists_split_of_startsWithSeparator hstarts
    rw [h.split_join hnil] at hsplit
    exact h.nonempty "" (hsplit ▸ List.mem_cons_self) rfl

end PathText

open PathText

namespace WrittenPath

/-! ## 2. Reading what was written -/

theorem ofSpelling_eq (text : String) :
    ofSpelling text = ⟨PathText.segments text, startsWithSeparator text⟩ := by
  rw [ofSpelling, segments_trimStart]

/-- **A path is read back from its spelling exactly if its names stay apart.** -/
theorem ofSpelling_spelling_eq_self_iff {p : WrittenPath} :
    ofSpelling p.spelling = p ↔ KeptApart p.segments := by
  constructor
  · intro h
    have hsegments : PathText.segments p.spelling = p.segments := by
      rw [ofSpelling_eq] at h
      exact congrArg (·.segments) h
    rw [← hsegments]
    exact keptApart_segments _
  · intro h
    obtain ⟨names, leadingColon⟩ := p
    rw [ofSpelling_eq]
    cases leadingColon with
    | true =>
      show WrittenPath.mk (PathText.segments ("::" ++ join names))
        (startsWithSeparator ("::" ++ join names)) = _
      rw [segments_separator, startsWithSeparator_separator, h.segments_join]
    | false =>
      show WrittenPath.mk (PathText.segments (join names)) (startsWithSeparator (join names)) = _
      rw [h.segments_join, startsWithSeparator_join h]

/-- **Spelling a path and reading it give it back**, if its names are names; and what was read of a
    text, any text, is read of its spelling again. -/
theorem ofSpelling_spelling :
    (∀ p : WrittenPath, (∀ name ∈ p.segments, IsName name) → ofSpelling p.spelling = p) ∧
      ∀ text : String, ofSpelling (ofSpelling text).spelling = ofSpelling text := by
  refine ⟨fun p h => ofSpelling_spelling_eq_self_iff.mpr (keptApart_of_isName h), fun text => ?_⟩
  rw [ofSpelling_spelling_eq_self_iff, ofSpelling_eq]
  exact keptApart_segments text

/-- The path of a marker from the root of all crates, and a text with too many colons. -/
theorem ofSpelling_spelling_marker :
    (∀ name ∈ ["autolog", "auto_log_class"], IsName name) ∧
      ofSpelling (spelling ⟨["autolog", "auto_log_class"], true⟩) =
        ⟨["autolog", "auto_log_class"], true⟩ ∧
      ofSpelling ":::a::::b:::" = ⟨[":a", "b", ":"], true⟩ ∧
      ofSpelling (ofSpelling ":::a::::b:::").spelling = ⟨[":a", "b", ":"], true⟩ := by
  have hnames : ∀ name ∈ ["autolog", "auto_log_class"], IsName name := by decide
  have hodd : ofSpelling ":::a::::b:::" = ⟨[":a", "b", ":"], true⟩ := by decide +kernel
  exact ⟨hnames, ofSpelling_spelling.1 _ hnames, hodd, (ofSpelling_spelling.2 _).trans hodd⟩

end WrittenPath

end LogMarkers
