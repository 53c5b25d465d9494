import LogMarkers.Proofs.Crate.Steps

/-!
# Types with parameters are noted

A struct, enum or union with type or const parameters is noted under its canonical path, wherever in
the crate it is declared (`SourceSet.mem_genericTypes_lower`). The note is made when the type is
declared, and no later step takes it away (`Step.genericTypes_subset`).
-/

namespace LogMarkers

/-! ## 1. Declarations with parameters -/

/-- The name of a type that an item declares with type or const parameters. -/
def Item.genericName? : Item → Option Name
  | .struct name true _ _ | .union name true _ _ | .enum name true _ => some name
  | _ => none

/-- Items that stand in the module `here` declare a type with parameters, in a module that is `here`
    or an inline module among them. -/
inductive DeclaresGeneric : (here : String) → List Item → (module name : String) → Prop where
  | here {here : String} {items : List Item} {i : Item} {name : Name} (hi : i ∈ items)
      (h : i.genericName? = some name) : DeclaresGeneric here items here name.text
  | inside {here : String} {items contained : List Item} {inline : Name}
      {ignored : List Attribute} {module name : String}
      (h : Item.inlineModule inline ignored contained ∈ items)
      (hin : DeclaresGeneric (PathText.within here inline.text) contained module name) :
      DeclaresGeneric here items module name

/-- Some file of a source set declares a type with parameters. -/
def SourceSet.DeclaresGeneric (s : SourceSet) (module name : String) : Prop :=
  ∃ files, s.parse = .ok files ∧
    ∃ f ∈ files, LogMarkers.DeclaresGeneric f.module f.items module name

theorem DeclaresGeneric.isName {here : String} {items : List Item} {module name : String}
    (h : DeclaresGeneric here items module name) : PathText.IsName name := by
  induction h with
  | @here _ _ _ name => exact name.ident.isName_text
  | inside _ _ ih => exact ih

theorem SourceSet.DeclaresGeneric.isName {s : SourceSet} {module name : String}
    (h : s.DeclaresGeneric module name) : PathText.IsName name := by
  obtain ⟨files, -, f, -, hdeclares⟩ := h
  exact hdeclares.isName

namespace Lowering

variable {G : Given} {l l' : Lowering}

/-! ## 2. Notes stay -/

/-- A step takes no note of a type with parameters away. -/
theorem Step.genericTypes_subset (h : Step G l l') :
    l.scopes.genericTypes ⊆ l'.scopes.genericTypes := by
  cases h with
  | generic => exact List.subset_cons_self _ _
  | file | leaf | openNode | close | declare | aliased | enter | selfType | imports | renamed =>
    exact List.Subset.refl _

theorem Steps.genericTypes_subset (h : Steps G l l') :
    l.scopes.genericTypes ⊆ l'.scopes.genericTypes := by
  induction h with
  | refl => exact List.Subset.refl _
  | tail _ hs ih => exact List.Subset.trans ih hs.genericTypes_subset

/-! ## 3. Notes are made -/

/-- An item that declares a type with parameters notes it. -/
theorem mem_genericTypes_item {p : Place} (hm : p.module ∈ l.known) {i : Item} {name : Name}
    (h : i.genericName? = some name) :
    PathText.join (itemPath p.module name.text) ∈ (item p i l).scopes.genericTypes := by
  let noted := l.declareType p.module name.text true
  have hdeclared : Steps .any l noted := steps_declareType hm name true
  have hnoted : PathText.join (itemPath p.module name.text) ∈ noted.scopes.genericTypes :=
    List.mem_cons_self
  have hfields : ∀ (content : NodeContent) (fs : List Field),
      PathText.join (itemPath p.module name.text) ∈
        (fields p 0 fs (noted.openNode p.module content)).scopes.genericTypes := by
    intro content fs
    have hm' : p.module ∈ (noted.openNode p.module content).known := hdeclared.known_subset hm
    exact (steps_fields (G := .any) p hm' 0 fs).genericTypes_subset hnoted
  unfold Item.genericName? at h
  split at h
  · cases h
    exact hfields _ _
  · cases h
    exact hfields _ _
  · cases h
    exact hnoted
  · cases h

/-- **Items note the types with parameters that they declare**, at any depth. -/
theorem mem_genericTypes_items {here : String} {is : List Item} {module name : String}
    (h : DeclaresGeneric here is module name) (fileName : String) (hm : here ∈ l.known) :
    PathText.join (itemPath module name) ∈
      (items ⟨here, fileName⟩ is l).scopes.genericTypes := by
  induction h generalizing l with
  | here hi h =>
    exact items_of_mem (fun hs hp => hs.genericTypes_subset hp)
      (fun _ hm => mem_genericTypes_item hm h) hi hm
  | @inside here _ contained inline _ _ _ hmem _ ih =>
    refine items_of_mem (fun hs hp => hs.genericTypes_subset hp) (fun l hm => ?_) hmem hm
    unfold item
    exact ih (mem_known_addModule _ _)

theorem mem_genericTypes_file (l : Lowering) {f : ParsedFile} {module name : String}
    (h : DeclaresGeneric f.module f.items module name) :
    PathText.join (itemPath module name) ∈ (l.file f).scopes.genericTypes :=
  mem_genericTypes_items (l := (l.addModule f.module).openNode f.module (fileContent f.module)) h
    f.fileName (mem_known_addModule l f.module)

end Lowering

/-- **A lowered crate has noted every type with parameters that its sources declare.** -/
theorem SourceSet.mem_genericTypes_lower {s : SourceSet} {c : LoweredCrate} (h : s.lower = .ok c)
    {module name : String} (hd : s.DeclaresGeneric module name) :
    PathText.join (itemPath module name) ∈ c.scopes.genericTypes := by
  obtain ⟨files, hparse, f, hf, hd⟩ := hd
  rw [SourceSet.lower, hparse] at h
  cases h
  exact Lowering.files_of_mem (fun hs hp => hs.genericTypes_subset hp)
    (fun l => Lowering.mem_genericTypes_file l hd) hf {}

end LogMarkers
