import LogMarkers.Proofs.Crate.Placement
import LogMarkers.Proofs.Source.Reading
import Mathlib.Data.List.Basic

/-!
# What a `use` declaration notes

A `use` declaration is a tree, and each of its leaves ends a path that starts at the root of the
tree. Lowering a declaration notes these paths in the module it stands in, in the order of the
source, and nothing else: a name or a new name is bound to its path, where a later leaf wins over an
earlier one, and everything is imported from the path of a glob.

* `UseTree.leaves`: the paths of a tree with their ends, and `UseLeaf.binding?`, `UseLeaf.glob?`:
  what each of them notes, said of its path alone;
* `UseTree.imports_eq`: the imports of a tree are those of its leaves, at any depth;
* `ModuleScope.Notes`: what a scope is after leaves were noted, and `ModuleScope.notes_addImports`:
  noting the imports of a tree one after the other leads to it;
* `Lowering.notes_imports`: what lowering a declaration does, whatever was noted before.
-/

namespace LogMarkers

/-! ## 1. Leaves -/

/-- How a path of a `use` declaration ends. -/
inductive UseEnd where
  | name (last : Identifier)
  | rename (last newName : Identifier)
  /-- Everything. -/
  | glob

/-- A leaf of a use tree with the names before it, from the root of the tree on. -/
structure UseLeaf where
  before : List Identifier
  ending : UseEnd

/-- The leaves of a tree in the order of the source. -/
def UseTree.leaves : UseTree → List UseLeaf
  | .path first rest => rest.leaves.map fun leaf => ⟨first :: leaf.before, leaf.ending⟩
  | .name last => [⟨[], .name last⟩]
  | .rename last newName => [⟨[], .rename last newName⟩]
  | .glob => [⟨[], .glob⟩]
  | .group trees => trees.flatMap (·.leaves)

namespace UseLeaf

/-- The texts of the names before the leaf. -/
def names (leaf : UseLeaf) : List String := leaf.before.map (·.text)

/-- The name that a leaf binds, and the path. The name `self` adds nothing to the path and is known
    by the last name before it; nothing is bound to an underscore. -/
def binding? (leadingColon : Bool) (leaf : UseLeaf) : Option (String × WrittenPath) :=
  match leaf.ending with
  | .name last =>
    if last.text = "self" then
      leaf.names.getLast?.map fun newName => (newName, ⟨leaf.names, leadingColon⟩)
    else some (last.text, ⟨leaf.names ++ [last.text], leadingColon⟩)
  | .rename last newName =>
    if newName.text = "_" then none
    else if last.text = "self" then some (newName.text, ⟨leaf.names, leadingColon⟩)
    else some (newName.text, ⟨leaf.names ++ [last.text], leadingColon⟩)
  | .glob => none

/-- The path that a leaf imports everything from. -/
def glob? (leadingColon : Bool) (leaf : UseLeaf) : Option WrittenPath :=
  match leaf.ending with
  | .glob => some ⟨leaf.names, leadingColon⟩
  | _ => none

end UseLeaf

/-- The import of a leaf that ends a path in this way, behind the names of the path. -/
def UseEnd.toImport? (path : List String) : UseEnd → Option Import
  | .name last => (leafPath path last).getLast?.map (.binding · (leafPath path last))
  | .rename last newName =>
    if newName.text = "_" then none else some (.binding newName.text (leafPath path last))
  | .glob => some (.everything path)

namespace UseLeaf

/-- The import of a leaf of a tree that stands after some names. -/
def toImport? (before : List String) (leaf : UseLeaf) : Option Import :=
  leaf.ending.toImport? (before ++ leaf.names)

/-- A name in front of the leaf stands after the names before the tree. -/
theorem toImport?_cons (before : List String) (first : Identifier) (leaf : UseLeaf) :
    toImport? before ⟨first :: leaf.before, leaf.ending⟩ =
      toImport? (before ++ [first.text]) leaf :=
  congrArg leaf.ending.toImport? (List.append_cons ..)

/-- A tree that is a leaf. -/
theorem filterMap_toImport?_root (before : List String) (ending : UseEnd) :
    [UseLeaf.mk [] ending].filterMap (·.toImport? before) = (ending.toImport? before).toList := by
  have hroot : toImport? before ⟨[], ending⟩ = ending.toImport? before :=
    congrArg ending.toImport? (List.append_nil before)
  rw [List.filterMap_cons, List.filterMap_nil, hroot]
  cases ending.toImport? before <;> rfl

end UseLeaf

/-- **The imports of a tree are those of its leaves**, at any depth. -/
theorem UseTree.imports_eq : ∀ (tree : UseTree) (before : List String),
    tree.imports before = tree.leaves.filterMap (·.toImport? before)
  | .path first rest, before => by
    rw [imports, leaves, List.filterMap_map, rest.imports_eq]
    exact List.filterMap_congr fun leaf _ => (leaf.toImport?_cons before first).symm
  | .name last, before => by
    rw [imports, leaves, UseLeaf.filterMap_toImport?_root, UseEnd.toImport?]
    cases (leafPath before last).getLast? <;> rfl
  | .rename last newName, before => by
    rw [imports, leaves, UseLeaf.filterMap_toImport?_root, UseEnd.toImport?]
    split <;> rfl
  | .glob, before => by
    rw [imports, leaves, UseLeaf.filterMap_toImport?_root]
    rfl
  | .group trees, before => by
    rw [imports, leaves, List.filterMap_flatMap]
    exact List.flatMap_congr fun tree _ => tree.imports_eq before

/-! ## 2. What imports note -/

namespace Import

/-- The name that an import binds, and the path. -/
def binding? (leadingColon : Bool) : Import → Option (String × WrittenPath)
  | .binding newName target => some (newName, ⟨target, leadingColon⟩)
  | .everything _ => none

/-- The path that an import takes everything from. -/
def glob? (leadingColon : Bool) : Import → Option WrittenPath
  | .binding _ _ => none
  | .everything source => some ⟨source, leadingColon⟩

end Import

namespace UseLeaf

/-- The import of a leaf at the root of the tree binds what the leaf says. -/
theorem bind_toImport?_binding? (leadingColon : Bool) (leaf : UseLeaf) :
    (leaf.toImport? []).bind (·.binding? leadingColon) = leaf.binding? leadingColon := by
  obtain ⟨before, ending⟩ := leaf
  cases ending with
  | name last =>
    simp only [toImport?, UseEnd.toImport?, binding?, leafPath, List.nil_append]
    split
    · cases (names _).getLast? <;> rfl
    · rw [List.getLast?_concat]
      rfl
  | rename last newName =>
    simp only [toImport?, UseEnd.toImport?, binding?, leafPath, List.nil_append]
    split
    · rfl
    · split <;> rfl
  | glob => rfl

/-- The import of a leaf at the root of the tree takes everything from where the leaf says. -/
theorem bind_toImport?_glob? (leadingColon : Bool) (leaf : UseLeaf) :
    (leaf.toImport? []).bind (·.glob? leadingColon) = leaf.glob? leadingColon := by
  obtain ⟨before, ending⟩ := leaf
  cases ending with
  | name last =>
    simp only [toImport?, UseEnd.toImport?, glob?]
    cases (leafPath _ last).getLast? <;> rfl
  | rename last newName =>
    simp only [toImport?, UseEnd.toImport?, glob?]
    split <;> rfl
  | glob => rfl

/-- A leaf without an import notes nothing. -/
theorem toImport?_eq_none_iff (leadingColon : Bool) (leaf : UseLeaf) :
    leaf.toImport? [] = none ↔
      leaf.binding? leadingColon = none ∧ leaf.glob? leadingColon = none := by
  rw [← bind_toImport?_binding?, ← bind_toImport?_glob?]
  cases leaf.toImport? [] with
  | none => simp
  | some i => cases i <;> simp [Import.binding?, Import.glob?]

end UseLeaf

namespace ModuleScope

theorem addImports_cons (s : ModuleScope) (leadingColon : Bool) (i : Import) (rest : List Import) :
    s.addImports leadingColon (i :: rest) =
      (i.addTo s leadingColon).addImports leadingColon rest := rfl

/-- **A name is bound as the last import of it says**, or as before. -/
theorem get?_imports_addImports (s : ModuleScope) (leadingColon : Bool) (imports : List Import)
    (name : String) :
    (s.addImports leadingColon imports).imports.get? name =
      ((imports.filterMap (·.binding? leadingColon)).reverse.lookup name).or
        (s.imports.get? name) := by
  induction imports generalizing s with
  | nil => rfl
  | cons i rest ih =>
    rw [addImports_cons, ih]
    cases i with
    | binding newName target =>
      have hcons : (Import.binding newName target :: rest).filterMap (·.binding? leadingColon) =
          (newName, ⟨target, leadingColon⟩) :: rest.filterMap (·.binding? leadingColon) := rfl
      have hinsert : ((Import.binding newName target).addTo s leadingColon).imports =
          s.imports.insert newName ⟨target, leadingColon⟩ := rfl
      rw [hcons, hinsert, List.reverse_cons, List.lookup_append, Option.or_assoc,
        Table.lookup_cons_eq_ite, Table.get?_insert]
      split <;> rfl
    | everything source => rfl

theorem globs_addImports (s : ModuleScope) (leadingColon : Bool) (imports : List Import) :
    (s.addImports leadingColon imports).globs =
      s.globs ++ imports.filterMap (·.glob? leadingColon) := by
  induction imports generalizing s with
  | nil => exact (List.append_nil _).symm
  | cons i rest ih =>
    rw [addImports_cons, ih]
    cases i with
    | binding newName target => rfl
    | everything source => exact (List.append_cons ..).symm

/-! ## 3. What a declaration notes -/

/-- The scope after leaves were noted: their bindings, the last of a name before all others and
    before the old one, and their globs behind the old ones. -/
structure Notes (old : ModuleScope) (leadingColon : Bool) (leaves : List UseLeaf)
    (new : ModuleScope) : Prop where
  items : new.items = old.items
  imports : ∀ name, new.imports.get? name =
    ((leaves.filterMap (·.binding? leadingColon)).reverse.lookup name).or (old.imports.get? name)
  globs : new.globs = old.globs ++ leaves.filterMap (·.glob? leadingColon)

theorem notes_addImports (s : ModuleScope) (leadingColon : Bool) (tree : UseTree) :
    s.Notes leadingColon tree.leaves (s.addImports leadingColon (tree.imports [])) where
  items := s.items_addImports leadingColon _
  imports name := by
    rw [get?_imports_addImports, tree.imports_eq, List.filterMap_filterMap]
    simp only [UseLeaf.bind_toImport?_binding?]
  globs := by
    rw [globs_addImports, tree.imports_eq, List.filterMap_filterMap]
    simp only [UseLeaf.bind_toImport?_glob?]

end ModuleScope

namespace ScopeIndex

variable (x : ScopeIndex) (module : String) (leadingColon : Bool) (imports : List Import)

theorem getD_scope?_addImports :
    ((x.addImports module leadingColon imports).scope? module).getD {} =
      ((x.scope? module).getD {}).addImports leadingColon imports := by
  rw [addImports_eq]
  split
  · rename_i hnil
    rw [hnil]
    rfl
  · rw [scope?_alterScope, if_pos rfl]
    rfl

theorem scope?_addImports_of_ne {other : String} (h : other ≠ module) :
    (x.addImports module leadingColon imports).scope? other = x.scope? other := by
  rw [addImports_eq]
  split
  · rfl
  · rw [scope?_alterScope, if_neg h]

/-- Imports create the scope of their module. -/
theorem scope?_addImports_eq_none_iff :
    (x.addImports module leadingColon imports).scope? module = none ↔
      x.scope? module = none ∧ imports = [] := by
  rw [addImports_eq]
  split
  · rename_i hnil
    simp [hnil]
  · rename_i hne
    simp [scope?_alterScope, hne]

end ScopeIndex

namespace Lowering

/-- **A `use` declaration notes its leaves in its module**, whatever was noted before, and nothing
    else. A module without a scope gets one if there is anything to note. -/
theorem notes_imports (p : Place) (leadingColon : Bool) (tree : UseTree) (l : Lowering) :
    let l' := item p (.imports leadingColon tree) l
    ((l.scopes.scope? p.module).getD {}).Notes leadingColon tree.leaves
      ((l'.scopes.scope? p.module).getD {}) ∧
    (l'.scopes.scope? p.module = none ↔ l.scopes.scope? p.module = none ∧
      ∀ leaf ∈ tree.leaves, leaf.binding? leadingColon = none ∧ leaf.glob? leadingColon = none) ∧
    (∀ other, other ≠ p.module → l'.scopes.scope? other = l.scopes.scope? other) ∧
    l'.scopes = { l.scopes with modules := l'.scopes.modules } ∧ l'.builder = l.builder := by
  intro l'
  have hscopes : l'.scopes = l.scopes.addImports p.module leadingColon (tree.imports []) := rfl
  have hnothing : tree.imports [] = [] ↔
      ∀ leaf ∈ tree.leaves, leaf.binding? leadingColon = none ∧ leaf.glob? leadingColon = none := by
    rw [tree.imports_eq, List.filterMap_eq_nil_iff]
    simp only [UseLeaf.toImport?_eq_none_iff leadingColon]
  rw [hscopes]
  refine ⟨?_, ?_, fun other h => ScopeIndex.scope?_addImports_of_ne _ _ _ _ h, ?_, rfl⟩
  · rw [ScopeIndex.getD_scope?_addImports]
    exact ModuleScope.notes_addImports _ leadingColon tree
  · rw [ScopeIndex.scope?_addImports_eq_none_iff, hnothing]
  · exact ScopeIndex.addImports_eq_modules ..

open Source (plainWord)

/-- The tree of
    `autolog::{self, auto_log_class as tag, markers::*, self as al, auto_log_field as _}`. -/
def groupedUse : UseTree :=
  .path (plainWord "autolog" rfl) (.group [
    .name (plainWord "self" rfl),
    .rename (plainWord "auto_log_class" rfl) (plainWord "tag" rfl),
    .path (plainWord "markers" rfl) .glob,
    .rename (plainWord "self" rfl) (plainWord "al" rfl),
    .rename (plainWord "auto_log_field" rfl) (plainWord "_" rfl)])

/-- A root module with two imports, of which one is named `tag`, and a glob, beside a module. -/
def taggedScopes : ScopeIndex :=
  let old : WrittenPath := ⟨["old"], true⟩
  let root := ((({} : ScopeIndex).addImport "" "tag" old).addImport "" "kept" old).addGlob "" old
  root.addModule "ui"

/-- Behind the glob in the group the names are again those before the group. -/
theorem notes_imports_groupedUse :
    let l' := item ⟨"", "src/lib.rs"⟩ (.imports false groupedUse) { scopes := taggedScopes }
    let root := (l'.scopes.scope? "").getD {}
    root.imports.get? "autolog" = some ⟨["autolog"], false⟩ ∧
    root.imports.get? "tag" = some ⟨["autolog", "auto_log_class"], false⟩ ∧
    root.imports.get? "al" = some ⟨["autolog"], false⟩ ∧
    root.imports.get? "_" = none ∧
    root.imports.get? "kept" = some ⟨["old"], true⟩ ∧
    root.globs = [⟨["old"], true⟩, ⟨["autolog", "markers"], false⟩] ∧
    "ui" ≠ "" ∧ l'.scopes.scope? "ui" = some {} := by
  intro l' root
  obtain ⟨hnotes, -, hother, -⟩ :=
    notes_imports ⟨"", "src/lib.rs"⟩ false groupedUse { scopes := taggedScopes }
  have hleaves : groupedUse.leaves = [⟨[plainWord "autolog" rfl], .name (plainWord "self" rfl)⟩,
      ⟨[plainWord "autolog" rfl],
        .rename (plainWord "auto_log_class" rfl) (plainWord "tag" rfl)⟩,
      ⟨[plainWord "autolog" rfl, plainWord "markers" rfl], .glob⟩,
      ⟨[plainWord "autolog" rfl], .rename (plainWord "self" rfl) (plainWord "al" rfl)⟩,
      ⟨[plainWord "autolog" rfl],
        .rename (plainWord "auto_log_field" rfl) (plainWord "_" rfl)⟩] := by
    simp [groupedUse, UseTree.leaves]
  rw [hleaves] at hnotes
  have hui : "ui" ≠ "" := by decide
  exact ⟨(hnotes.imports "autolog").trans rfl, (hnotes.imports "tag").trans rfl,
    (hnotes.imports "al").trans rfl, (hnotes.imports "_").trans rfl,
    (hnotes.imports "kept").trans rfl, hnotes.globs.trans rfl, hui, (hother "ui" hui).trans rfl⟩

end Lowering

end LogMarkers
