/-!
# Kinds of declarations

The syntactic categories a node of a crate's tree can have, their two names, and the classes the
search for markers and owners goes by.
-/

namespace LogMarkers

/-- The syntactic category of a node. -/
inductive NodeKind where
  /-- The root of one source file. -/
  | sourceFile
  /-- A module with its items, written inline. -/
  | inlineModule
  | struct
  | enum
  | union
  | trait
  /-- An `impl` block; its name is the last name of its self type. -/
  | impl
  /-- A field of a struct or a union. -/
  | field
  /-- A function inside an `impl` block or a trait. -/
  | method
  /-- A constant inside an `impl` block or a trait. -/
  | associatedConst
  /-- A free function. -/
  | function
  | const
  | static
  /-- Anything that is kept in the tree and never looked at. -/
  | other
  deriving DecidableEq, Repr

namespace NodeKind

/-- All kinds. -/
def all : List NodeKind :=
  [sourceFile, inlineModule, struct, enum, union, trait, impl, field, method, associatedConst,
    function, const, static, other]

/-- The kind as a word of a message. -/
def word : NodeKind → String
  | sourceFile => "source_file"
  | inlineModule => "module"
  | struct => "struct"
  | enum => "enum"
  | union => "union"
  | trait => "trait"
  | impl => "impl"
  | field => "field"
  | method => "method"
  | associatedConst => "associated_const"
  | function => "function"
  | const => "const"
  | static => "static"
  | other => "other"

/-- The kind as a label in data. -/
def label : NodeKind → String
  | sourceFile => "SourceFile"
  | inlineModule => "Module"
  | struct => "Struct"
  | enum => "Enum"
  | union => "Union"
  | trait => "Trait"
  | impl => "Impl"
  | field => "Field"
  | method => "Method"
  | associatedConst => "AssociatedConst"
  | function => "Function"
  | const => "Const"
  | static => "Static"
  | other => "Other"

/-- The kind with this label. -/
def ofLabel? (text : String) : Option NodeKind := all.find? (·.label == text)

/-- Whether a node of this kind declares something that can carry a marker. -/
def isDeclarationLike : NodeKind → Bool
  | sourceFile | other => false
  | _ => true

/-- Whether a node of this kind declares a type that can own generated members. -/
def isTypeDeclaration : NodeKind → Bool
  | struct | enum | union => true
  | _ => false

/-- Whether members inside a node of this kind belong to it. -/
def isOwnerScope (k : NodeKind) : Bool := k.isTypeDeclaration || k == impl

/-- Whether the search for an owner stops at a node of this kind. -/
def isScopeBoundary : NodeKind → Bool
  | sourceFile | inlineModule | trait | function => true
  | _ => false

/-- Reading a label back gives the kind it is the label of. -/
theorem ofLabel?_label (k : NodeKind) : ofLabel? k.label = some k := by cases k <;> decide

end NodeKind

end LogMarkers
