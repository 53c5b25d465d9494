import LogMarkers.Artifact
import LogMarkers.Finding

/-!
# Rendering

A `Renderer` decides the text of what is generated: a snippet for each augmentation, an extension
around the snippets of one owner, and the definitions of the markers. `Renderer.standard` writes
`impl` blocks with methods that print a log line.
-/

namespace LogMarkers

/-- One generated member. -/
structure Snippet where
  /-- The name the snippet defines; it has to be unique in its extension. -/
  ident : String
  text : String
  deriving DecidableEq, Repr

/-- The texts of what is generated. -/
structure Renderer where
  /-- The snippet of one augmentation of an owner. -/
  snippet : (owner : String) → Augmentation → Snippet
  /-- The snippets of an owner in a namespace, wrapped as its extension. -/
  extension : (space owner : String) → List Snippet → String
  /-- The definitions of the registered markers. -/
  markerDeclarations : Registry → String

namespace Renderer

/-- The line every generated file starts with. -/
def header : String := "// <auto-generated/>\n"

/-- Every quotation mark with a backslash before it. -/
def quoteMarks : List Char → List Char
  | [] => []
  | c :: rest => if c = '"' then '\\' :: '"' :: quoteMarks rest else c :: quoteMarks rest

/-- A method that prints a line. -/
def printingMethod (ident message : String) : String :=
  "    pub fn " ++ ident ++ "(&self) \x7b\n        println!(\"" ++
    String.ofList (quoteMarks message.toList) ++ "\");\n    \x7d\n"

/-- The name of the method an augmentation becomes. -/
def methodName : Augmentation → String
  | .declaration => "log_class"
  | .member name .property => "log_prop_" ++ name
  | .member name .method => "log_method_" ++ name

/-- The line the method of an augmentation prints. -/
def logLine (owner : String) : Augmentation → String
  | .declaration => "[CLASS] " ++ owner ++ " initialized."
  | .member name .property => "[PROP] " ++ name ++ " changed."
  | .member name .method => "[METHOD] " ++ name ++ " executed."

/-- How generated code names an owner from the root of the crate. -/
def ownerPath (space owner : String) : String :=
  if space = "" then owner else "crate::" ++ space ++ "::" ++ owner

/-- Texts with a line break between each two. -/
def joinLines : List String → String
  | [] => ""
  | [text] => text
  | text :: texts => text ++ "\n" ++ joinLines texts

/-- The level of a marker in its documentation. -/
def levelWord : MarkerKind → String
  | .declaration => "Declaration-level"
  | .member .property => "Property-level"
  | .member .method => "Method-level"

/-- The definition of one marker: an attribute that leaves the item as it is. -/
def markerDefinition (m : Marker) : String :=
  "\n/// " ++ levelWord m.kind ++ " marker `" ++ m.identity.text ++
    "`.\n#[proc_macro_attribute]\npub fn " ++ m.identity.name ++
    "(_args: TokenStream, item: TokenStream) -> TokenStream \x7b\n    item\n\x7d\n"

/-- Inherent `impl` blocks with logging methods. -/
def standard : Renderer where
  snippet owner a := ⟨methodName a, printingMethod (methodName a) (logLine owner a)⟩
  extension space owner snippets :=
    header ++ "// Generated by autolog. Do not edit.\n\n" ++
      "#[allow(non_snake_case, dead_code)]\n" ++
      "impl " ++ ownerPath space owner ++ " \x7b\n" ++
      joinLines (snippets.map (·.text)) ++ "\x7d\n"
  markerDeclarations registry :=
    header ++
      "// Marker attributes recognized by autolog. They expand to the item unchanged.\n\n" ++
      "use proc_macro::TokenStream;\n" ++
      String.join (registry.markers.map markerDefinition)

end Renderer

end LogMarkers
