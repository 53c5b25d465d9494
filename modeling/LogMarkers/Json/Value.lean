/-!
# JSON values

The values a document can hold, as far as settings and manifests tell them apart:

* a text is absent where it was written with half of a surrogate pair, which no text can hold;
* of a number only natural numbers are kept, as they are all that is asked for;
* an object keeps its members in order, repeated ones included.

A record is read from an object by name or from an array by position (`Json.record?`).
-/

namespace LogMarkers

/-- A JSON value. -/
inductive Json where
  | null
  | bool (value : Bool)
  /-- A number, with its value where it is written as a natural number. -/
  | number (value : Option Nat)
  /-- A text, absent where it holds a lone surrogate. -/
  | text (value : Option String)
  | array (items : List Json)
  | object (members : List (Option String × Json))

namespace Json

/-- The truth value. -/
def bool? : Json → Option Bool
  | .bool b => some b
  | _ => none

/-- The text. -/
def text? : Json → Option String
  | .text s => s
  | _ => none

/-- The natural number, if it fits into 64 bits. -/
def nat64? : Json → Option Nat
  | .number (some n) => if n < 1 <<< 64 then some n else none
  | _ => none

/-- The items of an array. -/
def array? : Json → Option (List Json)
  | .array items => some items
  | _ => none

/-- The members of an object whose names are all texts. -/
def namedMembers? (members : List (Option String × Json)) : Option (List (String × Json)) :=
  members.mapM fun (name, value) => name.map (·, value)

/-- The value of a field among named members: absent, or present exactly once. -/
def field? (members : List (String × Json)) (name : String) : Option (Option Json) :=
  match members.filter (·.1 == name) with
  | [] => some none
  | [(_, value)] => some (some value)
  | _ => none

/-- The values of the fields of a record: from an object by name, where other members are ignored
    and a field may not be repeated, or from an array by position, where fields may be missing at
    the end. -/
def record? (fields : List String) : Json → Option (List (Option Json))
  | .object members => do
    let named ← namedMembers? members
    fields.mapM (field? named)
  | .array items =>
    if items.length ≤ fields.length then
      some (items.map some ++ List.replicate (fields.length - items.length) none)
    else none
  | _ => none

/-- The value of a field that may be missing: `initial` where it is. -/
def orElse {α : Type} (initial : α) (read : Json → Option α) : Option Json → Option α
  | none => some initial
  | some j => read j

end Json

end LogMarkers
