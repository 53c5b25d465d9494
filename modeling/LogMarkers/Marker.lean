import LogMarkers.Symbol
import LogMarkers.Table

/-!
# Markers and their registry

A marker is an attribute with a registered identity. Its entry says what it asks for and on which
kinds of declarations it may stand. `Registry.standard` holds the three markers that log a type, a
property and a method.
-/

namespace LogMarkers

/-- What a member marker stands on. -/
inductive MemberRole where
  /-- A field. -/
  | property
  /-- An associated function. -/
  | method
  deriving DecidableEq, Repr

/-- The role as a word. -/
def MemberRole.word : MemberRole → String
  | property => "property"
  | method => "method"

/-- What a marker asks for. -/
inductive MarkerKind where
  /-- Something for the owning declaration itself. -/
  | declaration
  /-- Something for one member of the owner. -/
  | member (role : MemberRole)
  deriving DecidableEq, Repr

/-- The role of a member marker. -/
def MarkerKind.role? : MarkerKind → Option MemberRole
  | declaration => none
  | member role => some role

/-- One registered marker. -/
structure Marker where
  identity : SymbolPath
  kind : MarkerKind
  /-- The kinds of declarations the marker may stand on. -/
  targets : List NodeKind
  deriving DecidableEq, Repr

/-- Whether the marker may stand on a declaration of this kind. -/
def Marker.appliesTo (m : Marker) (kind : NodeKind) : Bool := m.targets.contains kind

/-- The registered markers by identity. -/
structure Registry where
  entries : Table String Marker
  keyed : ∀ k m, entries.get? k = some m → m.identity.text = k

namespace Registry

instance : DecidableEq Registry := fun r s =>
  decidable_of_iff (r.entries = s.entries) (by cases r; cases s; simp)

/-- No marker. -/
def empty : Registry := ⟨.empty, by simp⟩

/-- Register a marker under its identity; it replaces one registered there before. -/
def register (r : Registry) (m : Marker) : Registry where
  entries := r.entries.insert m.identity.text m
  keyed := by
    intro k m' h
    rw [Table.get?_insert] at h
    split at h
    · simp_all
    · exact r.keyed k m' h

/-- The registry that holds the markers of a list, later ones replacing earlier ones. -/
def ofList (markers : List Marker) : Registry := markers.foldl register empty

/-- The marker with this identity. -/
def find? (r : Registry) (identity : SymbolPath) : Option Marker := r.entries.get? identity.text

/-- The markers in the order of their identities. -/
def markers (r : Registry) : List Marker := r.entries.values

/-- The number of markers. -/
def size (r : Registry) : Nat := r.entries.size

/-- The markers that log a type, a property and a method. -/
def standard : Registry := ofList
  [ ⟨.ofSegments ["autolog", "auto_log_class"], .declaration, [.struct, .enum, .union]⟩,
    ⟨.ofSegments ["autolog", "auto_log_property"], .member .property, [.field]⟩,
    ⟨.ofSegments ["autolog", "auto_log_method"], .member .method, [.method]⟩ ]

/-- What is found has the identity that was looked for. -/
theorem identity_of_find? {r : Registry} {p : SymbolPath} {m : Marker} (h : r.find? p = some m) :
    m.identity = p := by
  have := r.keyed _ _ h
  cases p
  cases m with
  | mk identity _ _ => cases identity; simp_all

/-- Looking up after a registration: the new marker under its identity, the others as before. -/
@[simp] theorem find?_register (r : Registry) (m : Marker) (p : SymbolPath) :
    (r.register m).find? p = if p = m.identity then some m else r.find? p := by
  obtain ⟨p⟩ := p
  obtain ⟨⟨q⟩, _, _⟩ := m
  simp [register, find?]

end Registry

end LogMarkers
