/-!
# Tables: finite maps listed by increasing key

Everything the library looks up by name and later lists in name order (registered markers, the
scopes of a crate, its source files, the files of a disk) is a `Table`:

* the entries are a list whose keys strictly increase, and that is a field of the type, so a table
  has one entry per key and one representation (`Table.ext_get?`);
* `insert` replaces or adds, `erase` and `filterKeys` remove, `get?` looks up, and each of them is
  described by what `get?` answers afterwards (`get?_insert`, `get?_filterKeys`, `get?_erase`).
-/

namespace LogMarkers

/-- An order that keys can be listed by: it is transitive, and of two different keys exactly one is
    less. -/
class KeyOrder (κ : Type) [LT κ] : Prop where
  irrefl (a : κ) : ¬ a < a
  trans {a b c : κ} : a < b → b < c → a < c
  gt_of_not_lt {a b : κ} : ¬ a < b → a ≠ b → b < a

/-- A linear order is one. -/
theorem KeyOrder.of_linear {κ : Type} [LT κ] [LE κ] [Std.IsLinearOrder κ] [Std.LawfulOrderLT κ] :
    KeyOrder κ where
  irrefl _ := Std.lt_irrefl
  trans := Std.lt_trans
  gt_of_not_lt h hne := Std.lt_of_le_of_ne (Std.not_lt.mp h) (Ne.symm hne)

instance : KeyOrder Nat := .of_linear

instance : KeyOrder String := .of_linear

instance : KeyOrder (List String) := .of_linear

/-- A finite map from `κ` to `β`, listed by strictly increasing key. -/
structure Table (κ β : Type) [LT κ] where
  entries : List (κ × β)
  sorted : entries.Pairwise (fun a b => a.1 < b.1)

namespace Table

/-! ## 1. Entry lists -/

section Entries

variable {κ β : Type} [DecidableEq κ]

theorem lookup_cons_eq_ite (k k' : κ) (v : β) (l : List (κ × β)) :
    ((k', v) :: l).lookup k = if k = k' then some v else l.lookup k := by
  by_cases h : k = k'
  · simp [h]
  · have hb : (k == k') = false := by simpa using h
    simp [List.lookup_cons, hb, h]

/-- Looking up in an entry list answers an entry of the list. -/
theorem mem_of_lookup {l : List (κ × β)} {k : κ} {v : β} (h : l.lookup k = some v) :
    (k, v) ∈ l := by
  induction l with
  | nil => simp at h
  | cons e rest ih =>
    obtain ⟨k', v'⟩ := e
    rw [lookup_cons_eq_ite] at h
    split at h
    · simp_all
    · exact List.mem_cons_of_mem _ (ih h)

/-- Looking up after a filter on keys: as before on the kept keys, nothing on the others. -/
theorem lookup_filter_keys (p : κ → Bool) (k : κ) (l : List (κ × β)) :
    (l.filter (fun e => p e.1)).lookup k = if p k then l.lookup k else none := by
  induction l with
  | nil => simp
  | cons hd rest ih =>
    obtain ⟨k', v'⟩ := hd
    by_cases hk : k = k'
    · subst hk
      cases hp : p k with
      | true => simp [List.filter, hp]
      | false =>
        rw [hp, if_neg Bool.false_ne_true] at ih
        rw [if_neg Bool.false_ne_true, List.filter_cons_of_neg (by simp [hp]), ih]
    · cases hp : p k' <;> simp [List.filter, hp, lookup_cons_eq_ite, hk, ih]

variable [LT κ] [DecidableLT κ]

/-- Single pass over an increasing entry list: replace the entry of `k`, or add it in its place. -/
def insertEntry (k : κ) (v : β) : List (κ × β) → List (κ × β)
  | [] => [(k, v)]
  | (k', v') :: rest =>
    if k < k' then (k, v) :: (k', v') :: rest
    else if k = k' then (k, v) :: rest
    else (k', v') :: insertEntry k v rest

theorem mem_insertEntry {k : κ} {v : β} {e : κ × β} {l : List (κ × β)}
    (h : e ∈ insertEntry k v l) : e = (k, v) ∨ e ∈ l := by
  induction l with
  | nil => simpa [insertEntry] using h
  | cons hd rest ih =>
    obtain ⟨k', v'⟩ := hd
    unfold insertEntry at h
    split at h
    · simpa using h
    · split at h
      · rcases List.mem_cons.mp h with rfl | h
        · exact .inl rfl
        · exact .inr (List.mem_cons_of_mem _ h)
      · rcases List.mem_cons.mp h with rfl | h
        · exact .inr List.mem_cons_self
        · exact (ih h).imp id (List.mem_cons_of_mem _)

/-- Looking up after an insertion: the new value under `k`, the old ones elsewhere. -/
theorem lookup_insertEntry (k k' : κ) (v : β) (l : List (κ × β)) :
    (insertEntry k v l).lookup k' = if k' = k then some v else l.lookup k' := by
  induction l with
  | nil => simp [insertEntry, lookup_cons_eq_ite]
  | cons hd rest ih =>
    obtain ⟨k₀, v₀⟩ := hd
    unfold insertEntry
    split
    · simp [lookup_cons_eq_ite]
    · split
      · rename_i hk
        subst hk
        by_cases h : k' = k <;> simp [lookup_cons_eq_ite, h]
      · rename_i hne
        by_cases h : k' = k
        · subst h
          simp [lookup_cons_eq_ite, hne, ih]
        · simp [lookup_cons_eq_ite, h, ih]

end Entries

section Order

variable {κ β : Type} [LT κ] [KeyOrder κ]

theorem sorted_insertEntry [DecidableEq κ] [DecidableLT κ] (k : κ) (v : β) {l : List (κ × β)}
    (h : l.Pairwise (fun a b => a.1 < b.1)) :
    (insertEntry k v l).Pairwise (fun a b => a.1 < b.1) := by
  induction l with
  | nil => simp [insertEntry]
  | cons hd rest ih =>
    obtain ⟨k', v'⟩ := hd
    obtain ⟨hhd, hrest⟩ := List.pairwise_cons.mp h
    unfold insertEntry
    split
    · rename_i hlt
      refine List.pairwise_cons.mpr ⟨fun e he => ?_, h⟩
      rcases List.mem_cons.mp he with rfl | he
      · exact hlt
      · exact KeyOrder.trans hlt (hhd e he)
    · split
      · rename_i hk
        subst hk
        exact List.pairwise_cons.mpr ⟨hhd, hrest⟩
      · rename_i hlt hne
        refine List.pairwise_cons.mpr ⟨fun e he => ?_, ih hrest⟩
        rcases mem_insertEntry he with rfl | he
        · exact KeyOrder.gt_of_not_lt hlt hne
        · exact hhd e he

end Order

/-! ## 2. The operations -/

section Operations

variable {κ β : Type} [LT κ]

instance [DecidableEq κ] [DecidableEq β] : DecidableEq (Table κ β) := fun s t =>
  decidable_of_iff (s.entries = t.entries) (by cases s; cases t; simp)

/-- The table without entries. -/
def empty : Table κ β := ⟨[], .nil⟩

instance : EmptyCollection (Table κ β) := ⟨empty⟩

instance : Inhabited (Table κ β) := ⟨empty⟩

/-- The keys, in increasing order. -/
def keys (t : Table κ β) : List κ := t.entries.map (·.1)

/-- The values, in the order of their keys. -/
def values (t : Table κ β) : List β := t.entries.map (·.2)

/-- The number of entries. -/
def size (t : Table κ β) : Nat := t.entries.length

/-- Whether the table has no entry. -/
def isEmpty (t : Table κ β) : Bool := t.entries.isEmpty

/-- Keep the entries whose key satisfies `p`. -/
def filterKeys (t : Table κ β) (p : κ → Bool) : Table κ β :=
  ⟨t.entries.filter (fun e => p e.1), t.sorted.sublist List.filter_sublist⟩

variable [DecidableEq κ]

/-- The value stored under `k`. -/
def get? (t : Table κ β) (k : κ) : Option β := t.entries.lookup k

/-- Whether `k` is a key. -/
def contains (t : Table κ β) (k : κ) : Bool := (t.get? k).isSome

/-- Remove the entry of `k`. -/
def erase (t : Table κ β) (k : κ) : Table κ β := t.filterKeys (· != k)

@[simp] theorem get?_empty (k : κ) : (empty : Table κ β).get? k = none := rfl

/-- A filtered table answers as before on the kept keys and nothing on the others. -/
@[simp] theorem get?_filterKeys (t : Table κ β) (p : κ → Bool) (k : κ) :
    (t.filterKeys p).get? k = if p k then t.get? k else none :=
  lookup_filter_keys p k t.entries

@[simp] theorem get?_erase (t : Table κ β) (k k' : κ) :
    (t.erase k).get? k' = if k' = k then none else t.get? k' := by
  by_cases h : k' = k <;> simp [erase, h]

variable [KeyOrder κ] [DecidableLT κ]

/-- Store `v` under `k`, replacing what was there. -/
def insert (t : Table κ β) (k : κ) (v : β) : Table κ β :=
  ⟨insertEntry k v t.entries, sorted_insertEntry k v t.sorted⟩

/-- Store the pairs of a list one after the other, so that a later pair replaces an earlier one. -/
def ofList (l : List (κ × β)) : Table κ β :=
  l.foldl (fun t e => t.insert e.1 e.2) empty

/-- Change what is stored under `k`, starting from `initial` where nothing is. -/
def alter (t : Table κ β) (k : κ) (initial : β) (f : β → β) : Table κ β :=
  t.insert k (f ((t.get? k).getD initial))

@[simp] theorem get?_insert (t : Table κ β) (k k' : κ) (v : β) :
    (t.insert k v).get? k' = if k' = k then some v else t.get? k' :=
  lookup_insertEntry k k' v t.entries

end Operations

/-! ## 3. One representation -/

section Extensionality

variable {κ β : Type} [DecidableEq κ] [LT κ] [KeyOrder κ]

/-- In an increasing entry list every entry is found under its key. -/
theorem lookup_of_mem {l : List (κ × β)} (h : l.Pairwise (fun a b => a.1 < b.1)) {k : κ} {v : β}
    (hm : (k, v) ∈ l) : l.lookup k = some v := by
  induction l with
  | nil => simp at hm
  | cons hd rest ih =>
    obtain ⟨k', v'⟩ := hd
    obtain ⟨hhd, hrest⟩ := List.pairwise_cons.mp h
    rcases List.mem_cons.mp hm with he | hm
    · cases he
      simp
    · have hlt : k' < k := hhd _ hm
      have hne : k ≠ k' := fun he => KeyOrder.irrefl k (he ▸ hlt)
      simp [lookup_cons_eq_ite, hne, ih hrest hm]

/-- **Two tables that answer alike are equal.** -/
theorem ext_get? {s t : Table κ β} (h : ∀ k, s.get? k = t.get? k) : s = t := by
  obtain ⟨l₁, h₁⟩ := s
  obtain ⟨l₂, h₂⟩ := t
  simp only [mk.injEq]
  have hmem : ∀ e, e ∈ l₁ ↔ e ∈ l₂ := fun ⟨k, v⟩ =>
    ⟨fun he => mem_of_lookup ((h k).symm.trans (lookup_of_mem h₁ he)),
     fun he => mem_of_lookup ((h k).trans (lookup_of_mem h₂ he))⟩
  clear h
  induction l₁ generalizing l₂ with
  | nil =>
    cases l₂ with
    | nil => rfl
    | cons e rest => exact absurd ((hmem e).mpr List.mem_cons_self) (by simp)
  | cons e₁ r₁ ih =>
    cases l₂ with
    | nil => exact absurd ((hmem e₁).mp List.mem_cons_self) (by simp)
    | cons e₂ r₂ =>
      obtain ⟨g₁, p₁⟩ := List.pairwise_cons.mp h₁
      obtain ⟨g₂, p₂⟩ := List.pairwise_cons.mp h₂
      have he : e₁ = e₂ := by
        rcases List.mem_cons.mp ((hmem e₁).mp List.mem_cons_self) with he | h12
        · exact he
        · rcases List.mem_cons.mp ((hmem e₂).mpr List.mem_cons_self) with he | h21
          · exact he.symm
          · exact absurd (KeyOrder.trans (g₂ _ h12) (g₁ _ h21)) (KeyOrder.irrefl _)
      subst he
      have hrest : ∀ e, e ∈ r₁ ↔ e ∈ r₂ := fun e => by
        constructor
        · intro hm
          rcases List.mem_cons.mp ((hmem e).mp (List.mem_cons_of_mem _ hm)) with rfl | hm'
          · exact absurd (g₁ _ hm) (KeyOrder.irrefl _)
          · exact hm'
        · intro hm
          rcases List.mem_cons.mp ((hmem e).mpr (List.mem_cons_of_mem _ hm)) with rfl | hm'
          · exact absurd (g₂ _ hm) (KeyOrder.irrefl _)
          · exact hm'
      rw [ih p₁ r₂ p₂ hrest]

end Extensionality

end Table

end LogMarkers
