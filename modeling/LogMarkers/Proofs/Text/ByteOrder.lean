import Mathlib.Data.List.Lex
import Mathlib.Tactic.SplitIfs

/-!
# The order of texts is the order of their bytes

Texts are compared character by character, by code point. Stored as UTF-8 they are compared byte by
byte, and that is the same order: the encoding of a smaller character is smaller at the first byte
at which the two encodings differ, and neither is the beginning of the other.

* `utf8EncodeChar_append_lt`: a smaller character stays smaller in bytes, whatever follows;
* `utf8Bytes_lt`: a smaller text has smaller bytes.
-/

namespace LogMarkers

/-- The bytes of a text. -/
def utf8Bytes (text : String) : List UInt8 := text.toUTF8.data.toList

/-- A byte decides the order unless it is the same on both sides. -/
theorem byte_cons_lt {a b : Nat} {r s : List UInt8} (hb : b < 256) (hle : a ≤ b)
    (heq : a = b → r < s) : UInt8.ofNat a :: r < UInt8.ofNat b :: s := by
  rw [List.cons_lt_cons_iff]
  rcases Nat.lt_or_eq_of_le hle with hlt | rfl
  · left
    have ha : a < UInt8.size := Nat.lt_trans hlt hb
    rw [UInt8.lt_iff_toNat_lt, UInt8.toNat_ofNat_of_lt' ha, UInt8.toNat_ofNat_of_lt' hb]
    exact hlt
  · exact .inr ⟨rfl, heq rfl⟩

/-- **A smaller character has a smaller encoding**, whatever bytes follow. -/
theorem utf8EncodeChar_append_lt {c d : Char} (h : c < d) (r s : List UInt8) :
    String.utf8EncodeChar c ++ r < String.utf8EncodeChar d ++ s := by
  have hlt : c.val.toNat < d.val.toNat := h
  have hmax : d.val.toNat < 0x110000 := by
    have hd := d.valid
    simp only [UInt32.isValidChar, Nat.isValidChar] at hd
    omega
  unfold String.utf8EncodeChar
  dsimp only
  -- one case per pair of encoded lengths; a shorter encoding has the smaller first byte, and in
  -- encodings of one length the digits are compared from the highest on
  split_ifs
  all_goals
    simp only [List.cons_append, List.nil_append]
    repeat' refine byte_cons_lt (by omega) (by omega) fun _ => ?_
    all_goals omega

theorem flatMap_utf8EncodeChar_lt : ∀ {l m : List Char}, l < m →
    l.flatMap String.utf8EncodeChar < m.flatMap String.utf8EncodeChar
  | [], [], h => absurd h (List.lt_irrefl _)
  | [], d :: ds, _ => by
    obtain ⟨b, bs, hb⟩ := List.exists_cons_of_ne_nil (String.utf8EncodeChar_ne_nil (c := d))
    rw [List.flatMap_nil, List.flatMap_cons, hb, List.cons_append]
    exact List.nil_lt_cons _ _
  | _ :: _, [], h => absurd h (List.not_lt_nil _)
  | c :: cs, d :: ds, h => by
    rw [List.flatMap_cons, List.flatMap_cons]
    rcases List.cons_lt_cons_iff.mp h with hcd | ⟨rfl, hr⟩
    · exact utf8EncodeChar_append_lt hcd _ _
    · exact List.append_left_lt (flatMap_utf8EncodeChar_lt hr)

theorem utf8Bytes_eq_flatMap (text : String) :
    utf8Bytes text = text.toList.flatMap String.utf8EncodeChar := by
  unfold utf8Bytes
  rw [String.toUTF8_eq_toByteArray, ← String.utf8Encode_toList, List.utf8Encode,
    List.toList_data_toByteArray]

/-- **A smaller text has smaller bytes.** -/
theorem utf8Bytes_lt {a b : String} (h : a < b) : utf8Bytes a < utf8Bytes b := by
  rw [utf8Bytes_eq_flatMap, utf8Bytes_eq_flatMap]
  exact flatMap_utf8EncodeChar_lt h

end LogMarkers
