import Mathlib.Tactic.SplitIfs

/-!
# The order of bytes

Texts are compared character by character. That is the order of their bytes as well
(`bytes_lt_bytes`): of two characters the lesser one has the lesser first byte, or their bytes
differ first at one that goes on (`encoded_lt`).
-/

namespace SourceFacts.Text

/-- The bytes of a text. -/
def bytes (s : String) : List UInt8 := s.toUTF8.data.toList

theorem bytes_eq_flatMap (s : String) : bytes s = s.toList.flatMap String.utf8EncodeChar := by
  have hencoded : s.toUTF8 = s.toList.utf8Encode := by
    rw [String.toUTF8_eq_toByteArray, ← String.toByteArray_ofList, String.ofList_toList]
  rw [bytes, hencoded, List.utf8Encode, List.toList_data_toByteArray]

/-- The bytes of a lesser character come first, whatever follows. -/
theorem encoded_lt {c d : Char} (h : c < d) (xs ys : List UInt8) :
    String.utf8EncodeChar c ++ xs < String.utf8EncodeChar d ++ ys := by
  have hlt : c.val.toNat < d.val.toNat := h
  have hmax : d.val.toNat < 0x110000 := by
    rcases d.valid with hlow | ⟨-, hhigh⟩
    · omega
    · exact hhigh
  simp only [String.utf8EncodeChar]
  generalize c.val.toNat = v at hlt
  generalize d.val.toNat = w at hlt hmax
  -- One case for each number of bytes of the two; where it is the same, the bytes are digits to
  -- the base 64.
  split_ifs
  all_goals simp only [List.cons_append, List.nil_append, List.cons_lt_cons_iff,
    UInt8.lt_iff_toNat_lt, ← UInt8.toNat_inj, UInt8.toNat_ofNat']
  all_goals try simp (disch := omega) only [Nat.mod_eq_of_lt (b := 256), Nat.mod_eq_of_lt (b := 8)]
  all_goals omega

theorem encoded_ne_nil (c : Char) : String.utf8EncodeChar c ≠ [] := by
  have hlength := String.length_utf8EncodeChar c
  have hpos := c.utf8Size_pos
  intro hnil
  rw [hnil, List.length_nil] at hlength
  omega

/-- A lesser text has lesser bytes. -/
theorem bytes_lt_bytes {a b : String} (h : a < b) : bytes a < bytes b := by
  have hchars : a.toList < b.toList := h
  rw [bytes_eq_flatMap, bytes_eq_flatMap]
  generalize a.toList = xs at hchars
  generalize b.toList = ys at hchars
  induction hchars with
  | @nil d ys =>
    obtain ⟨first, rest, hd⟩ := List.exists_cons_of_ne_nil (encoded_ne_nil d)
    rw [List.flatMap_nil, List.flatMap_cons, hd]
    exact List.nil_lt_cons _ _
  | cons _ ih =>
    rw [List.flatMap_cons, List.flatMap_cons]
    exact List.append_left_lt ih
  | rel hchar =>
    rw [List.flatMap_cons, List.flatMap_cons]
    exact encoded_lt hchar _ _

end SourceFacts.Text
