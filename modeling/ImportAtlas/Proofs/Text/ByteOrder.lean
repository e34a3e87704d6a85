import Mathlib.Data.Char
import Mathlib.Data.List.Lex

/-!
# The order of texts is that of their bytes

Texts are compared by their characters, and characters by their numbers. Written in UTF-8, the character
with the smaller number is the one with the smaller first byte, or with the smaller one of the bytes
behind equal ones, and no character starts with the bytes of another one. So texts are in the same order
as the bytes that they are written with.

## Main definitions

* `Text.bytes`: the bytes of a text

## Main results

* `Text.bytes_lt_bytes_iff`: texts are in the order of their bytes
-/

namespace ImportAtlas.Text

/-- The bytes of a text. -/
def bytes (s : String) : List UInt8 := s.toUTF8.data.toList

theorem bytes_eq (s : String) : bytes s = s.toList.flatMap String.utf8EncodeChar := by
  unfold bytes
  rw [String.toUTF8_eq_toByteArray, ← String.utf8Encode_toList]
  simp [List.utf8Encode]

/-- Numbers compared by their digits of six bits. -/
theorem sextets_lt {v w : Nat} (h : v < w) :
    v / 262144 < w / 262144 ∨ v / 262144 = w / 262144 ∧
      (v / 4096 % 64 < w / 4096 % 64 ∨ v / 4096 % 64 = w / 4096 % 64 ∧
        (v / 64 % 64 < w / 64 % 64 ∨ v / 64 % 64 = w / 64 % 64 ∧ v % 64 < w % 64)) := by
  omega

/-- **The bytes of characters are in the order of the characters**, whatever comes behind them. -/
theorem utf8EncodeChar_append_lt {c d : Char} (h : c < d) (xs ys : List UInt8) :
    String.utf8EncodeChar c ++ xs < String.utf8EncodeChar d ++ ys := by
  have hlt : c.val.toNat < d.val.toNat := h
  have hlast : d.val.toNat < 0x110000 := by
    have hvalid := d.valid
    simp only [UInt32.isValidChar, Nat.isValidChar] at hvalid
    omega
  unfold String.utf8EncodeChar
  generalize c.val.toNat = v at *
  generalize d.val.toNat = w at *
  -- The bits of a byte that tell its kind leave enough room for the others.
  have hbehind : ∀ n, (n % 64 + 128) % 2 ^ 8 = n % 64 + 128 := by omega
  have hfirst₂ : ∀ n, (n % 32 + 192) % 2 ^ 8 = n % 32 + 192 := by omega
  have hfirst₃ : ∀ n, (n % 16 + 224) % 2 ^ 8 = n % 16 + 224 := by omega
  have hfirst₄ : ∀ n, n < 0x110000 → (n / 262144 % 8 + 240) % 2 ^ 8 = n / 262144 + 240 := by omega
  have hsextets := sextets_lt hlt
  simp only
  split_ifs <;>
    simp only [List.cons_append, List.nil_append, List.cons_lt_cons_iff, UInt8.lt_iff_toNat_lt,
      ← UInt8.toNat_inj, UInt8.toNat_ofNat', hbehind, hfirst₂, hfirst₃,
      hfirst₄ w hlast, hfirst₄ v (hlt.trans hlast)] <;>
    omega

theorem flatMap_utf8EncodeChar_lt {cs ds : List Char} (h : cs < ds) :
    cs.flatMap String.utf8EncodeChar < ds.flatMap String.utf8EncodeChar := by
  induction h with
  | nil =>
    rename_i d ds
    rw [List.flatMap_cons, List.flatMap_nil]
    obtain ⟨byte, bytes, hbytes⟩ := List.exists_cons_of_ne_nil (String.utf8EncodeChar_ne_nil (c := d))
    rw [hbytes]
    exact List.Lex.nil
  | rel hlt =>
    rw [List.flatMap_cons, List.flatMap_cons]
    exact utf8EncodeChar_append_lt hlt _ _
  | cons _ ih =>
    rw [List.flatMap_cons, List.flatMap_cons]
    exact List.append_left_lt ih

/-- **Texts are in the order of their bytes.** -/
theorem bytes_lt_bytes_iff (s t : String) : bytes s < bytes t ↔ s < t := by
  have hforth : ∀ s t : String, s < t → bytes s < bytes t := by
    intro s t h
    rw [bytes_eq, bytes_eq]
    exact flatMap_utf8EncodeChar_lt h
  refine ⟨fun h => ?_, hforth s t⟩
  -- Otherwise the texts are equal or in the other order, and so are their bytes.
  by_contra hnot
  rcases Std.le_iff_lt_or_eq.mp (String.not_lt.mp hnot) with hlt | rfl
  · exact List.lt_irrefl _ (List.lt_trans h (hforth t s hlt))
  · exact List.lt_irrefl _ h

end ImportAtlas.Text
