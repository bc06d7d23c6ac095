import Mathlib
import TypeInventory.Text.Utf8

set_option relaxedAutoImplicit false
set_option autoImplicit false

/-!
# Text that needs no repair

Names are looked at by a decoder that replaces what is no UTF-8. The bytes of a string are UTF-8, so
that none of them is replaced: the decoder gives the string back.

## Main results

* `Text.repairInto_utf8EncodeChar_append` — the bytes of one character are read as this character.
* `Text.repairUtf8_toUTF8` — the bytes of a string are read as this string.
-/

namespace TypeInventory.Text

/-! ## First bytes -/

/-- The first of two bytes. -/
lemma leadByte_two {v : ℕ} (hlow : 127 < v) (hhigh : v ≤ 2047) :
    leadByte (v / 64 + 192) = .multiple 1 (v / 64) 0x80 0xBF := by
  unfold leadByte
  rw [if_neg (by omega), if_neg (by omega), if_pos (by omega), Nat.add_sub_cancel]

/-- The first of three bytes. It restricts the second one so that no character has a form that is
too long and none is a surrogate. -/
lemma exists_leadByte_three {v : ℕ} (hlow : 2047 < v) (hhigh : v ≤ 65535)
    (hvalid : v < 0xD800 ∨ 0xDFFF < v) :
    ∃ low high, leadByte (v / 4096 + 224) = .multiple 2 (v / 4096) low high ∧
      low ≤ v / 64 % 64 + 128 ∧ v / 64 % 64 + 128 ≤ high := by
  unfold leadByte
  rw [if_neg (by omega), if_neg (by omega), if_neg (by omega)]
  split_ifs with hfirst hsurrogate
  · obtain hzero : v / 4096 = 0 := by omega
    exact ⟨0xA0, 0xBF, by rw [hzero], by omega, by omega⟩
  · obtain hthirteen : v / 4096 = 0xD := by omega
    exact ⟨0x80, 0x9F, by rw [hthirteen], by omega, by omega⟩
  · exact ⟨0x80, 0xBF, by rw [Nat.add_sub_cancel], by omega, by omega⟩
  all_goals omega

/-- The first of four bytes. It restricts the second one so that no character has a form that is
too long and none lies beyond the last one. -/
lemma exists_leadByte_four {v : ℕ} (hlow : 65535 < v) (hhigh : v < 0x110000) :
    ∃ low high, leadByte (v / 262144 + 240) = .multiple 3 (v / 262144) low high ∧
      low ≤ v / 4096 % 64 + 128 ∧ v / 4096 % 64 + 128 ≤ high := by
  unfold leadByte
  rw [if_neg (by omega), if_neg (by omega), if_neg (by omega), if_neg (by omega),
    if_neg (by omega), if_neg (by omega)]
  split_ifs with hfirst hmiddle hlast
  · obtain hzero : v / 262144 = 0 := by omega
    exact ⟨0x90, 0xBF, by rw [hzero], by omega, by omega⟩
  · exact ⟨0x80, 0xBF, by rw [Nat.add_sub_cancel], by omega, by omega⟩
  · obtain hfour : v / 262144 = 4 := by omega
    exact ⟨0x80, 0x8F, by rw [hfour], by omega, by omega⟩
  · omega

/-! ## Characters -/

/-- The number of a byte with six bits of a character. -/
lemma toNat_ofNat_continuation (n : ℕ) : (UInt8.ofNat (n % 64 + 128)).toNat = n % 64 + 128 :=
  UInt8.toNat_ofNat_of_lt' (show n % 64 + 128 < 256 by omega)

/-- A byte that has six bits of a character continues it. -/
lemma isContinuation_ofNat (n : ℕ) : isContinuation (UInt8.ofNat (n % 64 + 128)) = true := by
  rw [isContinuation, toNat_ofNat_continuation, Bool.and_eq_true, decide_eq_true_eq,
    decide_eq_true_eq]
  omega

/-- Six more bits. -/
lemma continueWith_ofNat (n : ℕ) : continueWith (n / 64) (UInt8.ofNat (n % 64 + 128)) = n := by
  unfold continueWith
  rw [toNat_ofNat_continuation]
  omega

/-- The first byte that follows lies in the range that the byte before it allows. -/
lemma follows_ofNat {n low high : ℕ} (hlow : low ≤ n % 64 + 128) (hhigh : n % 64 + 128 ≤ high) :
    (decide (low ≤ (UInt8.ofNat (n % 64 + 128)).toNat) &&
      decide ((UInt8.ofNat (n % 64 + 128)).toNat ≤ high)) = true := by
  rw [toNat_ofNat_continuation, Bool.and_eq_true, decide_eq_true_eq, decide_eq_true_eq]
  exact ⟨hlow, hhigh⟩

/-- **The bytes of a character are read as this character.**

**Proof sketch.** One case for each number of bytes. The first byte tells how many follow and has
the most significant bits; each of the others adds six bits, up to all of the character. -/
lemma repairInto_utf8EncodeChar_append (c : Char) (done : List Char) (rest : List UInt8) :
    repairInto done (String.utf8EncodeChar c ++ rest) = repairInto (c :: done) rest := by
  have hchar : Char.ofNat c.val.toNat = c := Char.ofNat_toNat c
  have hvalid : c.val.toNat < 0xD800 ∨ 0xDFFF < c.val.toNat ∧ c.val.toNat < 0x110000 := c.valid
  generalize hv : c.val.toNat = v at hchar hvalid
  have hbyte : ∀ n, n < 256 → (UInt8.ofNat n).toNat = n := fun n hn => UInt8.toNat_ofNat_of_lt' hn
  unfold String.utf8EncodeChar
  simp only [hv]
  split_ifs with hone htwo hthree
  · have hlead : leadByte v = .single := if_pos (by omega)
    rw [List.singleton_append, repairInto, hbyte _ (by omega), hlead, hchar]
  · rw [show v / 64 % 32 = v / 64 by omega, List.cons_append, List.singleton_append, repairInto,
      hbyte _ (by omega), leadByte_two (by omega) htwo]
    simp only
    rw [if_pos (follows_ofNat (by omega) (by omega)), if_true, continueWith_ofNat, hchar]
  · obtain ⟨low, high, hlead, hlow, hhigh⟩ := exists_leadByte_three (by omega) hthree (by omega)
    rw [show v / 4096 % 16 = v / 4096 by omega, List.cons_append, List.cons_append,
      List.singleton_append, repairInto, hbyte _ (by omega), hlead]
    simp only
    rw [if_pos (follows_ofNat hlow hhigh), if_neg (by decide), if_pos (isContinuation_ofNat v),
      if_true, show v / 4096 = v / 64 / 64 by omega, continueWith_ofNat, continueWith_ofNat, hchar]
  · obtain ⟨low, high, hlead, hlow, hhigh⟩ :=
      exists_leadByte_four (v := v) (by omega) (by omega)
    rw [show v / 262144 % 8 = v / 262144 by omega, List.cons_append, List.cons_append,
      List.cons_append, List.singleton_append, repairInto, hbyte _ (by omega), hlead]
    simp only
    rw [if_pos (follows_ofNat hlow hhigh), if_neg (by decide), if_pos (isContinuation_ofNat _),
      if_neg (by decide), if_pos (isContinuation_ofNat v),
      show v / 262144 = v / 4096 / 64 by omega, continueWith_ofNat,
      show v / 4096 = v / 64 / 64 by omega, continueWith_ofNat, continueWith_ofNat, hchar]

/-! ## Strings -/

/-- The bytes of a string are those of its characters. -/
lemma toList_toUTF8 (s : String) :
    s.toUTF8.data.toList = s.toList.flatMap String.utf8EncodeChar := by
  rw [String.toUTF8, ← String.utf8Encode_toList]
  exact List.toList_data_toByteArray

/-- The bytes of a string are as many as it says. -/
lemma length_toUTF8 (s : String) : s.toUTF8.data.toList.length = s.utf8ByteSize :=
  Array.length_toList

/-- **The bytes of a string are read as this string.** -/
lemma repairUtf8_toUTF8 (s : String) : repairUtf8 s.toUTF8.data.toList = s := by
  have hread : ∀ (cs done : List Char),
      repairInto done (cs.flatMap String.utf8EncodeChar) = done.reverse ++ cs := by
    intro cs
    induction cs with
    | nil => exact fun done => (List.append_nil _).symm
    | cons c cs ih =>
      intro done
      rw [List.flatMap_cons, repairInto_utf8EncodeChar_append, ih, List.reverse_cons,
        List.append_assoc, List.singleton_append]
  rw [repairUtf8, toList_toUTF8, hread, List.reverse_nil, List.nil_append, String.ofList_toList]

end TypeInventory.Text
