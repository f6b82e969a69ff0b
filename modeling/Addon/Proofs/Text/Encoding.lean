import Addon.Source.Index
import Addon.Text.Encoding

/-!
# Encoding — texts as bytes and back

The bytes of a text are those of its characters in a row, so a text can be cut at bytes wherever it
can be cut at characters. `decode` reads back what `encode` writes: the first byte of a character
says how many follow, and each length has its own lemma about the front of the bytes.
-/

namespace Addon.Text

/-! ## Bytes of a character -/

theorem toNat_ofNat_small {n : Nat} (h : n < 256) : (UInt8.ofNat n).toNat = n := by
  rw [UInt8.toNat_ofNat', Nat.mod_eq_of_lt h]

theorem continuationBits_ofNat {n : Nat} (h : n < 64) :
    continuationBits (UInt8.ofNat (n + 128)) = n := by
  have hsmall : n + 128 < 256 := by omega
  unfold continuationBits
  rw [toNat_ofNat_small hsmall, Nat.add_sub_cancel]

theorem isContinuation_ofNat {n : Nat} (h : n < 64) :
    isContinuation (UInt8.ofNat (n + 128)) = true := by
  have hsmall : n + 128 < 256 := by omega
  simp only [isContinuation, Bool.and_eq_true, decide_eq_true_eq, UInt8.le_iff_toNat_le,
    UInt8.lt_iff_toNat_lt, toNat_ofNat_small hsmall]
  constructor
  · show 128 ≤ n + 128
    omega
  · show n + 128 < 192
    omega

/-- The second byte fits if it continues a character and lies in the part that the
first byte leaves open. -/
theorem fitsSecond_of_bounds {a b : UInt8} (hb : isContinuation b = true)
    (hshort : a.toNat = 0xE0 → 0xA0 ≤ b.toNat)
    (hsurrogate : a.toNat = 0xED → b.toNat < 0xA0) (hlong : a.toNat = 0xF0 → 0x90 ≤ b.toNat)
    (hlast : a.toNat = 0xF4 → b.toNat < 0x90) : fitsSecond a b = true := by
  unfold fitsSecond
  rw [hb, Bool.true_and]
  split
  · exact decide_eq_true (UInt8.le_iff_toNat_le.mpr (hshort rfl))
  · exact decide_eq_true (UInt8.lt_iff_toNat_lt.mpr (hsurrogate rfl))
  · exact decide_eq_true (UInt8.le_iff_toNat_le.mpr (hlong rfl))
  · exact decide_eq_true (UInt8.lt_iff_toNat_lt.mpr (hlast rfl))
  · rfl

/-! ## The front of bytes -/

theorem front_one {a : UInt8} (ha : a.toNat < 0x80) (rest : List UInt8) :
    front (a :: rest) = .char (Char.ofNat a.toNat) 1 := by
  have hlt : a < 0x80 := UInt8.lt_iff_toNat_lt.mpr ha
  simp only [front, hlt, if_true]

theorem not_lt_of_le_toNat {a b : UInt8} (h : b.toNat ≤ a.toNat) : ¬ a < b :=
  UInt8.not_lt.mpr (UInt8.le_iff_toNat_le.mpr h)

/-- A byte that starts a character of several bytes. -/
theorem front_start {a : UInt8} (hlow : 0xC2 ≤ a.toNat) (hhigh : a.toNat ≤ 0xF4) :
    ¬ a < 0x80 ∧ (a < 0xC2 || 0xF4 < a) = false := by
  refine ⟨not_lt_of_le_toNat (Nat.le_trans (by decide) hlow), ?_⟩
  rw [Bool.or_eq_false_iff, decide_eq_false_iff_not, decide_eq_false_iff_not]
  exact ⟨not_lt_of_le_toNat hlow, not_lt_of_le_toNat hhigh⟩

theorem front_two {a b : UInt8} (hlow : 0xC2 ≤ a.toNat) (hhigh : a.toNat < 0xE0)
    (hb : isContinuation b = true) (rest : List UInt8) :
    front (a :: b :: rest) = .char (Char.ofNat ((a.toNat - 0xC0) * 64 + continuationBits b)) 2 := by
  obtain ⟨hstart, hrange⟩ := front_start hlow (by omega)
  have hfits : fitsSecond a b = true := by
    apply fitsSecond_of_bounds hb <;> omega
  have hlt : a < 0xE0 := UInt8.lt_iff_toNat_lt.mpr hhigh
  simp only [front, hstart, hrange, hfits, hlt, if_false, if_true, Bool.not_true,
    Bool.false_eq_true]

theorem front_three {a b c : UInt8} (hlow : 0xE0 ≤ a.toNat) (hhigh : a.toNat < 0xF0)
    (hb : fitsSecond a b = true) (hc : isContinuation c = true) (rest : List UInt8) :
    front (a :: b :: c :: rest) =
      .char (Char.ofNat ((a.toNat - 0xE0) * 4096 +
        (continuationBits b * 64 + continuationBits c))) 3 := by
  obtain ⟨hstart, hrange⟩ := front_start (show 0xC2 ≤ a.toNat by omega) (by omega)
  have hge : ¬ a < 0xE0 := not_lt_of_le_toNat hlow
  have hlt : a < 0xF0 := UInt8.lt_iff_toNat_lt.mpr hhigh
  simp only [front, hstart, hrange, hb, hc, hge, hlt, if_false, if_true, Bool.not_true,
    Bool.false_eq_true]

theorem front_four {a b c d : UInt8} (hlow : 0xF0 ≤ a.toNat) (hhigh : a.toNat ≤ 0xF4)
    (hb : fitsSecond a b = true) (hc : isContinuation c = true)
    (hd : isContinuation d = true) (rest : List UInt8) :
    front (a :: b :: c :: d :: rest) =
      .char (Char.ofNat ((a.toNat - 0xF0) * 262144 +
        (continuationBits b * 64 + continuationBits c) * 64 + continuationBits d)) 4 := by
  obtain ⟨hstart, hrange⟩ := front_start (show 0xC2 ≤ a.toNat by omega) hhigh
  have hge : ¬ a < 0xE0 := not_lt_of_le_toNat (Nat.le_trans (by decide) hlow)
  have hge' : ¬ a < 0xF0 := not_lt_of_le_toNat hlow
  simp only [front, hstart, hrange, hb, hc, hd, hge, hge', if_false, Bool.not_true,
    Bool.false_eq_true]

/-- The bytes of a character are read as that character, whatever follows. -/
theorem front_utf8EncodeChar (c : Char) (rest : List UInt8) :
    front (String.utf8EncodeChar c ++ rest) = .char c (String.utf8EncodeChar c).length := by
  have hvalid : c.val.toNat < 0xD800 ∨ 0xDFFF < c.val.toNat ∧ c.val.toNat < 0x110000 := c.valid
  have hchar : ∀ n, n = c.val.toNat → Char.ofNat n = c := by
    rintro n rfl
    exact c.ofNat_toNat
  unfold String.utf8EncodeChar
  dsimp only
  generalize c.val.toNat = v at hvalid hchar
  -- The cases are those of the encoding, by the number of bytes.
  have hlow : v % 64 < 64 := Nat.mod_lt _ (by decide)
  have hmid : v / 64 % 64 < 64 := Nat.mod_lt _ (by decide)
  have hhigh : v / 4096 % 64 < 64 := Nat.mod_lt _ (by decide)
  by_cases h₁ : v ≤ 127
  · have ha := toNat_ofNat_small (show v < 256 by omega)
    rw [if_pos h₁, List.singleton_append, front_one (by omega), hchar _ ha]
    rfl
  rw [if_neg h₁]
  by_cases h₂ : v ≤ 2047
  · have ha := toNat_ofNat_small (show v / 64 % 32 + 192 < 256 by omega)
    rw [if_pos h₂, List.cons_append, List.singleton_append,
      front_two (by omega) (by omega) (isContinuation_ofNat hlow), continuationBits_ofNat hlow,
      hchar _ (by omega)]
    rfl
  rw [if_neg h₂]
  by_cases h₃ : v ≤ 65535
  · have ha := toNat_ofNat_small (show v / 4096 % 16 + 224 < 256 by omega)
    have hb := toNat_ofNat_small (show v / 64 % 64 + 128 < 256 by omega)
    have hfits : fitsSecond (.ofNat (v / 4096 % 16 + 224)) (.ofNat (v / 64 % 64 + 128)) = true := by
      apply fitsSecond_of_bounds (isContinuation_ofNat hmid) <;> omega
    rw [if_pos h₃, List.cons_append, List.cons_append, List.singleton_append,
      front_three (by omega) (by omega) hfits (isContinuation_ofNat hlow),
      continuationBits_ofNat hmid, continuationBits_ofNat hlow, hchar _ (by omega)]
    rfl
  · have ha := toNat_ofNat_small (show v / 262144 % 8 + 240 < 256 by omega)
    have hb := toNat_ofNat_small (show v / 4096 % 64 + 128 < 256 by omega)
    have hfits : fitsSecond (.ofNat (v / 262144 % 8 + 240)) (.ofNat (v / 4096 % 64 + 128)) =
        true := by
      apply fitsSecond_of_bounds (isContinuation_ofNat hhigh) <;> omega
    rw [if_neg h₃, List.cons_append, List.cons_append, List.cons_append, List.singleton_append,
      front_four (by omega) (by omega) hfits (isContinuation_ofNat hmid)
        (isContinuation_ofNat hlow),
      continuationBits_ofNat hhigh, continuationBits_ofNat hmid, continuationBits_ofNat hlow,
      hchar _ (by omega)]
    rfl

/-! ## Texts -/

@[simp] theorem encode_nil : encode [] = [] := rfl

theorem encode_cons (c : Char) (cs : List Char) :
    encode (c :: cs) = String.utf8EncodeChar c ++ encode cs :=
  List.flatMap_cons

theorem encode_append (a b : List Char) : encode (a ++ b) = encode a ++ encode b :=
  List.flatMap_append

theorem length_encode (cs : List Char) : (encode cs).length = Source.byteLength cs := by
  induction cs with
  | nil => rfl
  | cons c cs ih =>
    rw [encode_cons, List.length_append, String.length_utf8EncodeChar, ih]
    rfl

/-- Bytes are read as long as there are some; what was read before stands in front. -/
theorem decodeFrom_encode (cs : List Char) (bound offset : Nat) (seen : List Char)
    (h : (encode cs).length ≤ bound) :
    decodeFrom bound offset (encode cs) seen = .ok (seen.reverse ++ cs) := by
  induction cs generalizing bound offset seen with
  | nil => cases bound <;> simp [encode, decodeFrom]
  | cons c rest ih =>
    have hpos : 0 < (String.utf8EncodeChar c).length := by
      rw [String.length_utf8EncodeChar]
      exact c.utf8Size_pos
    rw [encode_cons, List.length_append] at h
    rw [encode_cons]
    obtain ⟨bound, rfl⟩ : ∃ n, bound = n + 1 := ⟨bound - 1, by omega⟩
    obtain ⟨a, more, hbytes⟩ := List.exists_cons_of_length_pos hpos
    have hfront := front_utf8EncodeChar c (encode rest)
    rw [hbytes, List.cons_append] at hfront ⊢
    rw [decodeFrom, hfront]
    simp only [← List.cons_append, ← hbytes, List.drop_left]
    rw [ih _ _ _ (by omega), List.reverse_cons, List.append_assoc]
    rfl

/-- What is written as bytes is read back. -/
theorem decode_encode (cs : List Char) : decode (encode cs) = .ok cs := by
  rw [decode, decodeFrom_encode cs _ 0 [] (Nat.le_refl _)]
  rfl

end Addon.Text
