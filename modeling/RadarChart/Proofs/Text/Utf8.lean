import RadarChart.Text.Utf8

/-!
# Bytes that are UTF-8

The bytes of a text are decoded to the text. A character takes one to four
bytes; the first one says how many there are and leaves a range for the second
one, and the bytes of a character lie in these ranges.
-/

namespace RadarChart.Text

/-! ## First bytes -/

section
variable {b : UInt8}

theorem PartialChar.ofLead?_two (h : 0xC2 ≤ b.toNat ∧ b.toNat ≤ 0xDF) :
    PartialChar.ofLead? b = some ⟨[b], b.toNat - 0xC0, 1, 0x80, 0xBF⟩ := by
  simp [PartialChar.ofLead?, h]

/-- The second byte keeps out overlong forms and surrogates. -/
theorem PartialChar.ofLead?_three (h : 0xE0 ≤ b.toNat ∧ b.toNat ≤ 0xEF) :
    PartialChar.ofLead? b = some ⟨[b], b.toNat - 0xE0, 2,
      if b.toNat = 0xE0 then 0xA0 else 0x80, if b.toNat = 0xED then 0x9F else 0xBF⟩ := by
  have hnot : ¬ b.toNat ≤ 0xDF := by omega
  by_cases hfirst : b.toNat = 0xE0
  · simp [PartialChar.ofLead?, hfirst]
  · by_cases hsurrogate : b.toNat = 0xED
    · simp [PartialChar.ofLead?, hsurrogate]
    · have hlow : 0xE1 ≤ b.toNat := by omega
      simp [PartialChar.ofLead?, hnot, hfirst, hsurrogate, hlow, h.2]

/-- The second byte keeps out overlong forms and codes that are too large. -/
theorem PartialChar.ofLead?_four (h : 0xF0 ≤ b.toNat ∧ b.toNat ≤ 0xF4) :
    PartialChar.ofLead? b = some ⟨[b], b.toNat - 0xF0, 3,
      if b.toNat = 0xF0 then 0x90 else 0x80, if b.toNat = 0xF4 then 0x8F else 0xBF⟩ := by
  have hcases : b.toNat = 0xF0 ∨ b.toNat = 0xF1 ∨ b.toNat = 0xF2 ∨ b.toNat = 0xF3 ∨
      b.toNat = 0xF4 := by omega
  rcases hcases with h | h | h | h | h <;> simp [PartialChar.ofLead?, h]

end

/-! ## Steps -/

section
variable {position : Nat} {b : UInt8} {bs : List UInt8}

theorem decodeFrom_ascii (h : b.toNat < 0x80) :
    decodeFrom position none (b :: bs) =
      (decodeFrom (position + 1) none bs).map (Char.ofNat b.toNat :: ·) := by
  rw [decodeFrom, if_pos h]

theorem decodeFrom_lead {p : PartialChar} (h : 0x80 ≤ b.toNat)
    (hp : PartialChar.ofLead? b = some p) :
    decodeFrom position none (b :: bs) = decodeFrom (position + 1) (some p) bs := by
  rw [decodeFrom, if_neg (by omega), hp]

variable {code owed low high : Nat} {begun : List UInt8}

theorem decodeFrom_last (h : low ≤ b.toNat ∧ b.toNat ≤ high) :
    decodeFrom position (some ⟨begun, code, 1, low, high⟩) (b :: bs) =
      (decodeFrom (position + 1) none bs).map
        (Char.ofNat (code * 64 + (b.toNat - 0x80)) :: ·) := by
  rw [decodeFrom, if_pos (by simpa using h), if_pos (Nat.le_refl 1)]

theorem decodeFrom_more (h : low ≤ b.toNat ∧ b.toNat ≤ high) :
    decodeFrom position (some ⟨begun, code, owed + 2, low, high⟩) (b :: bs) =
      decodeFrom (position + 1)
        (some ⟨begun ++ [b], code * 64 + (b.toNat - 0x80), owed + 1, 0x80, 0xBF⟩) bs := by
  rw [decodeFrom, if_pos (by simpa using h), if_neg (by simp)]
  rfl

end

/-! ## Characters -/

section
variable {position n : Nat} {b₀ b₁ b₂ b₃ : UInt8} {bs : List UInt8}

theorem decodeFrom_two (hn : 0x80 ≤ n ∧ n < 0x800) (h₀ : b₀.toNat = n / 64 + 192)
    (h₁ : b₁.toNat = n % 64 + 128) :
    decodeFrom position none (b₀ :: b₁ :: bs) =
      (decodeFrom (position + 2) none bs).map (Char.ofNat n :: ·) := by
  have hcode : (b₀.toNat - 0xC0) * 64 + (b₁.toNat - 0x80) = n := by omega
  rw [decodeFrom_lead (by omega) (PartialChar.ofLead?_two (by omega)),
    decodeFrom_last (by omega), hcode]

theorem decodeFrom_three (hn : 0x800 ≤ n ∧ n < 0x10000) (hvalid : n < 0xD800 ∨ 0xDFFF < n)
    (h₀ : b₀.toNat = n / 4096 + 224) (h₁ : b₁.toNat = n / 64 % 64 + 128)
    (h₂ : b₂.toNat = n % 64 + 128) :
    decodeFrom position none (b₀ :: b₁ :: b₂ :: bs) =
      (decodeFrom (position + 3) none bs).map (Char.ofNat n :: ·) := by
  have hsecond : (if b₀.toNat = 0xE0 then 0xA0 else 0x80) ≤ b₁.toNat ∧
      b₁.toNat ≤ if b₀.toNat = 0xED then 0x9F else 0xBF := by
    constructor <;> split <;> omega
  have hcode : ((b₀.toNat - 0xE0) * 64 + (b₁.toNat - 0x80)) * 64 + (b₂.toNat - 0x80) = n := by
    omega
  rw [decodeFrom_lead (by omega) (PartialChar.ofLead?_three (by omega)),
    decodeFrom_more hsecond, decodeFrom_last (by omega), hcode]

theorem decodeFrom_four (hn : 0x10000 ≤ n ∧ n < 0x110000) (h₀ : b₀.toNat = n / 262144 + 240)
    (h₁ : b₁.toNat = n / 4096 % 64 + 128) (h₂ : b₂.toNat = n / 64 % 64 + 128)
    (h₃ : b₃.toNat = n % 64 + 128) :
    decodeFrom position none (b₀ :: b₁ :: b₂ :: b₃ :: bs) =
      (decodeFrom (position + 4) none bs).map (Char.ofNat n :: ·) := by
  have hsecond : (if b₀.toNat = 0xF0 then 0x90 else 0x80) ≤ b₁.toNat ∧
      b₁.toNat ≤ if b₀.toNat = 0xF4 then 0x8F else 0xBF := by
    constructor <;> split <;> omega
  have hcode : (((b₀.toNat - 0xF0) * 64 + (b₁.toNat - 0x80)) * 64 + (b₂.toNat - 0x80)) * 64 +
      (b₃.toNat - 0x80) = n := by
    omega
  rw [decodeFrom_lead (by omega) (PartialChar.ofLead?_four (by omega)),
    decodeFrom_more hsecond, decodeFrom_more (by omega), decodeFrom_last (by omega), hcode]

end

/-- The bytes of a character are decoded to it, whatever follows them. -/
theorem decodeFrom_utf8EncodeChar (position : Nat) (c : Char) (bs : List UInt8) :
    decodeFrom position none (String.utf8EncodeChar c ++ bs) =
      (decodeFrom (position + (String.utf8EncodeChar c).length) none bs).map (c :: ·) := by
  have hvalid : c.val.toNat < 0xD800 ∨ 0xDFFF < c.val.toNat ∧ c.val.toNat < 0x110000 := c.valid
  have hchar : Char.ofNat c.val.toNat = c := Char.ofNat_toNat c
  have hbyte : ∀ {n : Nat}, n < 256 → (UInt8.ofNat n).toNat = n := UInt8.toNat_ofNat_of_lt'
  rw [String.utf8EncodeChar]
  generalize c.val.toNat = n at hvalid hchar
  subst hchar
  -- the thresholds at which the encoding takes one byte more
  by_cases hone : n ≤ 0x7F
  · rw [if_pos hone, List.singleton_append, decodeFrom_ascii]
    · rw [hbyte (by omega)]
      rfl
    · rw [hbyte (by omega)]
      omega
  · rw [if_neg hone]
    by_cases htwo : n ≤ 0x7FF
    · rw [if_pos htwo]
      apply decodeFrom_two (by omega)
      · rw [hbyte (by omega)]
        omega
      · exact hbyte (by omega)
    · rw [if_neg htwo]
      by_cases hthree : n ≤ 0xFFFF
      · rw [if_pos hthree]
        apply decodeFrom_three (by omega) (by omega)
        · rw [hbyte (by omega)]
          omega
        · exact hbyte (by omega)
        · exact hbyte (by omega)
      · rw [if_neg hthree]
        apply decodeFrom_four (by omega)
        · rw [hbyte (by omega)]
          omega
        · exact hbyte (by omega)
        · exact hbyte (by omega)
        · exact hbyte (by omega)

/-- The bytes of characters are decoded to these characters. -/
theorem decodeFrom_flatMap (position : Nat) (cs : List Char) :
    decodeFrom position none (cs.flatMap String.utf8EncodeChar) = .ok cs := by
  induction cs generalizing position with
  | nil => rfl
  | cons c cs ih =>
      rw [List.flatMap_cons, decodeFrom_utf8EncodeChar, ih]
      rfl

/-! ## Byte arrays -/

theorem toList_loop (bytes : ByteArray) (i : Nat) (read : List UInt8) :
    ByteArray.toList.loop bytes i read = read.reverse ++ bytes.data.toList.drop i := by
  fun_induction ByteArray.toList.loop bytes i read with
  | case1 i read h ih =>
      have hi : i < bytes.data.toList.length := by simpa using h
      rw [ih, List.drop_eq_getElem_cons hi]
      simp [ByteArray.get!, h]
  | case2 i read h =>
      have hi : bytes.data.toList.length ≤ i := by simpa using h
      rw [List.drop_eq_nil_of_le hi, List.append_nil]

theorem toList_toUTF8 (text : String) :
    text.toUTF8.toList = text.toList.flatMap String.utf8EncodeChar := by
  obtain ⟨cs, rfl⟩ : ∃ cs, text = String.ofList cs := ⟨text.toList, String.ofList_toList.symm⟩
  rw [ByteArray.toList, toList_loop, List.reverse_nil, List.nil_append, List.drop_zero,
    String.toUTF8_eq_toByteArray, String.toByteArray_ofList, List.utf8Encode,
    List.toList_data_toByteArray, String.toList_ofList]

/-- The bytes of a text are decoded to the text. -/
theorem decodeUtf8_toUTF8 (text : String) : decodeUtf8 text.toUTF8.toList = .ok text.toList := by
  rw [toList_toUTF8, decodeUtf8, decodeFrom_flatMap]

end RadarChart.Text
