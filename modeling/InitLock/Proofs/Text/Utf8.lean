import InitLock.Text.Utf8

/-!
# UTF-8 read back

What a text is in UTF-8 is read back as that text (`decodeUtf8_utf8`).
-/

namespace InitLock.Text

/-! ## Bytes by their numbers -/

theorem toNat_ofNat {n : Nat} (h : n < 256) : (UInt8.ofNat n).toNat = n := by
  rw [UInt8.toNat_ofNat']
  exact Nat.mod_eq_of_lt h

/-- What a first byte announces. -/
theorem leadByte_ofNat : ∀ n < 256, leadByte (UInt8.ofNat n) =
    if 0xc2 ≤ n ∧ n ≤ 0xdf then some (2, 0x80, 0xbf)
    else if n = 0xe0 then some (3, 0xa0, 0xbf)
    else if n = 0xed then some (3, 0x80, 0x9f)
    else if 0xe1 ≤ n ∧ n ≤ 0xef then some (3, 0x80, 0xbf)
    else if n = 0xf0 then some (4, 0x90, 0xbf)
    else if 0xf1 ≤ n ∧ n ≤ 0xf3 then some (4, 0x80, 0xbf)
    else if n = 0xf4 then some (4, 0x80, 0x8f)
    else none := by
  decide +kernel

theorem isTail_ofNat {n : Nat} (h : 0x80 ≤ n) (h' : n ≤ 0xbf) :
    isTail (UInt8.ofNat n) = true := by
  simp only [isTail, decide_eq_true_eq, UInt8.le_iff_toNat_le, toNat_ofNat (show n < 256 by omega)]
  exact ⟨h, h'⟩

theorem not_lt_ofNat {n : Nat} (h : 0x80 ≤ n) (h' : n < 256) : ¬ UInt8.ofNat n < 0x80 := by
  rw [UInt8.lt_iff_toNat_lt, toNat_ofNat h', Nat.not_lt]
  exact h

theorem within_ofNat {n : Nat} {lo hi : UInt8} (h : lo.toNat ≤ n) (h' : n ≤ hi.toNat) :
    ¬ (UInt8.ofNat n < lo ∨ hi < UInt8.ofNat n) := by
  have := hi.toNat_lt
  rw [UInt8.lt_iff_toNat_lt, UInt8.lt_iff_toNat_lt, toNat_ofNat (by omega)]
  omega

/-! ## Characters -/

section
variable {a b c d lo hi : UInt8} {rest : List UInt8} {i : Nat}

theorem decodeUtf8From_two (ha : ¬ a < 0x80) (hlead : leadByte a = some (2, lo, hi))
    (hb : ¬ (b < lo ∨ hi < b)) :
    decodeUtf8From i (a :: b :: rest) =
      (decodeUtf8From (i + 2) rest).map (joinTails (a.toNat % 32) [b] :: ·) := by
  rw [decodeUtf8From, if_neg ha]
  simp only [hlead, hb, ↓reduceIte]

theorem decodeUtf8From_three (ha : ¬ a < 0x80) (hlead : leadByte a = some (3, lo, hi))
    (hb : ¬ (b < lo ∨ hi < b)) (hc : isTail c = true) :
    decodeUtf8From i (a :: b :: c :: rest) =
      (decodeUtf8From (i + 3) rest).map (joinTails (a.toNat % 16) [b, c] :: ·) := by
  rw [decodeUtf8From, if_neg ha]
  simp only [hlead, hb, hc, Nat.reduceEqDiff, Bool.not_true, Bool.false_eq_true, ↓reduceIte]

theorem decodeUtf8From_four (ha : ¬ a < 0x80) (hlead : leadByte a = some (4, lo, hi))
    (hb : ¬ (b < lo ∨ hi < b)) (hc : isTail c = true) (hd : isTail d = true) :
    decodeUtf8From i (a :: b :: c :: d :: rest) =
      (decodeUtf8From (i + 4) rest).map (joinTails (a.toNat % 8) [b, c, d] :: ·) := by
  rw [decodeUtf8From, if_neg ha]
  simp only [hlead, hb, hc, hd, Nat.reduceEqDiff, Bool.not_true, Bool.false_eq_true, ↓reduceIte]

end

/-- The range of the second byte of three depends on the first: surrogates are left out. -/
theorem leadByte_three {v : Nat} (h : 0x800 ≤ v) (h' : v ≤ 0xffff)
    (hvalid : v < 0xd800 ∨ 0xdfff < v) :
    ∃ lo hi : UInt8, leadByte (UInt8.ofNat (v / 4096 % 16 + 0xe0)) = some (3, lo, hi) ∧
      lo.toNat ≤ v / 64 % 64 + 0x80 ∧ v / 64 % 64 + 0x80 ≤ hi.toNat := by
  rw [leadByte_ofNat _ (by omega), if_neg (by omega)]
  by_cases h₀ : v / 4096 = 0
  · exact ⟨0xa0, 0xbf, if_pos (by omega), by show 0xa0 ≤ _; omega, by show _ ≤ 0xbf; omega⟩
  rw [if_neg (by omega)]
  by_cases h₁ : v / 4096 = 13
  · exact ⟨0x80, 0x9f, if_pos (by omega), by show 0x80 ≤ _; omega, by show _ ≤ 0x9f; omega⟩
  rw [if_neg (by omega)]
  exact ⟨0x80, 0xbf, if_pos (by omega), by show 0x80 ≤ _; omega, by show _ ≤ 0xbf; omega⟩

/-- The range of the second byte of four depends on the first: there are no characters above. -/
theorem leadByte_four {v : Nat} (h : 0xffff < v) (h' : v < 0x110000) :
    ∃ lo hi : UInt8, leadByte (UInt8.ofNat (v / 262144 % 8 + 0xf0)) = some (4, lo, hi) ∧
      lo.toNat ≤ v / 4096 % 64 + 0x80 ∧ v / 4096 % 64 + 0x80 ≤ hi.toNat := by
  rw [leadByte_ofNat _ (by omega), if_neg (by omega), if_neg (by omega), if_neg (by omega),
    if_neg (by omega)]
  by_cases h₀ : v / 262144 = 0
  · exact ⟨0x90, 0xbf, if_pos (by omega), by show 0x90 ≤ _; omega, by show _ ≤ 0xbf; omega⟩
  rw [if_neg (by omega)]
  by_cases h₁ : v / 262144 = 4
  · rw [if_neg (by omega)]
    exact ⟨0x80, 0x8f, if_pos (by omega), by show 0x80 ≤ _; omega, by show _ ≤ 0x8f; omega⟩
  exact ⟨0x80, 0xbf, if_pos (by omega), by show 0x80 ≤ _; omega, by show _ ≤ 0xbf; omega⟩

/-- A byte that is not the first carries six bits of the number, and they are joined again. -/
theorem toNat_tail (n : Nat) : (UInt8.ofNat (n % 64 + 128)).toNat = n % 64 + 128 :=
  toNat_ofNat (by omega)

theorem joinTails_two {v : Nat} (h : v ≤ 0x7ff) :
    joinTails ((UInt8.ofNat (v / 64 % 32 + 192)).toNat % 32) [UInt8.ofNat (v % 64 + 128)] =
      Char.ofNat v := by
  rw [joinTails, toNat_ofNat (by omega)]
  simp only [List.foldl_cons, List.foldl_nil, toNat_tail]
  congr 1
  omega

theorem joinTails_three {v : Nat} (h : v ≤ 0xffff) :
    joinTails ((UInt8.ofNat (v / 4096 % 16 + 224)).toNat % 16)
      [UInt8.ofNat (v / 64 % 64 + 128), UInt8.ofNat (v % 64 + 128)] = Char.ofNat v := by
  rw [joinTails, toNat_ofNat (by omega)]
  simp only [List.foldl_cons, List.foldl_nil, toNat_tail]
  congr 1
  omega

theorem joinTails_four {v : Nat} (h : v < 0x110000) :
    joinTails ((UInt8.ofNat (v / 262144 % 8 + 240)).toNat % 8)
      [UInt8.ofNat (v / 4096 % 64 + 128), UInt8.ofNat (v / 64 % 64 + 128),
        UInt8.ofNat (v % 64 + 128)] = Char.ofNat v := by
  rw [joinTails, toNat_ofNat (by omega)]
  simp only [List.foldl_cons, List.foldl_nil, toNat_tail]
  congr 1
  omega

/-- A character in UTF-8 is read back, whatever follows. -/
theorem decodeUtf8From_encode (c : Char) (rest : List UInt8) (i : Nat) :
    ∃ j, decodeUtf8From i (String.utf8EncodeChar c ++ rest) =
      (decodeUtf8From j rest).map (c :: ·) := by
  have hvalid : c.val.toNat < 0xd800 ∨ 0xdfff < c.val.toNat ∧ c.val.toNat < 0x110000 := c.valid
  have hchar : Char.ofNat c.val.toNat = c := Char.ofNat_toNat c
  unfold String.utf8EncodeChar
  generalize c.val.toNat = v at hvalid hchar
  simp only
  split
  · have hlt : UInt8.ofNat v < 0x80 := by
      rw [UInt8.lt_iff_toNat_lt, toNat_ofNat (by omega)]
      show v < 128
      omega
    refine ⟨i + 1, ?_⟩
    rw [List.cons_append, decodeUtf8From, if_pos hlt, toNat_ofNat (by omega), hchar]
    rfl
  split
  · have hlead : leadByte (UInt8.ofNat (v / 64 % 32 + 192)) = some (2, 0x80, 0xbf) := by
      rw [leadByte_ofNat _ (by omega), if_pos (by omega)]
    refine ⟨i + 2, ?_⟩
    rw [← hchar, ← joinTails_two (by omega)]
    exact decodeUtf8From_two (not_lt_ofNat (by omega) (by omega)) hlead
      (within_ofNat (by show 128 ≤ _; omega) (by show _ ≤ 191; omega))
  split
  · obtain ⟨lo, hi, hlead, hlo, hhi⟩ := leadByte_three (v := v) (by omega) (by omega) (by omega)
    refine ⟨i + 3, ?_⟩
    rw [← hchar, ← joinTails_three (by omega)]
    exact decodeUtf8From_three (not_lt_ofNat (by omega) (by omega)) hlead (within_ofNat hlo hhi)
      (isTail_ofNat (by omega) (by omega))
  · obtain ⟨lo, hi, hlead, hlo, hhi⟩ := leadByte_four (v := v) (by omega) (by omega)
    refine ⟨i + 4, ?_⟩
    rw [← hchar, ← joinTails_four (by omega)]
    exact decodeUtf8From_four (not_lt_ofNat (by omega) (by omega)) hlead (within_ofNat hlo hhi)
      (isTail_ofNat (by omega) (by omega)) (isTail_ofNat (by omega) (by omega))

theorem decodeUtf8From_utf8 (cs : List Char) (i : Nat) : decodeUtf8From i (utf8 cs) = .ok cs := by
  induction cs generalizing i with
  | nil => rfl
  | cons c cs ih =>
    obtain ⟨j, hj⟩ := decodeUtf8From_encode c (utf8 cs) i
    rw [show utf8 (c :: cs) = String.utf8EncodeChar c ++ utf8 cs from List.flatMap_cons, hj, ih]
    rfl

theorem decodeUtf8_utf8 (cs : List Char) : decodeUtf8 (utf8 cs) = .ok cs :=
  decodeUtf8From_utf8 cs 0

end InitLock.Text
