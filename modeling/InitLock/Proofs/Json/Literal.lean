import InitLock.Json.Lexeme
import InitLock.Json.Printer

/-!
# String literals read back

What `writeText` writes for a string is read as that string by `literal`
(`literal_writeText`), whatever follows it.
-/

namespace InitLock.Json

/-! ## One character -/

theorem number?_hexDigits : ∀ n < 0x20,
    Text.number? 16 ['0', '0', hexDigit (n / 16), hexDigit (n % 16)] = some n := by
  decide

theorem byteLength_hexDigits : ∀ n < 0x20,
    Text.byteLength ['0', '0', hexDigit (n / 16), hexDigit (n % 16)] = 4 := by
  decide

theorem unicodeEscape_control {c : Char} (hc : c.toNat < 0x20) (rest : List Char) :
    unicodeEscape ('0' :: '0' :: hexDigit (c.toNat / 16) :: hexDigit (c.toNat % 16) :: rest) =
      .ok (c, rest) := by
  have hlow : isLowSurrogate c.toNat = false := by
    simp only [isLowSurrogate, decide_eq_false_iff_not]; omega
  have hhigh : isHighSurrogate c.toNat = false := by
    simp only [isHighSurrogate, decide_eq_false_iff_not]; omega
  have hunit : hexUnit ('0' :: '0' :: hexDigit (c.toNat / 16) :: hexDigit (c.toNat % 16) :: rest) =
      .ok (c.toNat, rest) := by
    simp only [hexUnit, List.take_succ_cons, List.take_zero, byteLength_hexDigits _ hc,
      number?_hexDigits _ hc]
    rfl
  simp only [unicodeEscape, hunit, hlow, hhigh, Bool.false_eq_true, ↓reduceIte, Char.ofNat_toNat]

/-- A character as it is written is read as that character. -/
theorem literalChar_escapeChar (c : Char) (rest : List Char) :
    literalChar (escapeChar c ++ rest) = .ok (some c, rest) := by
  unfold escapeChar
  split
  · next h => subst h; rfl
  split
  · next h => subst h; rfl
  split
  · next h => subst h; rfl
  split
  · next h => subst h; rfl
  split
  · next h => subst h; rfl
  split
  · next h => subst h; rfl
  split
  · next h => subst h; rfl
  split
  · next hc =>
    have hescape : escape ('u' :: '0' :: '0' :: hexDigit (c.toNat / 16) ::
        hexDigit (c.toNat % 16) :: rest) = .ok (c, rest) := by
      rw [← unicodeEscape_control hc rest]
      rfl
    simp only [List.cons_append, List.nil_append, literalChar]
    rw [if_neg (by decide), if_pos trivial, hescape]
    rfl
  · next hquote hslash _ _ _ _ _ hc =>
    simp only [List.cons_append, List.nil_append, literalChar, hquote, hslash, hc, ↓reduceIte]

/-! ## A whole literal -/

/-- Characters as they are written are read as those characters, up to the quote that follows. -/
theorem literalChars_flatMap (cs rest : List Char) :
    ∀ fuel, cs.length < fuel →
      literalChars fuel (cs.flatMap escapeChar ++ '"' :: rest) = .ok (cs, rest) := by
  induction cs with
  | nil =>
    intro fuel hf
    obtain ⟨fuel, rfl⟩ : ∃ f, fuel = f + 1 := ⟨fuel - 1, by simp at hf; omega⟩
    rfl
  | cons c cs ih =>
    intro fuel hf
    rw [List.length_cons] at hf
    obtain ⟨fuel, rfl⟩ : ∃ f, fuel = f + 1 := ⟨fuel - 1, by omega⟩
    rw [List.flatMap_cons, List.append_assoc, literalChars, literalChar_escapeChar]
    simp only [ih fuel (by omega)]
    rfl

theorem length_escapeChar_pos (c : Char) : 0 < (escapeChar c).length := by
  unfold escapeChar
  repeat' split
  all_goals simp

theorem length_le_flatMap (cs : List Char) : cs.length ≤ (cs.flatMap escapeChar).length := by
  induction cs with
  | nil => simp
  | cons c cs ih =>
    have := length_escapeChar_pos c
    rw [List.flatMap_cons, List.length_append, List.length_cons]
    omega

/-- A string as it is written, after its opening quote, is read as that string. -/
theorem literal_flatMap (s : String) (rest : List Char) :
    literal (s.toList.flatMap escapeChar ++ '"' :: rest) = .ok (s, rest) := by
  have hlen := length_le_flatMap s.toList
  unfold literal
  rw [literalChars_flatMap]
  · simp only [Except.map, String.ofList_toList]
  · rw [List.length_append]; omega

theorem writeText_append (s : String) (rest : List Char) :
    writeText s ++ rest = '"' :: (s.toList.flatMap escapeChar ++ '"' :: rest) := by
  simp [writeText]

end InitLock.Json
