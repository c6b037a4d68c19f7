import InitLock.Error
import InitLock.Proofs.Json.Grammar
import Mathlib.Data.List.TakeWhile

/-!
# Strings are read by the grammar

A string is read where one is written, as what it says, and passed where one is
written that need not say anything (`literal_eq_ok`, `skipLiteral_eq_ok`). Both
readers run a loop with a bound on its turns. The bound plays no part in what
they do: a turn goes on with a shorter text only (`Terminates`).
-/

namespace InitLock.Json

open Grammar

/-! ## Loops -/

/-- A loop with a bound on its turns never comes to the bound: a turn goes on, if it does, with a
shorter text. -/
structure Terminates {σ ρ : Type} (loop : Nat → σ → List Char → ρ)
    (turn : (σ → List Char → ρ) → σ → List Char → ρ) : Prop where
  succ : ∀ n s cs, loop (n + 1) s cs = turn (loop n) s cs
  shorter : ∀ go go' s cs, (∀ s' more, more.length < cs.length → go s' more = go' s' more) →
    turn go s cs = turn go' s cs

/-- Every bound beyond the length of the text is as good as any other. -/
theorem Terminates.turns {σ ρ : Type} {loop : Nat → σ → List Char → ρ}
    {turn : (σ → List Char → ρ) → σ → List Char → ρ} (h : Terminates loop turn) {n m : Nat} {s : σ}
    {cs : List Char} (hn : cs.length < n) (hm : cs.length < m) : loop n s cs = loop m s cs := by
  induction n generalizing s cs m with
  | zero => nomatch hn
  | succ n ih =>
    obtain ⟨m, rfl⟩ := Nat.exists_eq_succ_of_ne_zero (Nat.ne_of_gt (Nat.zero_lt_of_lt hm))
    rw [h.succ, h.succ]
    exact h.shorter _ _ _ _ fun s more hlt => ih (by omega) (by omega)

variable {c d x : Char} {n m : Nat} {cs ws text rest : List Char}

/-! ## Blanks -/

theorem isBlank_iff : isBlank c = true ↔ c = ' ' ∨ c = '\n' ∨ c = '\t' ∨ c = '\r' := by
  simp only [isBlank, Bool.or_eq_true, decide_eq_true_eq, or_assoc]

theorem skipBlanks_append (hw : Blank ws) (cs : List Char) :
    skipBlanks (ws ++ cs) = skipBlanks cs := by
  rw [skipBlanks, List.dropWhile_append_of_pos fun c hc => isBlank_iff.mpr (hw c hc), ← skipBlanks]

theorem skipBlanks_cons (hc : isBlank c = false) (cs : List Char) :
    skipBlanks (c :: cs) = c :: cs := by
  rw [skipBlanks, List.dropWhile_cons_of_neg (by rw [hc]; decide)]

/-- What is skipped is blank. -/
theorem exists_blank (cs : List Char) : ∃ ws, Blank ws ∧ cs = ws ++ skipBlanks cs :=
  ⟨cs.takeWhile isBlank, fun _ hc => isBlank_iff.mp (List.mem_takeWhile_imp hc),
    List.takeWhile_append_dropWhile.symm⟩

theorem exists_blank_of_eq (h : skipBlanks cs = rest) : ∃ ws, Blank ws ∧ cs = ws ++ rest :=
  h ▸ exists_blank cs

/-! ## Digits -/

theorem char_le_iff {c d : Char} : c ≤ d ↔ c.toNat ≤ d.toNat := Iff.rfl

theorem digit?_isSome : (digit? c).isSome = true ↔ Digit c := by
  simp only [digit?, Text.digit?, Digit, char_le_iff, Option.isSome_ite]
  split_ifs <;> simp_all <;> omega

theorem hexDigit_iff : HexDigit c n ↔
    ('0' ≤ c ∧ c ≤ '9' ∧ n = c.toNat - 48) ∨ ('a' ≤ c ∧ c ≤ 'f' ∧ n = c.toNat - 87) ∨
      ('A' ≤ c ∧ c ≤ 'F' ∧ n = c.toNat - 55) := by
  simp only [char_le_iff, Char.reduceToNat]
  constructor
  · rintro (h | h | h) <;> simp only [char_le_iff, Char.reduceToNat] at h <;> omega
  · rintro (⟨h, h', rfl⟩ | ⟨h, h', rfl⟩ | ⟨h, h', rfl⟩)
    · exact .decimal ⟨h, h'⟩
    · rw [show c.toNat - 87 = c.toNat - 97 + 10 by omega]
      exact .lower ⟨h, h'⟩
    · rw [show c.toNat - 55 = c.toNat - 65 + 10 by omega]
      exact .upper ⟨h, h'⟩

theorem digit?_sixteen : Text.digit? 16 c = some n ↔ HexDigit c n := by
  rw [hexDigit_iff]
  simp only [Text.digit?, char_le_iff, Char.reduceToNat, Option.ite_none_right_eq_some,
    Option.some.injEq]
  grind

theorem Grammar.HexDigit.lt (h : HexDigit c n) : n < 16 := by
  rw [hexDigit_iff] at h
  simp only [char_le_iff, Char.reduceToNat] at h
  omega

theorem Grammar.Unit16.lt (h : Unit16 text n) : n < 0x10000 := by
  obtain ⟨ha, hb, hc, hd⟩ := h
  have := ha.lt
  have := hb.lt
  have := hc.lt
  have := hd.lt
  omega

/-! ## Escapes -/

theorem shortEscape?_eq_some : shortEscape? c = some x ↔ (c, x) ∈ shortEscapes := by
  constructor
  · intro h
    unfold shortEscape? at h
    split at h <;> cases h <;> decide
  · intro h
    simp only [shortEscapes, List.mem_cons, Prod.mk.injEq, List.not_mem_nil, or_false] at h
    rcases h with ⟨rfl, rfl⟩ | ⟨rfl, rfl⟩ | ⟨rfl, rfl⟩ | ⟨rfl, rfl⟩ | ⟨rfl, rfl⟩ | ⟨rfl, rfl⟩ |
      ⟨rfl, rfl⟩ | ⟨rfl, rfl⟩ <;> rfl

theorem length_le_byteLength (cs : List Char) : cs.length ≤ Text.byteLength cs := by
  induction cs with
  | nil => exact Nat.zero_le _
  | cons c cs ih =>
    have := c.utf8Size_pos
    rw [Text.byteLength, List.length_cons]
    omega

theorem number?_sixteen {a b c d : Char} :
    Text.number? 16 [a, b, c, d] = some n ↔ Unit16 [a, b, c, d] n := by
  simp only [Text.number?, List.isEmpty_cons, Bool.false_eq_true, ↓reduceIte, List.foldlM_cons,
    List.foldlM_nil, Option.bind_eq_bind, Option.bind_eq_some_iff, Option.map_eq_some_iff,
    digit?_sixteen, Option.pure_def, Option.some.injEq]
  constructor
  · rintro ⟨i, ⟨i, ha, rfl⟩, j, ⟨j, hb, rfl⟩, k, ⟨k, hc, rfl⟩, l, ⟨l, hd, rfl⟩, rfl⟩
    rw [show 16 * (16 * (16 * (16 * 0 + i) + j) + k) + l =
      0x1000 * i + 0x100 * j + 0x10 * k + l by omega]
    exact .digits ha hb hc hd
  · rintro ⟨ha, hb, hc, hd⟩
    exact ⟨_, ⟨_, ha, rfl⟩, _, ⟨_, hb, rfl⟩, _, ⟨_, hc, rfl⟩, _, ⟨_, hd, rfl⟩, by omega⟩

/-- A unit is read exactly where four hexadecimal digits stand. -/
theorem hexUnit_eq_ok : hexUnit cs = .ok (n, rest) ↔ ∃ u, Unit16 u n ∧ cs = u ++ rest := by
  constructor
  · intro h
    simp only [hexUnit] at h
    split at h
    · nomatch h
    split at h
    · split at h
      · next hm =>
        cases h
        exact ⟨_, number?_sixteen.mp hm, rfl⟩
      · nomatch h
    · nomatch h
  · rintro ⟨u, hu, rfl⟩
    obtain @⟨a, b, c, d, i, j, k, l, ha, hb, hc, hd⟩ := hu
    have hfour : ¬ Text.byteLength [a, b, c, d] < 4 :=
      Nat.not_lt.mpr (length_le_byteLength [a, b, c, d])
    have hread := number?_sixteen.mpr (.digits ha hb hc hd)
    simp only [hexUnit, List.cons_append, List.nil_append, List.take_succ_cons, List.take_zero,
      if_neg hfour, hread]

theorem hexUnit_append {u : List Char} (hu : Unit16 u n) (rest : List Char) :
    hexUnit (u ++ rest) = .ok (n, rest) :=
  hexUnit_eq_ok.mpr ⟨u, hu, rfl⟩

theorem toNat_charOfNat (h : n.isValidChar) : (Char.ofNat n).toNat = n := by
  rw [Char.ofNat, dif_pos h]
  rfl

theorem toNat_pairChar {high low : Nat} (hhigh : 0xd800 ≤ high ∧ high ≤ 0xdbff)
    (hlow : 0xdc00 ≤ low ∧ low ≤ 0xdfff) :
    (pairChar high low).toNat = 0x10000 + (high - 0xd800) * 0x400 + (low - 0xdc00) := by
  have hvalid : ((high - 0xd800) * 0x400 + (low - 0xdc00) + 0x10000).isValidChar :=
    .inr ⟨by omega, by omega⟩
  rw [pairChar, toNat_charOfNat hvalid]
  omega

/-- No character is a surrogate. -/
theorem not_surrogate (x : Char) : ¬ (0xd800 ≤ x.toNat ∧ x.toNat ≤ 0xdfff) := by
  have h : x.toNat < 0xd800 ∨ 0xdfff < x.toNat ∧ x.toNat < 0x110000 := x.valid
  omega

theorem unicodeEscape_sound (h : unicodeEscape cs = .ok (x, rest)) :
    ∃ g, Spells ('\\' :: 'u' :: g) x ∧ cs = g ++ rest := by
  unfold unicodeEscape at h
  split at h
  · nomatch h
  next n _ hunit =>
  obtain ⟨u, hu, rfl⟩ := hexUnit_eq_ok.mp hunit
  have hn := hu.lt
  simp only [isLowSurrogate, isHighSurrogate, decide_eq_true_eq] at h
  split at h
  · nomatch h
  next hlow =>
  split at h
  · next hhigh =>
    split at h
    case h_3 =>
      split at h
      · nomatch h
      next hunit' =>
      obtain ⟨v, hv, rfl⟩ := hexUnit_eq_ok.mp hunit'
      split at h
      · next hm =>
        obtain ⟨hx, rfl⟩ := Prod.mk.inj (Except.ok.inj h)
        refine ⟨u ++ '\\' :: 'u' :: v, .pair hu hv hhigh hm ?_, by simp⟩
        rw [← hx, toNat_pairChar hhigh hm]
      · nomatch h
    all_goals nomatch h
  · next hhigh =>
    cases h
    have hx : (Char.ofNat n).toNat = n := toNat_charOfNat (by unfold Nat.isValidChar; omega)
    exact ⟨u, .unit (hx.symm ▸ hu), rfl⟩

theorem unicodeEscape_unit {u : List Char} (hu : Unit16 u x.toNat) (rest : List Char) :
    unicodeEscape (u ++ rest) = .ok (x, rest) := by
  have hx := not_surrogate x
  have hlow : ¬ (0xdc00 ≤ x.toNat ∧ x.toNat ≤ 0xdfff) := by omega
  have hhigh : ¬ (0xd800 ≤ x.toNat ∧ x.toNat ≤ 0xdbff) := by omega
  simp only [unicodeEscape, hexUnit_append hu, isLowSurrogate, isHighSurrogate,
    decide_eq_true_eq, if_neg hlow, if_neg hhigh, Char.ofNat_toNat]

theorem unicodeEscape_pair {u v : List Char} {high low : Nat} (hu : Unit16 u high)
    (hv : Unit16 v low) (hhigh : 0xd800 ≤ high ∧ high ≤ 0xdbff) (hlow : 0xdc00 ≤ low ∧ low ≤ 0xdfff)
    (hx : x.toNat = 0x10000 + (high - 0xd800) * 0x400 + (low - 0xdc00)) (rest : List Char) :
    unicodeEscape (u ++ '\\' :: 'u' :: (v ++ rest)) = .ok (x, rest) := by
  have hnot : ¬ (0xdc00 ≤ high ∧ high ≤ 0xdfff) := by omega
  have hpair : pairChar high low = x := by
    rw [← Char.toNat_inj, toNat_pairChar hhigh hlow, hx]
  simp only [unicodeEscape, hexUnit_append hu, hexUnit_append hv, isLowSurrogate, isHighSurrogate,
    decide_eq_true_eq, if_neg hnot, if_pos hhigh, if_pos hlow, hpair]

/-! ## Decoded strings -/

theorem literalChar_sound (h : literalChar cs = .ok (some x, rest)) :
    ∃ g, Spells g x ∧ cs = g ++ rest := by
  cases cs with
  | nil => nomatch h
  | cons c cs =>
  simp only [literalChar] at h
  split at h
  · nomatch h
  next hquote =>
  split at h
  · next hslash =>
    subst hslash
    cases cs with
    | nil => nomatch h
    | cons d cs =>
    simp only [escape] at h
    split at h
    · next y hy =>
      cases h
      exact ⟨['\\', d], .short (shortEscape?_eq_some.mp hy), rfl⟩
    split at h
    · next hu =>
      subst hu
      obtain ⟨_, hread, h⟩ := map_eq_ok.mp h
      cases h
      obtain ⟨g, hg, rfl⟩ := unicodeEscape_sound hread
      exact ⟨'\\' :: 'u' :: g, hg, rfl⟩
    · nomatch h
  next hslash =>
  split at h
  · nomatch h
  next hc =>
  cases h
  exact ⟨[_], .plain (Nat.le_of_not_lt hc) hquote hslash, rfl⟩

theorem literalChar_spells {g : List Char} (hg : Spells g x) (rest : List Char) :
    literalChar (g ++ rest) = .ok (some x, rest) := by
  have hescape (cs : List Char) : literalChar ('\\' :: 'u' :: cs) =
      (unicodeEscape cs).map fun p => (some p.1, p.2) := rfl
  cases hg with
  | plain h hquote hslash =>
    simp only [List.cons_append, List.nil_append, literalChar, if_neg hquote, if_neg hslash,
      if_neg (Nat.not_lt.mpr h)]
  | short h =>
    simp only [List.cons_append, List.nil_append, literalChar, escape, shortEscape?_eq_some.mpr h]
    rfl
  | unit hu =>
    rw [List.cons_append, List.cons_append, hescape, unicodeEscape_unit hu]
    rfl
  | pair hu hv hhigh hlow hx =>
    rw [List.cons_append, List.cons_append, List.append_assoc, List.cons_append, List.cons_append,
      hescape, unicodeEscape_pair hu hv hhigh hlow hx]
    rfl

/-- The next character of a string is read exactly as it is spelled. -/
theorem literalChar_eq_some :
    literalChar cs = .ok (some x, rest) ↔ ∃ g, Spells g x ∧ cs = g ++ rest :=
  ⟨literalChar_sound, fun ⟨_, hg, hcs⟩ => hcs ▸ literalChar_spells hg rest⟩

theorem literalChar_eq_none : literalChar cs = .ok (none, rest) ↔ cs = '"' :: rest := by
  constructor
  · intro h
    cases cs with
    | nil => nomatch h
    | cons c cs =>
    simp only [literalChar] at h
    split at h
    · next hc =>
      cases h
      rw [hc]
    split at h
    · obtain ⟨_, _, h⟩ := map_eq_ok.mp h
      nomatch h
    split at h <;> nomatch h
  · rintro rfl
    rfl

theorem Grammar.Spells.length_pos (h : Spells text x) : 0 < text.length := by
  cases h <;> exact Nat.succ_pos _

theorem literalChars_sound {s : List Char} (h : literalChars n cs = .ok (s, rest)) :
    ∃ gs, Spelling gs s ∧ cs = gs ++ '"' :: rest := by
  induction n generalizing cs s with
  | zero => nomatch h
  | succ n ih =>
    rw [literalChars] at h
    split at h
    · nomatch h
    · next hend =>
      cases h
      exact ⟨[], .nil, literalChar_eq_none.mp hend⟩
    · next hread =>
      obtain ⟨_, hmore, h⟩ := map_eq_ok.mp h
      cases h
      obtain ⟨g, hg, rfl⟩ := literalChar_eq_some.mp hread
      obtain ⟨gs, hgs, rfl⟩ := ih hmore
      exact ⟨g ++ gs, .cons hg hgs, (List.append_assoc ..).symm⟩

theorem literalChars_spelling {gs s : List Char} (h : Spelling gs s) (rest : List Char) :
    ∀ n, gs.length < n → literalChars n (gs ++ '"' :: rest) = .ok (s, rest) := by
  induction h with
  | nil =>
    rintro (_ | n) hn
    · nomatch hn
    · rfl
  | @cons g gs xs x hg _ ih =>
    rintro (_ | n) hn
    · nomatch hn
    have := hg.length_pos
    rw [List.length_append] at hn
    rw [List.append_assoc, literalChars, literalChar_spells hg]
    simp only [ih n (by omega)]
    rfl

/-- A string is read as what it says, and nothing else is read as a string. -/
theorem literal_eq_ok {s : String} :
    literal cs = .ok (s, rest) ↔ ∃ text, Literal text s ∧ '"' :: cs = text ++ rest := by
  constructor
  · intro h
    obtain ⟨_, hread, h⟩ := map_eq_ok.mp h
    cases h
    obtain ⟨gs, hgs, rfl⟩ := literalChars_sound hread
    exact ⟨_, ⟨gs, by rwa [String.toList_ofList], rfl⟩, by simp⟩
  · rintro ⟨_, ⟨gs, hgs, rfl⟩, hcs⟩
    obtain rfl : cs = gs ++ '"' :: rest := by simpa using hcs
    rw [literal, literalChars_spelling hgs _ _ (by rw [List.length_append]; omega)]
    simp only [Except.map, String.ofList_toList]

theorem Grammar.Literal.read {s : String} (h : Literal text s) (rest : List Char) :
    ∃ cs, text ++ rest = '"' :: cs ∧ literal cs = .ok (s, rest) := by
  have hread := h
  obtain ⟨gs, -, rfl⟩ := h
  exact ⟨gs ++ ['"'] ++ rest, rfl, literal_eq_ok.mpr ⟨_, hread, rfl⟩⟩

theorem Grammar.Literal.length_pos {s : String} (h : Literal text s) : 0 < text.length := by
  obtain ⟨gs, -, rfl⟩ := h
  exact Nat.succ_pos _

def literalTurn (go : Unit → List Char → Parsed (List Char)) (_ : Unit) (cs : List Char) :
    Parsed (List Char) :=
  (literalChar cs).bind fun
    | (none, rest) => .ok ([], rest)
    | (some c, rest) => (go () rest).map fun (s, rest) => (c :: s, rest)

theorem literalChars_terminates :
    Terminates (fun n (_ : Unit) => literalChars n) literalTurn where
  succ n _ cs := by
    rw [literalChars, literalTurn]
    rcases literalChar cs with _ | ⟨_ | _, _⟩ <;> rfl
  shorter go go' s cs h := by
    rw [literalTurn, literalTurn]
    cases hread : literalChar cs with
    | error => rfl
    | ok p =>
    obtain ⟨_ | c, rest⟩ := p
    · rfl
    obtain ⟨g, hg, rfl⟩ := literalChar_eq_some.mp hread
    have hlt := hg.length_pos
    simp only [Except.bind]
    rw [h () rest (by rw [List.length_append]; omega)]

/-! ## Skipped strings -/

theorem skipLiteralChar_eq_true : skipLiteralChar cs = .ok (true, rest) ↔ cs = '"' :: rest := by
  constructor
  · intro h
    cases cs with
    | nil => nomatch h
    | cons c cs =>
    simp only [skipLiteralChar] at h
    split at h
    · next hc =>
      cases h
      rw [hc]
    split at h
    · split at h
      · nomatch h
      split at h
      · nomatch h
      split at h
      · obtain ⟨_, _, h⟩ := map_eq_ok.mp h
        nomatch h
      · nomatch h
    split at h <;> nomatch h
  · rintro rfl
    rfl

theorem skipLiteralChar_sound (h : skipLiteralChar cs = .ok (false, rest)) :
    ∃ g, Glyph g ∧ cs = g ++ rest := by
  cases cs with
  | nil => nomatch h
  | cons c cs =>
  simp only [skipLiteralChar] at h
  split at h
  · nomatch h
  next hquote =>
  split at h
  · next hslash =>
    subst hslash
    split at h
    · nomatch h
    next d more =>
    split at h
    · next hd =>
      cases h
      obtain ⟨x, hx⟩ := Option.isSome_iff_exists.mp hd
      exact ⟨['\\', d], .short (shortEscape?_eq_some.mp hx), rfl⟩
    split at h
    · next hu =>
      subst hu
      obtain ⟨_, hread, h⟩ := map_eq_ok.mp h
      cases h
      obtain ⟨u, hu, rfl⟩ := hexUnit_eq_ok.mp hread
      exact ⟨'\\' :: 'u' :: u, .unit hu, rfl⟩
    · nomatch h
  next hslash =>
  split at h
  · nomatch h
  next hc =>
  cases h
  exact ⟨[c], .plain (Nat.le_of_not_lt hc) hquote hslash, rfl⟩

theorem skipLiteralChar_glyph {g : List Char} (hg : Glyph g) (rest : List Char) :
    skipLiteralChar (g ++ rest) = .ok (false, rest) := by
  have hescape (cs : List Char) : skipLiteralChar ('\\' :: 'u' :: cs) =
      (hexUnit cs).map fun p => (false, p.2) := rfl
  cases hg with
  | plain h hquote hslash =>
    simp only [List.cons_append, List.nil_append, skipLiteralChar, if_neg hquote, if_neg hslash,
      if_neg (Nat.not_lt.mpr h)]
  | short h =>
    have hread := Option.isSome_iff_exists.mpr ⟨_, shortEscape?_eq_some.mpr h⟩
    simp only [List.cons_append, List.nil_append, skipLiteralChar, if_pos hread]
    rfl
  | unit hu =>
    rw [List.cons_append, List.cons_append, hescape, hexUnit_append hu]
    rfl

/-- The next character of a string is passed exactly as it may be written. -/
theorem skipLiteralChar_eq_false :
    skipLiteralChar cs = .ok (false, rest) ↔ ∃ g, Glyph g ∧ cs = g ++ rest :=
  ⟨skipLiteralChar_sound, fun ⟨_, hg, hcs⟩ => hcs ▸ skipLiteralChar_glyph hg rest⟩

theorem Grammar.Glyph.length_pos (h : Glyph text) : 0 < text.length := by
  cases h <;> exact Nat.succ_pos _

theorem skipLiteralFrom_sound (h : skipLiteralFrom n cs = .ok rest) :
    ∃ gs, Glyphs gs ∧ cs = gs ++ '"' :: rest := by
  induction n generalizing cs with
  | zero => nomatch h
  | succ n ih =>
    rw [skipLiteralFrom] at h
    split at h
    · nomatch h
    · next hend =>
      cases h
      exact ⟨[], .nil, skipLiteralChar_eq_true.mp hend⟩
    · next hread =>
      obtain ⟨g, hg, rfl⟩ := skipLiteralChar_eq_false.mp hread
      obtain ⟨gs, hgs, rfl⟩ := ih h
      exact ⟨g ++ gs, .cons hg hgs, (List.append_assoc ..).symm⟩

theorem skipLiteralFrom_glyphs {gs : List Char} (h : Glyphs gs) (rest : List Char) :
    ∀ n, gs.length < n → skipLiteralFrom n (gs ++ '"' :: rest) = .ok rest := by
  induction h with
  | nil =>
    rintro (_ | n) hn
    · nomatch hn
    · rfl
  | @cons g gs hg _ ih =>
    rintro (_ | n) hn
    · nomatch hn
    have := hg.length_pos
    rw [List.length_append] at hn
    rw [List.append_assoc, skipLiteralFrom, skipLiteralChar_glyph hg]
    exact ih n (by omega)

/-- A string is passed exactly where one is written. -/
theorem skipLiteral_eq_ok :
    skipLiteral cs = .ok rest ↔ ∃ text, Quoted text ∧ '"' :: cs = text ++ rest := by
  constructor
  · intro h
    obtain ⟨gs, hgs, rfl⟩ := skipLiteralFrom_sound h
    exact ⟨_, ⟨gs, hgs, rfl⟩, by simp⟩
  · rintro ⟨_, ⟨gs, hgs, rfl⟩, hcs⟩
    obtain rfl : cs = gs ++ '"' :: rest := by simpa using hcs
    exact skipLiteralFrom_glyphs hgs _ _ (by rw [List.length_append]; omega)

theorem Grammar.Quoted.pass (h : Quoted text) (rest : List Char) :
    ∃ cs, text ++ rest = '"' :: cs ∧ skipLiteral cs = .ok rest := by
  have hread := h
  obtain ⟨gs, -, rfl⟩ := h
  exact ⟨gs ++ ['"'] ++ rest, rfl, skipLiteral_eq_ok.mpr ⟨_, hread, rfl⟩⟩

def skipLiteralTurn (go : Unit → List Char → Except Fault (List Char)) (_ : Unit)
    (cs : List Char) : Except Fault (List Char) :=
  (skipLiteralChar cs).bind fun
    | (true, rest) => .ok rest
    | (false, rest) => go () rest

theorem skipLiteralFrom_terminates :
    Terminates (fun n (_ : Unit) => skipLiteralFrom n) skipLiteralTurn where
  succ n _ cs := by
    rw [skipLiteralFrom, skipLiteralTurn]
    rcases skipLiteralChar cs with _ | ⟨_ | _, _⟩ <;> rfl
  shorter go go' s cs h := by
    rw [skipLiteralTurn, skipLiteralTurn]
    cases hread : skipLiteralChar cs with
    | error => rfl
    | ok p =>
    obtain ⟨_ | _, rest⟩ := p
    · obtain ⟨g, hg, rfl⟩ := skipLiteralChar_eq_false.mp hread
      have hlt := hg.length_pos
      exact h () rest (by rw [List.length_append]; omega)
    · rfl

end InitLock.Json
