import InitLock.Proofs.Json.Strings

/-!
# Atoms are passed by the grammar

Words, numbers, and the atoms of which a turn of the skipping loop passes one. A
number has no end of its own: it is passed up to the last character that can
belong to it, so the text behind a whole number must be one that ends a value
(`Closed`, `skipNumber_append`).
-/

namespace InitLock.Json

open Grammar

variable {c : Char} {b : Bracket} {opened : Option Bracket} {cs ds ws rest : List Char}

/-! ## Words -/

theorem word_eq_ok : word ws cs = .ok rest ↔ cs = ws ++ rest := by
  induction ws generalizing cs with
  | nil => simp [word]
  | cons w ws ih =>
    cases cs with
    | nil => simp [word]
    | cons c cs =>
      rw [word]
      split
      · next hc => rw [ih, hc, List.cons_append, List.cons.injEq, and_iff_right rfl]
      · next hc => simp [hc]

/-! ## Numbers -/

/-- A character that ends a value and is not part of it. -/
def Ends (c : Char) : Prop := isBlank c = true ∨ c = ',' ∨ c = ']' ∨ c = '}'

instance : DecidablePred Ends := fun c =>
  inferInstanceAs (Decidable (isBlank c = true ∨ c = ',' ∨ c = ']' ∨ c = '}'))

/-- The text is at its end or goes on with what ends a value. -/
def Closed (cs : List Char) : Prop := ∀ c ∈ cs.head?, Ends c

theorem Ends.not_digit (h : Ends c) : ¬ Digit c ∧ c ≠ '.' ∧ c ≠ 'e' ∧ c ≠ 'E' := by
  rw [Ends, isBlank_iff] at h
  rcases h with (rfl | rfl | rfl | rfl) | rfl | rfl | rfl <;> decide

theorem Closed.cons (h : Closed (c :: cs)) : ¬ Digit c ∧ c ≠ '.' ∧ c ≠ 'e' ∧ c ≠ 'E' :=
  Ends.not_digit (h c rfl)

theorem startsWithDigit_iff :
    startsWithDigit cs = true ↔ ∃ c rest, cs = c :: rest ∧ Digit c := by
  cases cs with
  | nil => simp [startsWithDigit]
  | cons c cs => simp [startsWithDigit, digit?_isSome]

theorem skipDigits_append (hds : ∀ d ∈ ds, Digit d) (hrest : startsWithDigit rest = false) :
    skipDigits (ds ++ rest) = rest := by
  rw [skipDigits, List.dropWhile_append_of_pos fun d hd => digit?_isSome.mpr (hds d hd)]
  cases rest with
  | nil => rfl
  | cons c rest => exact List.dropWhile_cons_of_neg (by rw [startsWithDigit] at hrest; simp [hrest])

theorem exists_digits (cs : List Char) :
    ∃ ds, (∀ d ∈ ds, Digit d) ∧ cs = ds ++ skipDigits cs :=
  ⟨cs.takeWhile fun c => (digit? c).isSome,
    fun _ hd => digit?_isSome.mp (List.mem_takeWhile_imp (p := fun c => (digit? c).isSome) hd),
    List.takeWhile_append_dropWhile.symm⟩

theorem exists_digits_of_startsWithDigit (h : startsWithDigit cs = true) :
    ∃ ds, Digits ds ∧ cs = ds ++ skipDigits cs := by
  obtain ⟨c, cs, rfl, hc⟩ := startsWithDigit_iff.mp h
  obtain ⟨ds, hds, hcs⟩ := exists_digits cs
  have hskip : skipDigits (c :: cs) = skipDigits cs :=
    List.dropWhile_cons_of_pos (digit?_isSome.mpr hc)
  refine ⟨c :: ds, ⟨List.cons_ne_nil _ _, List.forall_mem_cons.mpr ⟨hc, hds⟩⟩, ?_⟩
  rw [hskip, List.cons_append, ← hcs]

theorem Grammar.Digits.startsWithDigit (h : Digits ds) (cs : List Char) :
    startsWithDigit (ds ++ cs) = true := by
  obtain ⟨hne, hds⟩ := h
  cases ds with
  | nil => exact absurd rfl hne
  | cons d ds => exact startsWithDigit_iff.mpr ⟨d, ds ++ cs, rfl, hds d List.mem_cons_self⟩

theorem Closed.startsWithDigit (h : Closed cs) : startsWithDigit cs = false := by
  rw [← Bool.not_eq_true, startsWithDigit_iff]
  rintro ⟨c, rest, rfl, hc⟩
  exact h.cons.1 hc

theorem exists_sign (cs : List Char) :
    ∃ sign ∈ [[], ['+'], ['-']], cs = sign ++ (exponentSign cs).2 := by
  unfold exponentSign
  split
  · exact ⟨['+'], by simp, rfl⟩
  · exact ⟨['-'], by simp, rfl⟩
  · exact ⟨[], by simp, rfl⟩

theorem exponentSign_append {sign : List Char} (hsign : sign ∈ [[], ['+'], ['-']])
    (hcs : startsWithDigit cs = true) : (exponentSign (sign ++ cs)).2 = cs := by
  obtain ⟨c, cs, rfl, hc⟩ := startsWithDigit_iff.mp hcs
  simp only [List.mem_cons, List.not_mem_nil, or_false] at hsign
  rcases hsign with rfl | rfl | rfl
  · rw [List.nil_append]
    unfold exponentSign
    split
    · next h => exact absurd ((List.cons.inj h).1 ▸ hc) (by decide)
    · next h => exact absurd ((List.cons.inj h).1 ▸ hc) (by decide)
    · rfl
  · rfl
  · rfl

theorem skipExponent_sound (h : skipExponent cs = .ok rest) :
    ∃ sign ∈ [[], ['+'], ['-']], ∃ ds, Digits ds ∧ cs = sign ++ (ds ++ rest) := by
  obtain ⟨sign, hsign, hcs⟩ := exists_sign cs
  simp only [skipExponent] at h
  split at h
  · next hdigit =>
    cases h
    obtain ⟨ds, hds, hmore⟩ := exists_digits_of_startsWithDigit hdigit
    exact ⟨sign, hsign, ds, hds, by rw [← hmore, ← hcs]⟩
  · nomatch h

theorem skipExponent_append {sign : List Char} (hsign : sign ∈ [[], ['+'], ['-']])
    (hds : Digits ds) (hr : startsWithDigit rest = false) :
    skipExponent (sign ++ (ds ++ rest)) = .ok rest := by
  have hdigit := hds.startsWithDigit rest
  simp only [skipExponent, exponentSign_append hsign hdigit, if_pos hdigit,
    skipDigits_append hds.2 hr]

theorem skipExponent?_sound (h : skipExponent? cs = .ok rest) :
    ∃ e, Exponent e ∧ cs = e ++ rest := by
  unfold skipExponent? at h
  split at h
  · obtain ⟨sign, hsign, ds, hds, rfl⟩ := skipExponent_sound h
    exact ⟨_, .some (.inl rfl) hsign hds, by simp⟩
  · obtain ⟨sign, hsign, ds, hds, rfl⟩ := skipExponent_sound h
    exact ⟨_, .some (.inr rfl) hsign hds, by simp⟩
  · cases h
    exact ⟨[], .none, rfl⟩

theorem skipExponent?_append {e : List Char} (he : Exponent e) (hr : Closed rest) :
    skipExponent? (e ++ rest) = .ok rest := by
  cases he with
  | none =>
    rw [List.nil_append]
    unfold skipExponent?
    split
    · exact absurd rfl hr.cons.2.2.1
    · exact absurd rfl hr.cons.2.2.2
    · rfl
  | some he hsign hds =>
    have hskip := skipExponent_append hsign hds hr.startsWithDigit
    rw [List.cons_append, List.append_assoc]
    rcases he with rfl | rfl <;> exact hskip

/-- Passes what may follow the first digits of a number: a fraction and an exponent. -/
def skipFraction? (cs : List Char) : Except Fault (List Char) :=
  match cs with
  | '.' :: rest =>
    if startsWithDigit rest then skipExponent? (skipDigits rest)
    else .error (.next .invalidNumber rest)
  | rest => skipExponent? rest

theorem skipFraction?_sound (h : skipFraction? cs = .ok rest) :
    ∃ f e, Fraction f ∧ Exponent e ∧ cs = f ++ (e ++ rest) := by
  unfold skipFraction? at h
  split at h
  · split at h
    · next hdigit =>
      obtain ⟨ds, hds, hcs⟩ := exists_digits_of_startsWithDigit hdigit
      obtain ⟨e, he, hrest⟩ := skipExponent?_sound h
      exact ⟨_, e, .some hds, he, by rw [List.cons_append, ← hrest, ← hcs]⟩
    · nomatch h
  · obtain ⟨e, he, rfl⟩ := skipExponent?_sound h
    exact ⟨[], e, .none, he, rfl⟩

theorem startsWithDigit_exponent {e : List Char} (he : Exponent e) (hr : Closed rest) :
    startsWithDigit (e ++ rest) = false := by
  cases he with
  | none => exact hr.startsWithDigit
  | some he => rcases he with rfl | rfl <;> rfl

theorem startsWithDigit_fraction {f e : List Char} (hf : Fraction f) (he : Exponent e)
    (hr : Closed rest) : startsWithDigit (f ++ (e ++ rest)) = false := by
  cases hf with
  | none => simpa using startsWithDigit_exponent he hr
  | some _ => rfl

theorem skipFraction?_append {f e : List Char} (hf : Fraction f) (he : Exponent e)
    (hr : Closed rest) : skipFraction? (f ++ (e ++ rest)) = .ok rest := by
  cases hf with
  | none =>
    rw [List.nil_append]
    unfold skipFraction?
    split
    · next h =>
      cases he with
      | none =>
        rw [List.nil_append] at h
        exact absurd rfl (h ▸ hr).cons.2.1
      | some he => rcases he with rfl | rfl <;> nomatch h
    · exact skipExponent?_append he hr
  | some hds =>
    have hskip := skipDigits_append hds.2 (startsWithDigit_exponent he hr)
    simp only [skipFraction?, List.cons_append, if_pos (hds.startsWithDigit _), hskip]
    exact skipExponent?_append he hr

/-- A number begins with a digit, and after a zero its digits are over. -/
theorem skipNumber_eq_ok : skipNumber (c :: cs) = .ok rest ↔
    Digit c ∧ (c = '0' → startsWithDigit cs = false) ∧
      skipFraction? (skipDigits cs) = .ok rest := by
  by_cases hc : Digit c
  · have hsome : (digit? c).isNone = false :=
      Option.isNone_eq_false_iff.mpr (digit?_isSome.mpr hc)
    have hskip : skipDigits (c :: cs) = skipDigits cs :=
      List.dropWhile_cons_of_pos (digit?_isSome.mpr hc)
    rw [skipNumber, hsome, hskip]
    by_cases hzero : c = '0' ∧ startsWithDigit cs = true
    · simp [hzero]
    · have hafter : c = '0' → startsWithDigit cs = false := by simpa using hzero
      simp only [if_neg hzero, Bool.false_eq_true, ↓reduceIte, and_iff_right hc,
        and_iff_right hafter]
      rfl
  · have hnone : (digit? c).isNone = true := by
      rw [← Option.not_isSome, Bool.not_eq_true', ← Bool.not_eq_true, digit?_isSome]
      exact hc
    simp [skipNumber, hc, hnone]

theorem skipNumber_sound (h : skipNumber cs = .ok rest) : ∃ u, Unsigned u ∧ cs = u ++ rest := by
  cases cs with
  | nil => nomatch h
  | cons c cs =>
  obtain ⟨hc, hzero, h⟩ := skipNumber_eq_ok.mp h
  obtain ⟨ds, hds, hcs⟩ := exists_digits cs
  have hwhole : Whole (c :: ds) := by
    by_cases hc0 : c = '0'
    · cases ds with
      | nil => exact hc0 ▸ .zero
      | cons d ds =>
        have hdigit : startsWithDigit cs = true :=
          startsWithDigit_iff.mpr ⟨d, _, hcs, hds d List.mem_cons_self⟩
        rw [hzero hc0] at hdigit
        nomatch hdigit
    · exact .nonzero hc hc0 hds
  obtain ⟨f, e, hf, he, hskip⟩ := skipFraction?_sound h
  refine ⟨_, .parts hwhole hf he, ?_⟩
  rw [List.append_assoc, List.append_assoc, ← hskip, List.cons_append, ← hcs]

/-- A whole number is passed, up to a text that no number goes on with. -/
theorem skipNumber_append {u : List Char} (hu : Unsigned u) (hr : Closed rest) :
    skipNumber (u ++ rest) = .ok rest := by
  obtain ⟨hw, hf, he⟩ := hu
  have hafter := startsWithDigit_fraction hf he hr
  have hskip := skipFraction?_append hf he hr
  rw [List.append_assoc, List.append_assoc]
  cases hw with
  | zero =>
    refine skipNumber_eq_ok.mpr ⟨by decide, fun _ => hafter, ?_⟩
    rwa [← skipDigits_append (List.forall_mem_nil _) hafter] at hskip
  | nonzero hd h hds =>
    refine skipNumber_eq_ok.mpr ⟨hd, fun h0 => absurd h0 h, ?_⟩
    rwa [List.append_eq, skipDigits_append hds hafter]

/-! ## Atoms and brackets -/

theorem Grammar.Unsigned.cons {u : List Char} (h : Unsigned u) :
    ∃ c more, u = c :: more ∧ Digit c := by
  obtain ⟨hw, -, -⟩ := h
  cases hw with
  | zero => exact ⟨_, _, rfl, by decide⟩
  | nonzero hd => exact ⟨_, _, rfl, hd⟩

theorem Grammar.Atom.cons {a : List Char} (h : Atom a) :
    ∃ c more, a = c :: more ∧ ¬ Ends c := by
  have hends {d : Char} (hd : Digit d) : ¬ Ends d := fun h => h.not_digit.1 hd
  cases h with
  | null => exact ⟨_, _, rfl, by decide⟩
  | true => exact ⟨_, _, rfl, by decide⟩
  | false => exact ⟨_, _, rfl, by decide⟩
  | string h =>
    obtain ⟨gs, -, rfl⟩ := h
    exact ⟨_, _, rfl, by decide⟩
  | number h =>
    obtain ⟨c, more, rfl, hc⟩ := h.cons
    exact ⟨c, more, rfl, hends hc⟩
  | negative => exact ⟨_, _, rfl, by decide⟩

theorem map_none_eq_ok {e : Except Fault (List Char)} :
    e.map (fun rest => ((none : Option Bracket), rest)) = .ok (opened, rest) ↔
      opened = none ∧ e = .ok rest := by
  cases e <;> simp [Except.map, eq_comm]

/-- A turn begins with an opening bracket or with an atom. -/
theorem skipAtom_sound (h : skipAtom cs = .ok (opened, rest)) :
    (∃ b, opened = some b ∧ cs = opener b :: rest) ∨
      (opened = none ∧ ∃ a, Atom a ∧ cs = a ++ rest) := by
  cases cs with
  | nil => nomatch h
  | cons c cs =>
  simp only [skipAtom] at h
  split at h
  · next hc =>
    cases h
    exact .inl ⟨.list, rfl, by rw [hc]; rfl⟩
  split at h
  · next hc =>
    cases h
    exact .inl ⟨.object, rfl, by rw [hc]; rfl⟩
  right
  split at h
  · next hc =>
    obtain ⟨hopened, hread⟩ := map_none_eq_ok.mp h
    exact ⟨hopened, _, .null, by rw [hc, word_eq_ok.mp hread]; rfl⟩
  split at h
  · next hc =>
    obtain ⟨hopened, hread⟩ := map_none_eq_ok.mp h
    exact ⟨hopened, _, .true, by rw [hc, word_eq_ok.mp hread]; rfl⟩
  split at h
  · next hc =>
    obtain ⟨hopened, hread⟩ := map_none_eq_ok.mp h
    exact ⟨hopened, _, .false, by rw [hc, word_eq_ok.mp hread]; rfl⟩
  split at h
  · next hc =>
    obtain ⟨hopened, hread⟩ := map_none_eq_ok.mp h
    obtain ⟨text, htext, hcs⟩ := skipLiteral_eq_ok.mp hread
    exact ⟨hopened, text, .string htext, by rw [hc, hcs]⟩
  split at h
  · next hc =>
    obtain ⟨hopened, hread⟩ := map_none_eq_ok.mp h
    obtain ⟨u, hu, hcs⟩ := skipNumber_sound hread
    exact ⟨hopened, '-' :: u, .negative hu, by rw [hc, hcs]; rfl⟩
  split at h
  · obtain ⟨hopened, hread⟩ := map_none_eq_ok.mp h
    obtain ⟨u, hu, hcs⟩ := skipNumber_sound hread
    exact ⟨hopened, u, .number hu, hcs⟩
  · nomatch h

theorem skipAtom_opener (b : Bracket) (rest : List Char) :
    skipAtom (opener b :: rest) = .ok (some b, rest) := by
  cases b <;> rfl

theorem skipAtom_length (h : skipAtom cs = .ok (opened, rest)) : rest.length < cs.length := by
  rcases skipAtom_sound h with ⟨b, -, rfl⟩ | ⟨-, a, ha, rfl⟩
  · exact Nat.lt_succ_self _
  · obtain ⟨c, more, rfl, -⟩ := ha.cons
    simp only [List.length_append, List.length_cons]
    omega

theorem skipAtom_digit {c : Char} (hc : Digit c) (cs : List Char) :
    skipAtom (c :: cs) = (skipNumber (c :: cs)).map fun rest => (none, rest) := by
  have hne (d : Char) (hd : ¬ Digit d) : c ≠ d := fun h => hd (h ▸ hc)
  simp only [skipAtom, digit?_isSome.mpr hc, hne '[' (by decide), hne '{' (by decide),
    hne 'n' (by decide), hne 't' (by decide), hne 'f' (by decide), hne '"' (by decide),
    hne '-' (by decide), ↓reduceIte]

theorem skipAtom_append {a : List Char} (ha : Atom a) (hr : Closed rest) :
    skipAtom (a ++ rest) = .ok (none, rest) := by
  cases ha with
  | null => rfl
  | true => rfl
  | false => rfl
  | string h =>
    obtain ⟨cs, hcs, hskip⟩ := h.pass rest
    rw [hcs]
    exact map_none_eq_ok.mpr ⟨rfl, hskip⟩
  | number h =>
    have hskip := skipNumber_append h hr
    obtain ⟨c, more, rfl, hc⟩ := h.cons
    rw [List.cons_append, skipAtom_digit hc]
    exact map_none_eq_ok.mpr ⟨rfl, hskip⟩
  | negative h => exact map_none_eq_ok.mpr ⟨rfl, skipNumber_append h hr⟩

end InitLock.Json
