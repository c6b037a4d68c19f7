import InitLock.Proofs.Json.Atoms

/-!
# Skipped values are those of the grammar

A value is passed if one is written there, whatever it holds and however deep
(`skipValue_append`), and only then (`skipValue_sound`). A turn passes an atom or
an opening bracket and goes on in the containers then open; what they still
demand of the text is one `Tails`. Every turn shortens the text, so the bound on
turns plays no part (`skipFrom_terminates`).
-/

namespace InitLock.Json

open Grammar

variable {n : Nat} {b : Bracket} {opened : Option Bracket} {stack stack' : List Bracket}
  {cs ws v e t rest : List Char} {after : Bool}

/-! ## Turns -/

/-- Goes on with the next entry of a container that is open: past its key, if it has one. -/
def enter (go : List Bracket → List Char → Except Fault (List Char)) (b : Bracket)
    (stack : List Bracket) (cs : List Char) : Except Fault (List Char) :=
  match b with
  | .list => go (.list :: stack) cs
  | .object => (skipKey cs).bind (go (.object :: stack))

/-- Leaves the containers that close, and goes on in the one that stays open. -/
def resume (go : List Bracket → List Char → Except Fault (List Char)) (after : Bool)
    (stack : List Bracket) (cs : List Char) : Except Fault (List Char) :=
  (leave after stack cs).bind fun
    | ([], rest) => .ok rest
    | (b :: stack, rest) => enter go b stack rest

/-- One turn: an atom or an opening bracket, and on in the containers then open. -/
def skipTurn (go : List Bracket → List Char → Except Fault (List Char)) (stack : List Bracket)
    (cs : List Char) : Except Fault (List Char) :=
  (skipAtom (skipBlanks cs)).bind fun (opened, rest) =>
    resume go opened.isNone (opened.toList ++ stack) rest

variable {go go' : List Bracket → List Char → Except Fault (List Char)}

theorem skipFrom_succ : skipFrom (n + 1) stack cs = skipTurn (skipFrom n) stack cs := by
  rw [skipFrom, skipTurn]
  cases skipAtom (skipBlanks cs) with
  | error => rfl
  | ok p =>
  simp only [Except.bind, resume]
  cases leave p.1.isNone (p.1.toList ++ stack) p.2 with
  | error => rfl
  | ok q =>
  obtain ⟨_ | ⟨_ | _, stack⟩, rest⟩ := q
  · rfl
  · rfl
  · simp only [enter]
    cases skipKey rest <;> rfl

@[simp] theorem resume_nil : resume go after [] cs = .ok cs := by
  cases after <;> rfl

theorem resume_comma (hw : Blank ws) :
    resume go true (b :: stack) (ws ++ ',' :: cs) = enter go b stack cs := by
  rw [resume, leave, skipBlanks_append hw]
  rfl

theorem resume_closer (hw : Blank ws) :
    resume go after (b :: stack) (ws ++ b.closer :: cs) = resume go true stack cs := by
  rw [resume, leave, skipBlanks_append hw]
  cases b <;> cases after <;> rfl

theorem resume_first {c : Char} (hw : Blank ws) (hblank : isBlank c = false)
    (hc : c ≠ b.closer) :
    resume go false (b :: stack) (ws ++ c :: cs) = enter go b stack (c :: cs) := by
  rw [resume, leave, skipBlanks_append hw, skipBlanks_cons hblank]
  simp [hc, Except.bind]

/-- What follows inside a container: a comma, its end, or its first entry. -/
theorem resume_cons (h : resume go after (b :: stack) cs = .ok rest) :
    ∃ ws more, Blank ws ∧
      ((after = true ∧ cs = ws ++ ',' :: more ∧ enter go b stack more = .ok rest) ∨
        (cs = ws ++ b.closer :: more ∧ resume go true stack more = .ok rest) ∨
        (after = false ∧ cs = ws ++ more ∧ enter go b stack more = .ok rest)) := by
  rw [resume, leave] at h
  obtain ⟨ws, hw, hcs⟩ := exists_blank cs
  split at h
  · nomatch h
  next c more hblanks =>
  rw [hblanks] at hcs
  split at h
  · next hc =>
    obtain ⟨rfl, rfl⟩ := hc
    exact ⟨ws, more, hw, .inl ⟨rfl, hcs, h⟩⟩
  split at h
  · next hc =>
    subst hc
    exact ⟨ws, more, hw, .inr (.inl ⟨hcs, h⟩)⟩
  split at h
  · nomatch h
  · next hafter => exact ⟨ws, c :: more, hw, .inr (.inr ⟨by simpa using hafter, hcs, h⟩)⟩

/-! ## Keys -/

/-- A colon is passed exactly where one stands. -/
theorem colon_eq_ok : colon cs = .ok rest ↔ ∃ ws, Blank ws ∧ cs = ws ++ ':' :: rest := by
  constructor
  · intro h
    obtain ⟨ws, hw, hcs⟩ := exists_blank cs
    rw [colon] at h
    split at h
    · nomatch h
    next hblanks =>
    split at h
    · next hc =>
      cases h
      exact ⟨ws, hw, by rwa [hblanks, hc] at hcs⟩
    · nomatch h
  · rintro ⟨ws, hw, rfl⟩
    rw [colon, skipBlanks_append hw]
    rfl

theorem skipKey_eq_ok : skipKey cs = .ok rest ↔ ∃ ws k ws', Blank ws ∧ Quoted k ∧ Blank ws' ∧
    cs = ws ++ (k ++ (ws' ++ ':' :: rest)) := by
  constructor
  · intro h
    obtain ⟨ws, hw, hcs⟩ := exists_blank cs
    rw [skipKey] at h
    split at h
    · nomatch h
    next hblanks =>
    split at h
    · next hc =>
      obtain ⟨more, hread, h⟩ := bind_eq_ok.mp h
      obtain ⟨k, hk, hkey⟩ := skipLiteral_eq_ok.mp hread
      obtain ⟨ws', hw', rfl⟩ := colon_eq_ok.mp h
      exact ⟨ws, k, ws', hw, hk, hw', by rwa [hblanks, hc, hkey] at hcs⟩
    · nomatch h
  · rintro ⟨ws, k, ws', hw, hk, hw', rfl⟩
    obtain ⟨cs, hcs, hread⟩ := hk.pass (ws' ++ ':' :: rest)
    rw [skipKey, skipBlanks_append hw, hcs]
    exact bind_eq_ok.mpr ⟨_, hread, colon_eq_ok.mpr ⟨ws', hw', rfl⟩⟩

/-! ## What is passed is written -/

/-- What the open containers still demand of the text, the innermost first. -/
inductive Tails : List Bracket → List Char → Prop
  | nil : Tails [] []
  | cons {b : Bracket} {stack : List Bracket} {t ts : List Char} (ht : Written (.tail b) t)
    (h : Tails stack ts) : Tails (b :: stack) (t ++ ts)

theorem Grammar.Written.blank_entry (hw : Blank ws) (he : Written (.entry b) e) :
    Written (.entry b) (ws ++ e) := by
  have hblank {ws' : List Char} (hw' : Blank ws') : Blank (ws ++ ws') :=
    List.forall_mem_append.mpr ⟨hw, hw'⟩
  cases he with
  | item hw' hv => exact List.append_assoc .. ▸ .item (hblank hw') hv
  | member hw' hk h h' hv => exact List.append_assoc .. ▸ .member (hblank hw') hk h h' hv

/-- A run that enters a container passes an entry, the rest of the container, and then what the
containers around it demand. -/
def Enters (go : List Bracket → List Char → Except Fault (List Char)) : Prop :=
  ∀ b stack cs rest, enter go b stack cs = .ok rest →
    ∃ e t ts, Written (.entry b) e ∧ Written (.tail b) t ∧ Tails stack ts ∧
      cs = e ++ (t ++ (ts ++ rest))

theorem Enters.resume (hgo : Enters go) (h : resume go true stack cs = .ok rest) :
    ∃ ts, Tails stack ts ∧ cs = ts ++ rest := by
  induction stack generalizing cs with
  | nil =>
    rw [resume_nil] at h
    cases h
    exact ⟨[], .nil, rfl⟩
  | cons b stack ih =>
    obtain ⟨ws, more, hw, ⟨-, rfl, henter⟩ | ⟨rfl, hrest⟩ | ⟨hafter, -⟩⟩ := resume_cons h
    · obtain ⟨e, t, ts, he, ht, hts, rfl⟩ := hgo _ _ _ _ henter
      exact ⟨_, .cons (.more hw he ht) hts, by simp⟩
    · obtain ⟨ts, hts, rfl⟩ := ih hrest
      exact ⟨_, .cons (.close hw) hts, by simp⟩
    · nomatch hafter

/-- A run passes a value, and then what the open containers demand. -/
theorem skipFrom_sound (h : skipFrom n stack cs = .ok rest) :
    ∃ ws v ts, Blank ws ∧ Written .value v ∧ Tails stack ts ∧ cs = ws ++ (v ++ (ts ++ rest)) := by
  induction n generalizing stack cs rest with
  | zero => nomatch h
  | succ n ih =>
    have hgo : Enters (skipFrom n) := by
      intro b stack cs rest h
      cases b with
      | list =>
        obtain ⟨ws, v, _, hw, hv, hts, rfl⟩ := ih h
        cases hts with
        | cons ht hts => exact ⟨_, _, _, .item hw hv, ht, hts, by simp⟩
      | object =>
        obtain ⟨more, hkey, hskip⟩ := bind_eq_ok.mp h
        obtain ⟨ws, k, ws', hw, hk, hw', rfl⟩ := skipKey_eq_ok.mp hkey
        obtain ⟨ws'', v, _, hw'', hv, hts, rfl⟩ := ih hskip
        cases hts with
        | cons ht hts => exact ⟨_, _, _, .member hw hk hw' hw'' hv, ht, hts, by simp⟩
    rw [skipFrom_succ, skipTurn] at h
    obtain ⟨⟨opened, more⟩, hatom, hmore⟩ := bind_eq_ok.mp h
    obtain ⟨ws, hw, hcs⟩ := exists_blank cs
    rcases skipAtom_sound hatom with ⟨b, rfl, hopen⟩ | ⟨rfl, a, ha, hatom⟩
    · rw [hopen] at hcs
      obtain ⟨ws', more', hw', ⟨hafter, -⟩ | ⟨rfl, hrest⟩ | ⟨-, rfl, henter⟩⟩ := resume_cons hmore
      · nomatch hafter
      · obtain ⟨ts, hts, rfl⟩ := hgo.resume hrest
        exact ⟨ws, _, ts, hw, .empty b hw', hts, by rw [hcs]; simp⟩
      · obtain ⟨e, t, ts, he, ht, hts, rfl⟩ := hgo _ _ _ _ henter
        exact ⟨ws, _, ts, hw, .container (he.blank_entry hw') ht, hts, by rw [hcs]; simp⟩
    · rw [hatom] at hcs
      obtain ⟨ts, hts, rfl⟩ := hgo.resume hmore
      exact ⟨ws, a, ts, hw, .atom ha, hts, hcs⟩

/-- What is passed as a value is one, blanks before it apart. -/
theorem skipValue_sound (h : skipValue cs = .ok rest) :
    ∃ ws v, Blank ws ∧ Written .value v ∧ cs = ws ++ (v ++ rest) := by
  obtain ⟨ws, v, _, hw, hv, ⟨⟩, rfl⟩ := skipFrom_sound h
  exact ⟨ws, v, hw, hv, rfl⟩

/-! ## Turns do not run out -/

theorem length_skipBlanks (cs : List Char) : (skipBlanks cs).length ≤ cs.length :=
  (List.dropWhile_sublist _).length_le

theorem leave_length (h : leave after stack cs = .ok (stack', rest)) :
    rest.length ≤ cs.length := by
  induction stack generalizing after cs with
  | nil =>
    cases after <;> cases h <;> exact le_rfl
  | cons b stack ih =>
    rw [leave] at h
    have hle := length_skipBlanks cs
    split at h
    · nomatch h
    next c more hblanks =>
    rw [hblanks, List.length_cons] at hle
    split at h
    · cases h
      omega
    split at h
    · have := ih h
      omega
    split at h
    · nomatch h
    · cases h
      exact hle

theorem skipKey_length (h : skipKey cs = .ok rest) : rest.length ≤ cs.length := by
  obtain ⟨ws, k, ws', -, -, -, rfl⟩ := skipKey_eq_ok.mp h
  simp only [List.length_append, List.length_cons]
  omega

/-- A turn goes on with a shorter text only. -/
theorem skipTurn_congr
    (hgo : ∀ stack more, more.length < cs.length → go stack more = go' stack more) :
    skipTurn go stack cs = skipTurn go' stack cs := by
  rw [skipTurn, skipTurn]
  cases hatom : skipAtom (skipBlanks cs) with
  | error => rfl
  | ok p =>
  have hlt := skipAtom_length hatom
  have hle := length_skipBlanks cs
  simp only [Except.bind, resume]
  cases hleave : leave p.1.isNone (p.1.toList ++ stack) p.2 with
  | error => rfl
  | ok q =>
  obtain ⟨stack', rest⟩ := q
  have hq : rest.length ≤ p.2.length := leave_length hleave
  obtain _ | ⟨_ | _, stack'⟩ := stack'
  · rfl
  · exact hgo _ _ (by omega)
  · simp only [enter]
    cases hkey : skipKey rest with
    | error => rfl
    | ok more =>
      have := skipKey_length hkey
      exact hgo _ _ (by omega)

theorem skipFrom_terminates : Terminates skipFrom skipTurn where
  succ _ _ _ := skipFrom_succ
  shorter _ _ _ _ := skipTurn_congr

/-! ## What is written is passed -/

/-- Passes one value inside the containers `stack` and all that follows it in them. -/
def skipIn (stack : List Bracket) (cs : List Char) : Except Fault (List Char) :=
  skipFrom (cs.length + 1) stack cs

theorem skipIn_eq : skipIn stack cs = skipTurn skipIn stack cs := by
  rw [skipIn, skipFrom_succ]
  exact skipTurn_congr fun _ _ hlt => skipFrom_terminates.turns hlt (Nat.lt_succ_self _)

theorem skipIn_blank (hw : Blank ws) : skipIn stack (ws ++ cs) = skipIn stack cs := by
  rw [skipIn_eq, skipIn_eq, skipTurn, skipTurn, skipBlanks_append hw]

theorem enter_blank (hw : Blank ws) :
    enter skipIn b stack (ws ++ cs) = enter skipIn b stack cs := by
  cases b with
  | list => exact skipIn_blank hw
  | object => rw [enter, enter, skipKey, skipKey, skipBlanks_append hw]

theorem skipIn_opener (b : Bracket) (cs : List Char) :
    skipIn stack (opener b :: cs) = resume skipIn false (b :: stack) cs := by
  have hblank : skipBlanks (opener b :: cs) = opener b :: cs := by cases b <;> rfl
  rw [skipIn_eq, skipTurn, hblank, skipAtom_opener]
  rfl

theorem Grammar.Written.value_cons (h : Written .value v) : ∃ c more, v = c :: more ∧ ¬ Ends c := by
  have hopener (b : Bracket) : ¬ Ends (opener b) := by cases b <;> decide
  cases h with
  | atom h => exact h.cons
  | empty b => exact ⟨_, _, rfl, hopener b⟩
  | container => exact ⟨_, _, rfl, hopener _⟩

theorem Grammar.Written.entry_cons (h : Written (.entry b) e) :
    ∃ ws c more, Blank ws ∧ e = ws ++ c :: more ∧ ¬ Ends c := by
  cases h with
  | item hw hv =>
    obtain ⟨c, more, rfl, hc⟩ := hv.value_cons
    exact ⟨_, c, more, hw, rfl, hc⟩
  | member hw hk =>
    obtain ⟨gs, -, rfl⟩ := hk
    exact ⟨_, '"', _, hw, rfl, by decide⟩

/-- The first entry of a container is entered like any other. -/
theorem resume_entry (h : Written (.entry b) e) (cs : List Char) :
    resume skipIn false (b :: stack) (e ++ cs) = enter skipIn b stack (e ++ cs) := by
  obtain ⟨ws, c, more, hw, rfl, hc⟩ := h.entry_cons
  have hblank : isBlank c = false := Bool.eq_false_iff.mpr fun h => hc (.inl h)
  have hcloser : c ≠ b.closer := by
    rintro rfl
    cases b <;> exact hc (by decide)
  rw [List.append_assoc, List.cons_append, resume_first hw hblank hcloser, enter_blank hw]

theorem closed_append {c : Char} (hw : Blank ws) (hc : Ends c) (cs : List Char) :
    Closed (ws ++ c :: cs) := by
  cases ws with
  | nil =>
    rintro c ⟨⟩
    exact hc
  | cons w ws =>
    rintro c ⟨⟩
    exact .inl (isBlank_iff.mpr (hw w List.mem_cons_self))

theorem Grammar.Written.closed_tail (h : Written (.tail b) t) (rest : List Char) :
    Closed (t ++ rest) := by
  cases h with
  | close hw =>
    rw [List.append_assoc]
    exact closed_append hw (by cases b <;> decide) _
  | more hw =>
    rw [List.append_assoc]
    exact closed_append hw (by decide) _

/-- A text of the kind is passed, and the run goes on behind it. -/
def Passes : Part → List Char → Prop
  | .value, v => ∀ stack rest, Closed rest →
    skipIn stack (v ++ rest) = resume skipIn true stack rest
  | .entry b, e => ∀ stack rest, Closed rest →
    enter skipIn b stack (e ++ rest) = resume skipIn true (b :: stack) rest
  | .tail b, t => ∀ stack rest,
    resume skipIn true (b :: stack) (t ++ rest) = resume skipIn true stack rest

/-- The kinds of text are made of one another, so all are passed by one induction. -/
theorem Grammar.Written.passes {p : Part} (h : Written p cs) : Passes p cs := by
  induction h with
  | @atom a ha =>
    intro stack rest hr
    have hblank : skipBlanks (a ++ rest) = a ++ rest := by
      obtain ⟨c, more, rfl, hc⟩ := ha.cons
      exact skipBlanks_cons (Bool.eq_false_iff.mpr fun h => hc (.inl h)) _
    rw [skipIn_eq, skipTurn, hblank, skipAtom_append ha hr]
    rfl
  | empty b hw =>
    intro stack rest hr
    rw [List.cons_append, List.append_assoc, skipIn_opener]
    exact resume_closer hw
  | container he ht ihe iht =>
    intro stack rest hr
    rw [List.cons_append, List.append_assoc, skipIn_opener, resume_entry he,
      ihe _ _ (ht.closed_tail rest), iht]
  | item hw hv ih =>
    intro stack rest hr
    rw [List.append_assoc, enter_blank hw]
    exact ih _ _ hr
  | @member ws k ws' ws'' v hw hk hw' hw'' _ ih =>
    intro stack rest hr
    have hkey : skipKey (ws ++ (k ++ (ws' ++ ':' :: (ws'' ++ (v ++ rest))))) =
        .ok (ws'' ++ (v ++ rest)) :=
      skipKey_eq_ok.mpr ⟨ws, k, ws', hw, hk, hw', rfl⟩
    simp only [List.append_assoc, List.cons_append, enter, hkey, Except.bind]
    rw [skipIn_blank hw'']
    exact ih _ _ hr
  | close hw =>
    intro stack rest
    rw [List.append_assoc]
    exact resume_closer hw
  | more hw he ht ihe iht =>
    intro stack rest
    rw [List.append_assoc, List.cons_append, List.append_assoc, resume_comma hw,
      ihe _ _ (ht.closed_tail rest), iht]

/-- A value is passed, blanks before it and all, where the text behind it ends a value. -/
theorem skipValue_append (hw : Blank ws) (hv : Written .value v) (hr : Closed rest) :
    skipValue (ws ++ (v ++ rest)) = .ok rest := by
  have hskip := hv.passes [] rest hr
  rw [resume_nil, ← skipIn_blank hw] at hskip
  exact hskip

end InitLock.Json
