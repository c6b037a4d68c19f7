import InitLock.Command.Line
import InitLock.Error

/-!
# Pieces of a command line

A piece is an option with its value, in any of the ways in which it can be
written. A level that is read to its end or to a command is made of pieces
(`Reads.pieces`), and reading pieces gives each option its value in turn
(`reads_pieces`): an option that waits for its value, or to be settled, never
gets in the way of the next piece.
-/

namespace InitLock.Command

/-! ## Names -/

def optionName : Setting ⊕ Flag → String
  | .inl .kubeconfig => "kubeconfig"
  | .inl .logFormat => "log-format"
  | .inl .holderNs => "holder-namespace"
  | .inl .cluster => "cluster"
  | .inl .ns => "namespace"
  | .inl .clusterUid => "cluster-uid"
  | .inl .machine => "machine"
  | .inr .json => "json"
  | .inr .help => "help"
  | .inr .version => "version"

def Verb.name : Verb → String
  | .status => "status"
  | .lock => "lock"
  | .unlock => "unlock"

theorem optionName_shape (o : Setting ⊕ Flag) :
    optionName o ≠ "" ∧ '=' ∉ (optionName o).toList := by
  rcases o with x | f
  · cases x <;> decide
  · cases f <;> decide

theorem name_of_long {l : Level} {name : String} {o : Setting ⊕ Flag} (h : l.long name = some o) :
    name = optionName o := by
  unfold Level.long at h
  split at h <;> cases h <;> rfl

theorem Level.short_eq_inl {l : Level} {c : Char} {x : Setting} (h : l.short c = some (.inl x)) :
    c = 'n' ∧ x = .ns := by
  unfold short at h
  split at h <;> cases h
  exact ⟨rfl, rfl⟩

theorem Level.short_eq_inr {l : Level} {c : Char} {f : Flag} (h : l.short c = some (.inr f)) :
    f ≠ .json := by
  unfold short at h
  split at h <;> cases h <;> exact nofun

theorem Verb.ofName_eq_some_iff {word : String} {verb : Verb} :
    Verb.ofName word = some verb ↔ word = verb.name := by
  constructor
  · intro h
    unfold Verb.ofName at h
    split at h <;> cases h <;> rfl
  · rintro rfl
    cases verb <;> rfl

/-! ## Words -/

def longWord (name : String) : Option String → String
  | none => "--" ++ name
  | some v => "--" ++ name ++ "=" ++ v

def lettersWord (cs : List Char) : String := String.ofList ('-' :: cs)

theorem splitValue_append {name : String} (h : '=' ∉ name.toList) (v : Option String) :
    splitValue (name.toList ++ (v.map fun v => '=' :: v.toList).getD []) = (name, v) := by
  have hname : ∀ c ∈ name.toList, decide (c ≠ '=') = true := fun c hc =>
    decide_eq_true fun he => h (he ▸ hc)
  cases v with
  | none =>
    have hdrop : (name.toList ++ []).dropWhile (· ≠ '=') = [] := List.dropWhile_append_of_pos hname
    rw [Option.map_none, Option.getD_none, splitValue, hdrop, List.append_nil, String.ofList_toList]
  | some v =>
    have hdrop : (name.toList ++ '=' :: v.toList).dropWhile (· ≠ '=') = '=' :: v.toList :=
      List.dropWhile_append_of_pos hname
    have htake : (name.toList ++ '=' :: v.toList).takeWhile (· ≠ '=') = name.toList :=
      (List.takeWhile_append_of_pos hname).trans (List.append_nil _)
    simp only [Option.map_some, Option.getD_some, splitValue, hdrop, htake, String.ofList_toList]

theorem append_splitValue (cs : List Char) :
    cs = (splitValue cs).1.toList ++ ((splitValue cs).2.map fun v => '=' :: v.toList).getD [] := by
  have hcs : cs.takeWhile (· ≠ '=') ++ cs.dropWhile (· ≠ '=') = cs :=
    List.takeWhile_append_dropWhile
  have hhead := List.head?_dropWhile_not (fun c : Char => decide (c ≠ '=')) cs
  unfold splitValue
  cases hd : cs.dropWhile (· ≠ '=') with
  | nil => simp
  | cons c v =>
    rw [hd] at hcs hhead
    obtain rfl : c = '=' := by simpa using hhead
    simpa using hcs.symm

theorem toList_longWord (name : String) (v : Option String) :
    (longWord name v).toList =
      '-' :: '-' :: (name.toList ++ (v.map fun v => '=' :: v.toList).getD []) := by
  cases v <;> simp [longWord]

namespace Word

theorem of_longWord {name : String} (hne : name ≠ "") (h : '=' ∉ name.toList)
    (v : Option String) : Word.of (longWord name v) = .long name v := by
  obtain ⟨c, cs, hcs⟩ := List.exists_cons_of_ne_nil (mt String.toList_eq_nil_iff.1 hne)
  have hsplit := splitValue_append h v
  rw [hcs, List.cons_append] at hsplit
  simp only [Word.of, toList_longWord, hcs, List.cons_append, hsplit]

theorem of_option (o : Setting ⊕ Flag) (v : Option String) :
    Word.of (longWord (optionName o) v) = .long (optionName o) v :=
  of_longWord (optionName_shape o).1 (optionName_shape o).2 v

theorem of_lettersWord {c : Char} (hc : c ≠ '-') (cs : List Char) :
    Word.of (lettersWord (c :: cs)) = .letters (c :: cs) := by
  simp [Word.of, lettersWord, hc]

theorem eq_longWord {word name : String} {v : Option String} (h : Word.of word = .long name v) :
    word = longWord name v := by
  unfold Word.of at h
  split at h
  · cases h
  · next cs hcs =>
    cases h
    refine String.toList_injective ?_
    rw [hcs, toList_longWord, ← append_splitValue]
  · cases h
  · cases h

theorem eq_lettersWord {word : String} {cs : List Char} (h : Word.of word = .letters cs) :
    word = lettersWord cs ∧ ∃ c rest, cs = c :: rest := by
  unfold Word.of at h
  split at h
  · cases h
  · cases h
  · next hcs =>
    cases h
    exact ⟨String.toList_injective (by simpa [lettersWord] using hcs), _, _, rfl⟩
  · cases h

theorem eq_dashes {word : String} (h : Word.of word = .dashes) : word = "--" := by
  unfold Word.of at h
  split at h
  · next hcs => exact String.toList_injective hcs
  · cases h
  · cases h
  · cases h

end Word

/-- A word that names a command looks like no option. -/
theorem plain_of_isCommand {l : Level} {word : String} (h : l.isCommand word = true) :
    Word.of word = .plain := by
  cases l with
  | command => cases h
  | root =>
    simp only [Level.isCommand, Bool.or_eq_true, decide_eq_true_eq, Option.isSome_iff_exists] at h
    obtain ⟨verb, hv⟩ | rfl := h
    · rw [Verb.ofName_eq_some_iff.1 hv]
      cases verb <;> rfl
    · rfl

/-! ## Settling -/

namespace Seen

theorem attached_cons (c : Char) (cs : List Char) : ∃ v, attached (c :: cs) = some v := by
  unfold attached
  split
  · next h => cases h
  · exact ⟨_, rfl⟩
  · exact ⟨_, rfl⟩

section
variable {s t : Seen} {l : Level} {e : LineError}

theorem settle_of_settled (h : s.pending = none) : s.settle = .ok s := by
  rw [settle, h]

theorem not_awaits_of_settled (h : s.pending = none) : s.awaits = false := by
  rw [awaits, h]

theorem settled_of_set {x : Setting} {v : String} (hs : s.pending = none)
    (h : s.set x v = .ok t) : t.pending = none := by
  unfold set at h
  split at h
  · cases h
  · cases ha : accepts x v <;> rw [ha] at h <;> cases h
    exact hs

theorem settled_of_settle (h : s.settle = .ok t) : t.pending = none := by
  unfold settle at h
  split at h
  · next hp =>
    cases h
    exact hp
  · cases h
  · exact settled_of_set rfl h

theorem settle_of_awaits (h : s.awaits = true) : s.settle = .error .invalidValue := by
  unfold awaits at h
  split at h
  · next hp => rw [settle, hp]
  · cases h

theorem value_of_not_awaits (h : s.awaits = false) (l : Level) (word : String) :
    s.value l word = .error (l.stray false word) := by
  unfold awaits at h
  unfold value
  split at h
  · cases h
  · rfl

/-- It makes no difference to the next option whether the one before it has been settled. -/
theorem long_of_settle (h : s.settle = .ok t) (name : String) (v : Option String) :
    s.long l name v = t.long l name v := by
  unfold long
  rw [h, settle_of_settled (settled_of_settle h)]

theorem letters_of_settle (h : s.settle = .ok t) (c : Char) (cs : List Char) :
    s.letters l (c :: cs) = t.letters l (c :: cs) := by
  unfold letters
  rw [h, settle_of_settled (settled_of_settle h)]

theorem not_awaits_of_settle (h : s.settle = .ok t) : s.awaits = false := by
  cases ha : s.awaits with
  | false => rfl
  | true =>
    rw [settle_of_awaits ha] at h
    cases h

theorem settled_of_flag {f : Flag} (hs : s.pending = none) (h : s.flag f = .ok t) :
    f = .json ∧ t.pending = none := by
  cases f with
  | json =>
    rw [flag] at h
    cases hj : s.json <;> rw [hj] at h <;> cases h
    exact ⟨rfl, hs⟩
  | help | version => cases h

theorem awaits_of_option {x : Setting} {v : Option String} (hs : s.pending = none)
    (h : s.option x v = .ok t) : t.awaits = v.isNone := by
  cases v with
  | none =>
    cases h
    rfl
  | some v => exact not_awaits_of_settled (settled_of_set hs h)

/-- An option that is read by its name settles the one before it. It is there with its value, waits
for it, or has none. -/
theorem long_eq_ok {name : String} {v : Option String} (h : s.long l name v = .ok t) :
    (∃ s', s.settle = .ok s') ∧ ((∃ x, name = optionName (.inl x) ∧ t.awaits = v.isNone) ∨
      name = optionName (.inr .json) ∧ v = none ∧ t.awaits = false) := by
  unfold long at h
  split at h
  · cases h
  · next x hx =>
    obtain ⟨s', hs', h⟩ := bind_eq_ok.1 h
    exact ⟨⟨s', hs'⟩, .inl ⟨x, name_of_long hx, awaits_of_option (settled_of_settle hs') h⟩⟩
  · next f hf =>
    split at h
    · cases h
    · next hv =>
      obtain ⟨s', hs', h⟩ := bind_eq_ok.1 h
      obtain ⟨rfl, ht⟩ := settled_of_flag (settled_of_settle hs') h
      exact ⟨⟨s', hs'⟩, .inr ⟨name_of_long hf, by simpa using hv, not_awaits_of_settled ht⟩⟩

/-- The only letter that a line is understood with is that of the namespace. -/
theorem letters_eq_ok {c : Char} {cs : List Char} (h : s.letters l (c :: cs) = .ok t) :
    (∃ s', s.settle = .ok s') ∧ c = 'n' ∧ t.awaits = (attached cs).isNone := by
  unfold letters at h
  split at h
  · cases h
  · next x hx =>
    obtain ⟨rfl, rfl⟩ := l.short_eq_inl hx
    obtain ⟨s', hs', h⟩ := bind_eq_ok.1 h
    exact ⟨⟨s', hs'⟩, rfl, awaits_of_option (settled_of_settle hs') h⟩
  · next f hf =>
    obtain ⟨s', hflag, -⟩ := bind_eq_ok.1 h
    obtain ⟨u, hu, hflag⟩ := bind_eq_ok.1 hflag
    exact absurd (settled_of_flag (settled_of_settle hu) hflag).1 (l.short_eq_inr hf)

theorem value_eq_ok {word : String} (h : s.value l word = .ok t) :
    s.awaits = true ∧ t.awaits = false := by
  unfold value at h
  split at h <;> cases h
  next hp => exact ⟨by rw [awaits, hp], rfl⟩

end

end Seen

/-! ## Reading a level -/

/-- From what has been read the rest of a level is read to `t`, all options settled, and to a
command with the words after it if it ends with one. -/
def Reads (l : Level) (s : Seen) (words : List String) (t : Seen)
    (found : Option (Verb × List String)) : Prop :=
  ∃ s', scan l s words = .ok (s', found) ∧ s'.settle = .ok t

section
variable {l : Level} {s t : Seen} {word : String} {rest words : List String}
  {found : Option (Verb × List String)}

theorem scan_verb (hs : s.awaits = false) (verb : Verb) :
    scan .root s (verb.name :: rest) = .ok (s, some (verb, rest)) := by
  rw [scan.eq_def]
  cases verb <;> simp [hs, Level.isCommand, Verb.name, Verb.ofName]

theorem scan_help (hs : s.awaits = false) (h : l.isCommand word = true)
    (hn : Verb.ofName word = none) : scan l s (word :: rest) = .error (helpOn rest) := by
  rw [scan.eq_def]
  simp only [hs, h, hn, Bool.not_false, Bool.and_self, ↓reduceIte]

theorem not_isCommand (h : Word.of word ≠ .plain) : l.isCommand word = false :=
  Bool.eq_false_iff.2 fun hc => h (plain_of_isCommand hc)

theorem scan_long {name : String} {v : Option String} (h : Word.of word = .long name v) :
    scan l s (word :: rest) = (s.long l name v).bind fun s => scan l s rest := by
  have hc : l.isCommand word = false := not_isCommand (h ▸ nofun)
  rw [scan.eq_def]
  simp only [hc, h, Bool.and_false, Bool.false_eq_true, ↓reduceIte]

theorem scan_letters {cs : List Char} (h : Word.of word = .letters cs) :
    scan l s (word :: rest) = (s.letters l cs).bind fun s => scan l s rest := by
  have hc : l.isCommand word = false := not_isCommand (h ▸ nofun)
  rw [scan.eq_def]
  simp only [hc, h, Bool.and_false, Bool.false_eq_true, ↓reduceIte]

theorem scan_plain (hw : Word.of word = .plain) (h : (!s.awaits && l.isCommand word) = false) :
    scan l s (word :: rest) = (s.value l word).bind fun s => scan l s rest := by
  rw [scan.eq_def]
  simp only [h, hw, Bool.false_eq_true, ↓reduceIte]

theorem scan_dashes (h : Word.of word = .dashes) : scan l s [word] = .ok (s, none) := by
  have hc : l.isCommand word = false := not_isCommand (h ▸ nofun)
  rw [scan.eq_def]
  simp only [hc, h, Bool.and_false, Bool.false_eq_true, ↓reduceIte]

theorem scan_past_dashes (h : Word.of word = .dashes) (w : String) :
    scan l s (word :: w :: rest) = .error (l.stray true w) := by
  have hc : l.isCommand word = false := not_isCommand (h ▸ nofun)
  rw [scan.eq_def]
  simp only [hc, h, Bool.and_false, Bool.false_eq_true, ↓reduceIte]

end

/-- Reading goes on the same way once the last option has been settled, and fails if it cannot
be. -/
def Settles (l : Level) (words : List String) : Prop :=
  ∀ s, s.awaits = false →
    (∀ s', s.settle = .ok s' → scan l s words = scan l s' words) ∧
    ∀ r, scan l s words = .ok r → ∃ s', s.settle = .ok s'

section
variable {l : Level} {s t : Seen} {words : List String} {found : Option (Verb × List String)}

theorem Settles.of_error {e : LineError}
    (h : ∀ s, s.awaits = false → scan l s words = .error e) : Settles l words :=
  fun s hs => by
    refine ⟨fun s' hs' => ?_, fun r hr => ?_⟩
    · rw [h s hs, h s' (Seen.not_awaits_of_settled (Seen.settled_of_settle hs'))]
    · cases (h s hs).symm.trans hr

/-- Unless an option waits for its value, the level ends here or the next word settles the last
option. -/
theorem ends_or_settles (l : Level) (words : List String) :
    (∃ found, ∀ s, s.awaits = false → scan l s words = .ok (s, found)) ∨ Settles l words := by
  cases words with
  | nil => exact .inl ⟨none, fun _ _ => rfl⟩
  | cons word rest =>
    by_cases hc : l.isCommand word = true
    · cases hv : Verb.ofName word with
      | none => exact .inr (.of_error fun s hs => scan_help hs hc hv)
      | some verb =>
        cases l with
        | command => cases hc
        | root =>
          rw [Verb.ofName_eq_some_iff.1 hv]
          exact .inl ⟨some (verb, rest), fun s hs => scan_verb hs verb⟩
    · cases hw : Word.of word with
      | dashes =>
        cases rest with
        | nil => exact .inl ⟨none, fun s _ => scan_dashes hw⟩
        | cons w rest => exact .inr (.of_error fun s _ => scan_past_dashes hw w)
      | long name v =>
        refine .inr fun s _ => ⟨fun s' hs' => ?_, fun r hr => ?_⟩
        · rw [scan_long hw, scan_long hw, Seen.long_of_settle hs']
        · obtain ⟨t, ht, -⟩ := bind_eq_ok.1 ((scan_long hw).symm.trans hr)
          exact (Seen.long_eq_ok ht).1
      | letters cs =>
        obtain ⟨-, c, cs, rfl⟩ := Word.eq_lettersWord hw
        refine .inr fun s _ => ⟨fun s' hs' => ?_, fun r hr => ?_⟩
        · rw [scan_letters hw, scan_letters hw, Seen.letters_of_settle hs']
        · obtain ⟨t, ht, -⟩ := bind_eq_ok.1 ((scan_letters hw).symm.trans hr)
          exact (Seen.letters_eq_ok ht).1
      | plain =>
        refine .inr (.of_error (e := l.stray false word) fun s hs => ?_)
        rw [scan_plain hw (by simp [hc]), Seen.value_of_not_awaits hs]
        rfl

/-- An option that has its value may be settled at once. -/
theorem reads_iff_settle (hs : s.awaits = false) :
    Reads l s words t found ↔ ∃ s', s.settle = .ok s' ∧ Reads l s' words t found := by
  have hsettled {s' : Seen} (h : s.settle = .ok s') := Seen.settled_of_settle h
  rcases ends_or_settles l words with ⟨found', h⟩ | h
  · constructor
    · rintro ⟨s', hscan, ht⟩
      rw [h s hs] at hscan
      cases hscan
      have ht' := hsettled ht
      exact ⟨t, ht, t, h t (Seen.not_awaits_of_settled ht'), Seen.settle_of_settled ht'⟩
    · rintro ⟨s', hs', u, hscan, ht⟩
      rw [h s' (Seen.not_awaits_of_settled (hsettled hs'))] at hscan
      cases hscan
      cases (Seen.settle_of_settled (hsettled hs')).symm.trans ht
      exact ⟨s, h s hs, hs'⟩
  · constructor
    · rintro ⟨u, hscan, ht⟩
      obtain ⟨s', hs'⟩ := (h s hs).2 _ hscan
      exact ⟨s', hs', u, ((h s hs).1 s' hs').symm.trans hscan, ht⟩
    · rintro ⟨s', hs', hreads⟩
      rwa [Reads, (h s hs).1 s' hs']

end

/-! ## Pieces -/

/-- An option with its value, as it is written. -/
inductive Piece where
  /-- The name, and the value in a word that looks like no option. -/
  | apart (x : Setting) (v : String) (hv : Word.of v = .plain)
  /-- The name and the value with `=` between them. -/
  | joined (x : Setting) (v : String)
  /-- The letter of the namespace, and the value in a word that looks like no option. -/
  | letter (v : String) (hv : Word.of v = .plain)
  /-- The letter of the namespace and the value, with `=` between them or nothing. -/
  | attached (c : Char) (cs : List Char)
  | json

namespace Piece

def words : Piece → List String
  | apart x v _ => [longWord (optionName (.inl x)) none, v]
  | joined x v => [longWord (optionName (.inl x)) (some v)]
  | letter v _ => [lettersWord ['n'], v]
  | attached c cs => [lettersWord ('n' :: c :: cs)]
  | json => [longWord (optionName (.inr .json)) none]

def given? : Piece → Option (Setting × String)
  | apart x v _ | joined x v => some (x, v)
  | letter v _ => some (.ns, v)
  | attached c cs => (Seen.attached (c :: cs)).map (Setting.ns, ·)
  | json => none

def option (p : Piece) : Setting ⊕ Flag :=
  match p.given? with
  | some (x, _) => .inl x
  | none => .inr .json

end Piece

def Level.Knows (l : Level) (p : Piece) : Prop := l.long (optionName p.option) = some p.option

/-- Adds what a piece says, once. -/
def Seen.add (s : Seen) (p : Piece) : Except LineError Seen :=
  match p.given? with
  | some (x, v) => s.set x v
  | none => s.flag .json

theorem Level.short_ns (l : Level) : l.short 'n' = l.long (optionName (.inl .ns)) := by
  cases l <;> rfl

theorem Level.long_optionName (l : Level) (o : Setting ⊕ Flag) :
    l.long (optionName o) = some o ∨ l.long (optionName o) = none := by
  have hsettings (x : Setting) :
      l.long (optionName (.inl x)) = some (.inl x) ∨ l.long (optionName (.inl x)) = none := by
    rcases l with _ | verb
    · cases x <;> decide
    · cases verb <;> cases x <;> decide
  have hflags (f : Flag) :
      l.long (optionName (.inr f)) = some (.inr f) ∨ l.long (optionName (.inr f)) = none := by
    rcases l with _ | verb
    · cases f <;> decide
    · cases verb <;> cases f <;> decide
  exact Sum.casesOn o hsettings hflags

/-! ## Reading pieces -/

section
variable {l : Level} {s t : Seen} {word : String} {rest words : List String}
  {found : Option (Verb × List String)}

theorem reads_bind {r : Except LineError Seen}
    (h : scan l s words = r.bind fun s => scan l s rest) :
    Reads l s words t found ↔ ∃ s', r = .ok s' ∧ Reads l s' rest t found := by
  rw [Reads, h]
  cases r with
  | ok s' => simp [Reads, Except.bind]
  | error e => simp [Except.bind]

/-- The word after an option that waits for its value is the value. -/
theorem reads_value (hs : s.pending = none) (x : Setting) {v : String}
    (hv : Word.of v = .plain) :
    Reads l { s with pending := some (x, none) } (v :: rest) t found ↔
      ∃ s', s.set x v = .ok s' ∧ Reads l s' rest t found := by
  obtain ⟨values, json, pending⟩ := s
  obtain rfl : pending = none := hs
  rw [reads_bind (scan_plain hv rfl)]
  simp only [Seen.value, Except.ok.injEq, exists_eq_left']
  exact reads_iff_settle rfl

theorem reads_long (hs : s.pending = none) (x : Setting) (v : Option String) :
    Reads l s (longWord (optionName (.inl x)) v :: rest) t found ↔
      l.long (optionName (.inl x)) = some (.inl x) ∧
        ∃ s', s.option x v = .ok s' ∧ Reads l s' rest t found := by
  rw [reads_bind (scan_long (Word.of_option (.inl x) v)), Seen.long, Seen.settle_of_settled hs]
  rcases l.long_optionName (.inl x) with h | h <;> simp [h, Except.bind]

theorem reads_letters (hs : s.pending = none) (cs : List Char) :
    Reads l s (lettersWord ('n' :: cs) :: rest) t found ↔
      l.long (optionName (.inl .ns)) = some (.inl .ns) ∧
        ∃ s', s.option .ns (Seen.attached cs) = .ok s' ∧ Reads l s' rest t found := by
  rw [reads_bind (scan_letters (Word.of_lettersWord (by decide) cs)), Seen.letters, l.short_ns,
    Seen.settle_of_settled hs]
  rcases l.long_optionName (.inl .ns) with h | h <;> simp [h, Except.bind]

theorem reads_json (hs : s.pending = none) :
    Reads l s (longWord (optionName (.inr .json)) none :: rest) t found ↔
      l.long (optionName (.inr .json)) = some (.inr .json) ∧
        ∃ s', s.flag .json = .ok s' ∧ Reads l s' rest t found := by
  rw [reads_bind (scan_long (Word.of_option (.inr .json) none)), Seen.long,
    Seen.settle_of_settled hs]
  rcases l.long_optionName (.inr .json) with h | h <;> simp [h, Except.bind]

/-- To read a piece is to add what it says. -/
theorem reads_piece (hs : s.pending = none) (p : Piece) :
    Reads l s (p.words ++ rest) t found ↔
      l.Knows p ∧ ∃ s', s.add p = .ok s' ∧ Reads l s' rest t found := by
  have hwait {x : Setting} {v : String} (hv : Word.of v = .plain) :
      (∃ s', s.option x none = .ok s' ∧ Reads l s' (v :: rest) t found) ↔
        ∃ s', s.set x v = .ok s' ∧ Reads l s' rest t found := by
    simp only [Seen.option, Except.ok.injEq, exists_eq_left']
    exact reads_value hs x hv
  cases p with
  | apart x v hv => exact (reads_long hs x none).trans (and_congr_right' (hwait hv))
  | joined x v => exact reads_long hs x (some v)
  | letter v hv => exact (reads_letters hs []).trans (and_congr_right' (hwait hv))
  | attached c cs =>
    obtain ⟨v, hv⟩ := Seen.attached_cons c cs
    have hgiven : (Piece.attached c cs).given? = some (.ns, v) := by rw [Piece.given?, hv]; rfl
    simp only [Level.Knows, Piece.option, Seen.add, hgiven]
    refine (reads_letters hs (c :: cs)).trans ?_
    rw [hv]
    rfl
  | json => exact reads_json hs

end

/-! ## What pieces come to -/

namespace Piece

def Accepted (p : Piece) : Prop :=
  ∀ x v, p.given? = some (x, v) → Seen.accepts x v = .ok ()

def options (ps : List Piece) : List (Setting ⊕ Flag) := ps.map option

/-- What has been read once pieces have been read. -/
def gather (ps : List Piece) : Seen :=
  ⟨ps.filterMap given?, ps.any (·.given?.isNone), none⟩

section
variable {p : Piece} {ps : List Piece} {x : Setting} {s : Seen}

theorem option_of_given? {v : String} (h : p.given? = some (x, v)) : p.option = .inl x := by
  rw [option, h]

theorem option_of_none (h : p.given? = none) : p.option = .inr .json := by
  rw [option, h]

theorem option_eq_inl : p.option = .inl x ↔ ∃ v, p.given? = some (x, v) := by
  constructor
  · intro h
    cases hg : p.given? with
    | none =>
      rw [option_of_none hg] at h
      cases h
    | some g =>
      obtain ⟨y, v⟩ := g
      rw [option_of_given? hg] at h
      cases h
      exact ⟨v, rfl⟩
  · rintro ⟨v, hv⟩
    exact option_of_given? hv

theorem option_eq_json : p.option = .inr .json ↔ p.given? = none := by
  refine ⟨fun h => ?_, option_of_none⟩
  cases hg : p.given? with
  | none => rfl
  | some g =>
    rw [option_of_given? hg] at h
    cases h

theorem json_gather : (gather ps).json = true ↔ .inr .json ∈ options ps := by
  simp [gather, options, option_eq_json]

theorem get?_gather_eq_none : (gather ps).get? x = none ↔ .inl x ∉ options ps := by
  simp only [Seen.get?, gather, List.lookup_eq_none_iff, List.mem_filterMap, options, List.mem_map,
    option_eq_inl]
  constructor
  · rintro h ⟨p, hp, v, hv⟩
    simpa using h (x, v) ⟨p, hp, hv⟩
  · rintro h ⟨y, v⟩ ⟨p, hp, hv⟩
    refine bne_iff_ne.2 fun hxy => h ⟨p, hp, v, ?_⟩
    obtain rfl : x = y := hxy
    exact hv

theorem gather_concat_setting {v : String} (h : p.given? = some (x, v)) :
    gather (ps ++ [p]) = { gather ps with values := (gather ps).values ++ [(x, v)] } := by
  simp [gather, h]

theorem gather_concat_json (h : p.given? = none) :
    gather (ps ++ [p]) = { gather ps with json := true } := by
  simp [gather, h]

/-- A piece can be added once, with a value that its setting may have. -/
theorem add_gather : (gather ps).add p = .ok s ↔
    p.option ∉ options ps ∧ p.Accepted ∧ s = gather (ps ++ [p]) := by
  cases hg : p.given? with
  | none =>
    have haccepted : p.Accepted := fun x v h => by rw [hg] at h; cases h
    rw [Seen.add, hg, option_of_none hg, gather_concat_json hg, ← json_gather]
    dsimp only [Seen.flag]
    cases (gather ps).json with
    | true => simp
    | false => simp [haccepted, eq_comm]
  | some g =>
    obtain ⟨x, v⟩ := g
    have haccepted : p.Accepted ↔ Seen.accepts x v = .ok () := by simp [Accepted, hg]
    rw [Seen.add, hg, option_of_given? hg, gather_concat_setting hg, haccepted,
      ← get?_gather_eq_none]
    dsimp only [Seen.set]
    cases (gather ps).get? x with
    | some w => simp
    | none =>
      cases Seen.accepts x v with
      | error e => simp [Except.map]
      | ok => simp [Except.map, eq_comm]

end

end Piece

open Piece

/-- To read pieces is to gather them. All of them may stand at the level with their values, and no
option is given twice. -/
theorem reads_pieces {l : Level} {t : Seen} {rest : List String}
    {found : Option (Verb × List String)} {past : List Piece} (hpast : (options past).Nodup)
    (ps : List Piece) :
    Reads l (gather past) (ps.flatMap words ++ rest) t found ↔
      (∀ p ∈ ps, l.Knows p ∧ p.Accepted) ∧ (options (past ++ ps)).Nodup ∧
        Reads l (gather (past ++ ps)) rest t found := by
  -- What has been read is always what some pieces come to, so that the induction hypothesis applies
  -- to the rest after each piece.
  induction ps generalizing past with
  | nil => simp [hpast]
  | cons p ps ih =>
    have hnew : (options (past ++ [p])).Nodup ↔ p.option ∉ options past := by
      rw [options, List.map_append, List.map_singleton, List.nodup_append]
      exact ⟨fun h hp => h.2.2 _ hp _ (List.mem_singleton_self _) rfl, fun h =>
        ⟨hpast, List.pairwise_singleton _ _, fun o ho o' ho' he =>
          h (List.mem_singleton.1 ho' ▸ he ▸ ho)⟩⟩
    rw [List.flatMap_cons, List.append_assoc, reads_piece rfl, List.forall_mem_cons,
      List.append_cons]
    constructor
    · rintro ⟨hknown, s', hadd, hreads⟩
      obtain ⟨hp, haccepted, rfl⟩ := add_gather.1 hadd
      obtain ⟨hps, hnodup, hreads⟩ := (ih (hnew.2 hp)).1 hreads
      exact ⟨⟨⟨hknown, haccepted⟩, hps⟩, hnodup, hreads⟩
    · rintro ⟨⟨⟨hknown, haccepted⟩, hps⟩, hnodup, hreads⟩
      have hfirst : (options (past ++ [p])).Nodup :=
        hnodup.sublist ((List.sublist_append_left _ ps).map _)
      exact ⟨hknown, _, add_gather.2 ⟨hnew.1 hfirst, haccepted, rfl⟩,
        (ih hfirst).2 ⟨hps, hnodup, hreads⟩⟩

theorem reads_nil {l : Level} {s t : Seen} {found : Option (Verb × List String)}
    (hs : s.pending = none) : Reads l s [] t found ↔ t = s ∧ found = none := by
  constructor
  · rintro ⟨s', hscan, ht⟩
    cases hscan
    cases (Seen.settle_of_settled hs).symm.trans ht
    exact ⟨rfl, rfl⟩
  · rintro ⟨rfl, rfl⟩
    exact ⟨t, rfl, Seen.settle_of_settled hs⟩

theorem reads_verb {s t : Seen} {verb : Verb} {rest : List String}
    {found : Option (Verb × List String)} (hs : s.pending = none) :
    Reads .root s (verb.name :: rest) t found ↔ t = s ∧ found = some (verb, rest) := by
  have hverb : scan .root s (verb.name :: rest) = .ok (s, some (verb, rest)) :=
    scan_verb (Seen.not_awaits_of_settled hs) verb
  constructor
  · rintro ⟨s', hscan, ht⟩
    cases hverb.symm.trans hscan
    cases (Seen.settle_of_settled hs).symm.trans ht
    exact ⟨rfl, rfl⟩
  · rintro ⟨rfl, rfl⟩
    exact ⟨t, hverb, Seen.settle_of_settled hs⟩

/-! ## Words as pieces -/

/-- The words that a level leaves to the next one, from the command on. -/
def unread : Option (Verb × List String) → List String
  | none => []
  | some (verb, rest) => verb.name :: rest

section
variable {l : Level} {s t : Seen}

/-- What the first word of a level can be, and how reading goes on. -/
inductive Turn (l : Level) (s : Seen) (word : String) (rest : List String) (t : Seen)
    (found : Option (Verb × List String)) : Prop
  | verb {verb : Verb} (hl : l = .root) (hs : s.awaits = false) (hw : word = verb.name)
    (hfound : found = some (verb, rest))
  | piece {p : Piece} {s' : Seen} (hs : s.awaits = false) (hp : p.words = [word])
    (hs' : s'.awaits = false) (h : Reads l s' rest t found)
  /-- The option waits for its value, whatever it is. -/
  | option {s' : Seen} (hs : s.awaits = false)
    (hp : ∀ v, Word.of v = .plain → ∃ p : Piece, p.words = [word, v]) (hs' : s'.awaits = true)
    (h : Reads l s' rest t found)
  | value {s' : Seen} (hs : s.awaits = true) (hw : Word.of word = .plain) (hs' : s'.awaits = false)
    (h : Reads l s' rest t found)

theorem Reads.turn {word : String} {rest : List String} {found : Option (Verb × List String)}
    (hdashes : "--" ≠ word) (h : Reads l s (word :: rest) t found) :
    Turn l s word rest t found := by
  by_cases hc : (!s.awaits && l.isCommand word) = true
  · obtain ⟨hs, hc⟩ : s.awaits = false ∧ l.isCommand word = true := by simpa using hc
    obtain ⟨s', hscan, -⟩ := h
    cases hv : Verb.ofName word with
    | none =>
      rw [scan_help hs hc hv] at hscan
      cases hscan
    | some verb =>
      obtain rfl := Verb.ofName_eq_some_iff.1 hv
      cases l with
      | command => cases hc
      | root =>
        rw [scan_verb hs] at hscan
        cases hscan
        exact .verb rfl hs rfl rfl
  · cases hw : Word.of word with
    | dashes => exact absurd (Word.eq_dashes hw).symm hdashes
    | long name v =>
      obtain rfl := Word.eq_longWord hw
      obtain ⟨s', hs', hreads⟩ := (reads_bind (scan_long hw)).1 h
      obtain ⟨⟨u, hu⟩, hlong⟩ := Seen.long_eq_ok hs'
      have hs := Seen.not_awaits_of_settle hu
      obtain ⟨x, rfl, ha⟩ | ⟨rfl, rfl, ha⟩ := hlong
      · cases v with
        | none => exact .option hs (fun v hv => ⟨.apart x v hv, rfl⟩) ha hreads
        | some v => exact .piece (p := .joined x v) hs rfl ha hreads
      · exact .piece (p := .json) hs rfl ha hreads
    | letters cs =>
      obtain ⟨rfl, c, cs, rfl⟩ := Word.eq_lettersWord hw
      obtain ⟨s', hs', hreads⟩ := (reads_bind (scan_letters hw)).1 h
      obtain ⟨⟨u, hu⟩, rfl, ha⟩ := Seen.letters_eq_ok hs'
      have hs := Seen.not_awaits_of_settle hu
      cases cs with
      | nil => exact .option hs (fun v hv => ⟨.letter v hv, rfl⟩) ha hreads
      | cons c cs =>
        obtain ⟨v, hv⟩ := Seen.attached_cons c cs
        exact .piece (p := .attached c cs) hs rfl (by rw [ha, hv]; rfl) hreads
    | plain =>
      obtain ⟨s', hs', hreads⟩ := (reads_bind (scan_plain hw (Bool.eq_false_iff.2 hc))).1 h
      obtain ⟨hs, ha⟩ := Seen.value_eq_ok hs'
      exact .value hs hw ha hreads

/-- The words of a level are those of pieces, after the value for which an option waits. -/
theorem Reads.pieces {words : List String} {found : Option (Verb × List String)}
    (hdashes : "--" ∉ words) (h : Reads l s words t found) :
    (s.awaits = false → ∃ ps : List Piece, words = ps.flatMap Piece.words ++ unread found) ∧
    (s.awaits = true → ∃ v, Word.of v = .plain ∧
      ∃ ps : List Piece, words = v :: (ps.flatMap Piece.words ++ unread found)) := by
  -- By induction on the words, for both kinds of states at once: a turn may go from one that waits
  -- for a value to one that does not, and back.
  induction words generalizing s with
  | nil =>
    obtain ⟨s', hscan, ht⟩ := h
    cases hscan
    refine ⟨fun _ => ⟨[], rfl⟩, fun hs => ?_⟩
    rw [Seen.settle_of_awaits hs] at ht
    cases ht
  | cons word rest ih =>
    obtain ⟨hword, hrest⟩ := not_or.1 (mt List.mem_cons.2 hdashes)
    cases h.turn hword with
    | verb _ hs hw hfound =>
      subst hw hfound
      exact ⟨fun _ => ⟨[], rfl⟩, fun ha => absurd ha (by simp [hs])⟩
    | @piece p s' hs hp hs' h =>
      obtain ⟨ps, rfl⟩ := (ih hrest h).1 hs'
      refine ⟨fun _ => ⟨p :: ps, ?_⟩, fun ha => absurd ha (by simp [hs])⟩
      rw [List.flatMap_cons, hp]
      rfl
    | option hs hp hs' h =>
      obtain ⟨v, hv, ps, rfl⟩ := (ih hrest h).2 hs'
      obtain ⟨p, hp⟩ := hp v hv
      refine ⟨fun _ => ⟨p :: ps, ?_⟩, fun ha => absurd ha (by simp [hs])⟩
      rw [List.flatMap_cons, hp]
      rfl
    | value hs hw hs' h =>
      obtain ⟨ps, rfl⟩ := (ih hrest h).1 hs'
      exact ⟨fun ha => absurd ha (by simp [hs]), fun _ => ⟨word, hw, ps, rfl⟩⟩

/-- The level of a command ends where the line ends. -/
theorem Reads.found_eq_none {verb : Verb} {words : List String}
    {found : Option (Verb × List String)} (hdashes : "--" ∉ words)
    (h : Reads (.command verb) s words t found) : found = none := by
  induction words generalizing s with
  | nil =>
    obtain ⟨s', hscan, -⟩ := h
    cases hscan
    rfl
  | cons word rest ih =>
    obtain ⟨hword, hrest⟩ := not_or.1 (mt List.mem_cons.2 hdashes)
    cases h.turn hword with
    | verb hl => cases hl
    | piece _ _ _ h => exact ih hrest h
    | option _ _ _ h => exact ih hrest h
    | value _ _ _ h => exact ih hrest h

end

end InitLock.Command
