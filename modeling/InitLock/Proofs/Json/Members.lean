import InitLock.Proofs.Json.Skipping
import InitLock.Json.Reader

/-!
# Typed readers by the grammar

What the readers that objects and lists are read with succeed on: a string, the
next key of an object, the end of a list, a whole text. One turn over the members
of an object is a key and then what is made of the value behind it
(`members_succ`).
-/

namespace InitLock.Json.Reader

open Grammar

variable {σ : Type} {member : String → σ → Member σ} {depth n : Nat} {first : Bool} {s : σ}
  {name : String} {cs rest : List Char}

theorem text_eq_ok : text depth cs = .ok (name, rest) ↔
    ∃ ws v, Blank ws ∧ Literal v name ∧ cs = ws ++ (v ++ rest) := by
  constructor
  · intro h
    obtain ⟨ws, hw, hcs⟩ := exists_blank cs
    unfold text at h
    split at h
    · next hblanks =>
      obtain ⟨v, hv, hmore⟩ := literal_eq_ok.mp h
      exact ⟨ws, v, hw, hv, by rwa [hblanks, hmore] at hcs⟩
    · nomatch h
  · rintro ⟨ws, v, hw, hv, rfl⟩
    obtain ⟨more, hmore, hread⟩ := hv.read rest
    rw [text, skipBlanks_append hw, hmore]
    exact hread

theorem key_eq_ok {found : Option String} : key cs = .ok (found, rest) ↔
    ∃ k name, Literal k name ∧ found = some name ∧ cs = k ++ rest := by
  constructor
  · intro h
    cases cs with
    | nil => nomatch h
    | cons c cs =>
    rw [key] at h
    split at h
    · next hc =>
      obtain ⟨⟨name, more⟩, hread, h⟩ := map_eq_ok.mp h
      cases h
      obtain ⟨k, hk, hcs⟩ := literal_eq_ok.mp hread
      exact ⟨k, name, hk, rfl, by rw [hc, hcs]⟩
    split at h <;> nomatch h
  · rintro ⟨k, name, hk, rfl, rfl⟩
    obtain ⟨cs, hcs, hread⟩ := hk.read rest
    rw [hcs]
    exact map_eq_ok.mpr ⟨_, hread, rfl⟩

theorem nextKey_eq_none : nextKey first cs = .ok (none, rest) ↔
    ∃ ws more, Blank ws ∧ rest = '}' :: more ∧ cs = ws ++ '}' :: more := by
  constructor
  · intro h
    obtain ⟨ws, hw, hcs⟩ := exists_blank cs
    rw [nextKey] at h
    split at h
    · nomatch h
    next c more hblanks =>
    split at h
    · next hc =>
      cases h
      exact ⟨ws, more, hw, by rw [hc], by rwa [hblanks, hc] at hcs⟩
    split at h
    · obtain ⟨_, _, _, hnone, _⟩ := key_eq_ok.mp h
      nomatch hnone
    split at h
    · obtain ⟨_, _, _, hnone, _⟩ := key_eq_ok.mp h
      nomatch hnone
    · nomatch h
  · rintro ⟨ws, more, hw, rfl, rfl⟩
    rw [nextKey, skipBlanks_append hw]
    rfl

/-- What stands before a member other than its own text: a comma, unless it is the first. -/
def Separator : Bool → List Char → Prop
  | true, sep => sep = []
  | false, sep => ∃ ws, Blank ws ∧ sep = ws ++ [',']

theorem nextKey_eq_some : nextKey first cs = .ok (some name, rest) ↔
    ∃ sep ws k, Separator first sep ∧ Blank ws ∧ Literal k name ∧
      cs = sep ++ (ws ++ (k ++ rest)) := by
  constructor
  · intro h
    obtain ⟨ws, hw, hcs⟩ := exists_blank cs
    rw [nextKey] at h
    split at h
    · nomatch h
    next c more hblanks =>
    split at h
    · nomatch h
    split at h
    · next hfirst =>
      obtain ⟨k, _, hk, hname, hmore⟩ := key_eq_ok.mp h
      cases hname
      subst hfirst
      exact ⟨[], ws, k, rfl, hw, hk, by rwa [hblanks, hmore] at hcs⟩
    next hfirst =>
    split at h
    · next hc =>
      obtain ⟨k, _, hk, hname, hmore⟩ := key_eq_ok.mp h
      cases hname
      obtain ⟨ws', hw', hcs'⟩ := exists_blank_of_eq hmore
      rw [Bool.not_eq_true] at hfirst
      subst hfirst
      exact ⟨ws ++ [','], ws', k, ⟨ws, hw, rfl⟩, hw', hk, by rw [hcs, hblanks, hc, hcs']; simp⟩
    · nomatch h
  · rintro ⟨sep, ws, k, hsep, hw, hk, rfl⟩
    have hread : key (k ++ rest) = .ok (some name, rest) := key_eq_ok.mpr ⟨k, name, hk, rfl, rfl⟩
    obtain ⟨cs, hcs, -⟩ := hk.read rest
    have hblank : skipBlanks (ws ++ (k ++ rest)) = k ++ rest := by
      rw [skipBlanks_append hw, hcs]
      rfl
    cases first with
    | true =>
      obtain rfl : sep = [] := hsep
      rw [List.nil_append, nextKey, hblank, hcs]
      rw [hcs] at hread
      exact hread
    | false =>
      obtain ⟨ws', hw', rfl⟩ := hsep
      rw [List.append_assoc, nextKey, skipBlanks_append hw']
      rw [← hblank] at hread
      exact hread

def memberValue (member : String → σ → Member σ) (depth : Nat) (name : String) (s : σ)
    (cs : List Char) : Parsed σ :=
  match member name s with
  | .refuse problem => .error (.unplaced problem cs)
  | .skip => ((colon cs).bind skipValue).map fun rest => (s, rest)
  | .take r => (colon cs).bind (r depth)

/-- One turn of the loop over the members of an object: a key, and what is made of its value. -/
def membersTurn (member : String → σ → Member σ) (depth : Nat)
    (go : Bool × σ → List Char → Parsed σ) (p : Bool × σ) (cs : List Char) : Parsed σ :=
  (nextKey p.1 cs).bind fun
    | (none, rest) => .ok (p.2, rest)
    | (some name, rest) =>
      (memberValue member depth name p.2 rest).bind fun (s, rest) => go (false, s) rest

theorem members_succ : members member depth (n + 1) first s cs =
    membersTurn member depth (fun p => members member depth n p.1 p.2) (first, s) cs := by
  have hok {ε α β : Type} (a : α) (f : α → Except ε β) : (Except.ok a).bind f = f a := rfl
  rw [members, membersTurn]
  cases nextKey first cs with
  | error => rfl
  | ok p =>
  obtain ⟨_ | name, rest⟩ := p
  · rfl
  rw [hok]
  simp only [memberValue]
  cases member name s with
  | refuse => rfl
  | skip => cases (colon rest).bind skipValue <;> rfl
  | take r =>
    dsimp only
    cases (colon rest).bind (r depth) <;> rfl

/-- The loop over the members goes on with a shorter text if no value's reader gives back a longer
one than it was given. -/
theorem members_terminates
    (hvalue : ∀ name s cs s' rest, memberValue member depth name s cs = .ok (s', rest) →
      rest.length ≤ cs.length) :
    Terminates (fun n (p : Bool × σ) => members member depth n p.1 p.2)
      (membersTurn member depth) where
  succ _ _ _ := members_succ
  shorter go go' p cs h := by
    rw [membersTurn, membersTurn]
    cases hkey : nextKey p.1 cs with
    | error => rfl
    | ok q =>
    obtain ⟨_ | name, more⟩ := q
    · rfl
    simp only [Except.bind]
    cases hread : memberValue member depth name p.2 more with
    | error => rfl
    | ok q =>
    obtain ⟨s', rest⟩ := q
    have hle := hvalue name p.2 more s' rest hread
    obtain ⟨sep, ws, k, -, -, hk, rfl⟩ := nextKey_eq_some.mp hkey
    have hpos := hk.length_pos
    refine h (false, s') rest ?_
    simp only [List.length_append]
    omega

theorem endList_eq_ok : endList cs = .ok rest ↔ ∃ ws, Blank ws ∧ cs = ws ++ ']' :: rest := by
  constructor
  · intro h
    obtain ⟨ws, hw, hcs⟩ := exists_blank cs
    unfold endList at h
    split at h
    · nomatch h
    · next hblanks =>
      cases h
      exact ⟨ws, hw, by rwa [hblanks] at hcs⟩
    · nomatch h
    · nomatch h
  · rintro ⟨ws, hw, rfl⟩
    rw [endList, skipBlanks_append hw]
    rfl

theorem document_eq_ok {α : Type} {r : Reader α} {a : α} : r.document cs = .ok a ↔
    ∃ rest, r depthLimit cs = .ok (a, rest) ∧ Blank rest := by
  constructor
  · intro h
    unfold document at h
    split at h
    · nomatch h
    next rest hread =>
    split at h
    · next hblanks =>
      cases h
      obtain ⟨ws, hw, hrest⟩ := exists_blank_of_eq hblanks
      exact ⟨rest, hread, by rwa [hrest, List.append_nil]⟩
    · nomatch h
  · rintro ⟨rest, hread, hrest⟩
    have hblanks : skipBlanks rest = [] := by
      rw [← List.append_nil rest, skipBlanks_append hrest]
      rfl
    simp only [document, hread, hblanks]

end InitLock.Json.Reader
