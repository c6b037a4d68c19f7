import InitLock.Store.Memory

/-!
# Incarnations in the memory store

An incarnation is a record together with the uid it got when it was stored.
Every operation is one `Change` of the store (`change_create`, `change_delete`,
`change_insert`). A reachable store is `WellFormed`: records sit under their
own keys with uids given before. No uid is given twice, so an incarnation that
has left its key never comes back (`Change.gone`).
-/

namespace InitLock

def Question.key? : Question → Option Key
  | .read k | .delete k _ => some k
  | .create r => some r.key
  | .alive _ _ => none

namespace Store.Memory

/-! ## Uids -/

theorem uid_inj {m n : Nat} (h : uid m = uid n) : m = n := by
  have hchars := congrArg String.toList h
  simp only [uid, String.toList_append, String.toList_ofList, List.append_cancel_left_eq] at hchars
  rw [← Nat.ofDigitChars_ten_toDigits (n := m), hchars, Nat.ofDigitChars_ten_toDigits]

/-! ## Operations -/

def holder? (s : Memory) (k : Key) : Option String :=
  (s.records.get? k).bind fun r => r.holder.toOption

/-- What an operation did to a store. -/
inductive Effect where
  | creates (record : Record)
  | removes (key : Key) (record : Record)
  deriving DecidableEq

def Effect.isCreate : Effect → Bool
  | .creates _ => true
  | .removes _ _ => false

def Effect.key : Effect → Key
  | .creates r => r.key
  | .removes k _ => k

def effect (s : Memory) : Question → Option Effect
  | .create r =>
    match (s.create r).1 with
    | .ok () => some (.creates { r with uid := some s.nextUid })
    | .error _ => none
  | .delete k uid =>
    match (s.delete k uid).1, s.records.get? k with
    | .ok (), some r => some (.removes k r)
    | _, _ => none
  | .read _ | .alive _ _ => none

/-- A create does nothing, or it fills a key that was vacant. -/
inductive Created (s : Memory) (r : Record) : Except StoreError Unit × Memory → Prop
  | unnamed (e : Error) (h : r.ns = "" ∨ r.name = "") : Created s r (.error (.other e), s)
  | taken (other : Record) (h : s.records.get? r.key = some other) :
    Created s r (.error (.alreadyExists r.key), s)
  | ok (hns : r.ns ≠ "") (hname : r.name ≠ "") (h : s.records.get? r.key = none) :
    Created s r (.ok (), { s.store r with creates := s.creates + 1 })

theorem created (s : Memory) (r : Record) : Created s r (s.create r) := by
  unfold create
  split
  · next h => exact .unnamed _ h
  · next h =>
    rw [not_or] at h
    split
    · next other ho => exact .taken other ho
    · next hnone => exact .ok h.1 h.2 hnone

/-- A delete does nothing, or it empties a key that held the expected uid. -/
inductive Deleted (s : Memory) (k : Key) (expected : Option String) :
    Except StoreError Unit × Memory → Prop
  | notFound (h : s.records.get? k = none) : Deleted s k expected (.error (.notFound k), s)
  | conflict (r : Record) (h : s.records.get? k = some r) (hu : expected.isSome)
    (hne : r.uid ≠ expected) : Deleted s k expected (.error (.conflict k), s)
  | ok (r : Record) (h : s.records.get? k = some r) (hu : expected = none ∨ r.uid = expected) :
    Deleted s k expected
      (.ok (), { s with records := s.records.erase k, deletes := s.deletes + 1 })

theorem deleted (s : Memory) (k : Key) (expected : Option String) :
    Deleted s k expected (s.delete k expected) := by
  unfold delete
  split
  · next h => exact .notFound h
  · next r h =>
    split
    · next hc => exact .conflict r h hc.1 hc.2
    · next hc =>
      refine .ok r h ?_
      cases expected with
      | none => exact .inl rfl
      | some u => exact .inr (Decidable.not_not.1 fun hne => hc ⟨rfl, hne⟩)

section
variable {s : Memory} {k : Key} {r : Record} {u : Option String} {e : StoreError}

theorem effect_of_create_ok (h : (s.create r).1 = .ok ()) :
    s.effect (.create r) = some (.creates { r with uid := some s.nextUid }) := by
  simp only [effect, h]

theorem effect_of_create_error (h : (s.create r).1 = .error e) : s.effect (.create r) = none := by
  simp only [effect, h]

theorem effect_of_delete_ok (h : (s.delete k u).1 = .ok ()) (hr : s.records.get? k = some r) :
    s.effect (.delete k u) = some (.removes k r) := by
  simp only [effect, h, hr]

theorem effect_of_delete_error (h : (s.delete k u).1 = .error e) :
    s.effect (.delete k u) = none := by
  simp only [effect, h]

end

theorem key_of_effect {s : Memory} {q : Question} {e : Effect} (h : s.effect q = some e) :
    q.key? = some e.key := by
  unfold effect at h
  split at h
  · split at h
    · cases h; rfl
    · cases h
  · split at h
    · cases h; rfl
    · cases h
  · cases h
  · cases h

theorem create_of_effect {s : Memory} {q : Question} {r : Record}
    (h : s.effect q = some (.creates r)) : ∃ r', q = .create r' ∧ (s.create r').1 = .ok () := by
  cases q with
  | read | alive => cases h
  | create r' =>
    simp only [effect] at h
    split at h
    · next hok => exact ⟨r', rfl, hok⟩
    · cases h
  | delete k u =>
    simp only [effect] at h
    split at h <;> cases h

/-- A record is removed by a delete of its key with no uid or with its own. -/
theorem delete_of_effect {s : Memory} {q : Question} {k : Key} {r : Record}
    (h : s.effect q = some (.removes k r)) : ∃ u, q = .delete k u ∧ (u = none ∨ r.uid = u) := by
  cases q with
  | read | alive => cases h
  | create r' =>
    simp only [effect] at h
    split at h <;> cases h
  | delete k' u =>
    have hd := s.deleted k' u
    simp only [effect] at h
    split at h
    · next hok hget =>
      cases h
      refine ⟨u, rfl, ?_⟩
      generalize s.delete k u = o at hd hok
      cases hd with
      | notFound | conflict => cases hok
      | ok r' hr' hu =>
        rw [hget] at hr'
        cases hr'
        exact hu
    · cases h

/-! ## Changes -/

/-- What one operation can make of a store. -/
inductive Change (s : Memory) : Memory → Prop
  | none : Change s s
  | insert (r : Record) : Change s (s.store r)
  | create (r : Record) (h : s.records.get? r.key = .none) :
    Change s { s.store r with creates := s.creates + 1 }
  | delete (k : Key) (r : Record) (h : s.records.get? k = some r) :
    Change s { s with records := s.records.erase k, deletes := s.deletes + 1 }

theorem change_insert (s : Memory) (r : Record) : Change s (s.insert r).2 := .insert r

theorem change_create (s : Memory) (r : Record) : Change s (s.create r).2 := by
  have h := created s r
  cases hc : s.create r
  rw [hc] at h
  cases h with
  | unnamed | taken => exact .none
  | ok _ _ h => exact .create r h

theorem change_delete (s : Memory) (k : Key) (u : Option String) : Change s (s.delete k u).2 := by
  have h := deleted s k u
  cases hc : s.delete k u
  rw [hc] at h
  cases h with
  | notFound | conflict => exact .none
  | ok r h => exact .delete k r h

/-! ## Reachable stores -/

/-- What operations make of the empty store. -/
inductive Reachable : Memory → Prop
  | empty : Reachable .empty
  | insert {s : Memory} (h : Reachable s) (r : Record) : Reachable (s.insert r).2
  | create {s : Memory} (h : Reachable s) (r : Record) : Reachable (s.create r).2
  | delete {s : Memory} (h : Reachable s) (k : Key) (u : Option String) :
    Reachable (s.delete k u).2

def Given (s : Memory) (u : Option String) : Prop := ∃ n ≤ s.assigned, u = some (uid n)

/-- Records sit under their own keys, with uids given before. -/
structure WellFormed (s : Memory) : Prop where
  keyed {k : Key} {r : Record} (h : s.records.get? k = some r) : r.key = k
  given {k : Key} {r : Record} (h : s.records.get? k = some r) : s.Given r.uid

/-- A uid was given before, and the record under the key, if there is one, has another. -/
structure Gone (s : Memory) (k : Key) (u : Option String) : Prop where
  given : s.Given u
  absent {r : Record} (h : s.records.get? k = some r) : r.uid ≠ u

theorem Given.nextUid_ne {s : Memory} {u : Option String} (h : s.Given u) :
    some s.nextUid ≠ u := by
  obtain ⟨n, hn, rfl⟩ := h
  intro he
  have := uid_inj (Option.some.inj he)
  omega

theorem get?_store (s : Memory) (r : Record) (k : Key) :
    (s.store r).records.get? k =
      if k = r.key then some { r with uid := some s.nextUid } else s.records.get? k := by
  simp only [store, Table.get?_insert]

theorem Change.assigned_le {s t : Memory} (h : Change s t) : s.assigned ≤ t.assigned := by
  cases h <;> simp [store]

theorem Change.given {s t : Memory} (h : Change s t) {u : Option String} (hu : s.Given u) :
    t.Given u := by
  obtain ⟨n, hn, rfl⟩ := hu
  exact ⟨n, Nat.le_trans hn h.assigned_le, rfl⟩

theorem given_nextUid (s : Memory) (r : Record) : (s.store r).Given (some s.nextUid) :=
  ⟨s.assigned + 1, Nat.le_refl _, rfl⟩

theorem WellFormed.store {s : Memory} (hs : s.WellFormed) (r : Record) :
    (s.store r).WellFormed where
  keyed {k r'} h := by
    rw [get?_store] at h
    split at h
    · next hk => cases h; exact hk.symm
    · exact hs.keyed h
  given {k r'} h := by
    rw [get?_store] at h
    split at h
    · cases h; exact given_nextUid s r
    · exact (Change.insert r).given (hs.given h)

theorem get?_erase_some {s : Memory} {k k' : Key} {r : Record}
    (h : (s.records.erase k).get? k' = some r) : s.records.get? k' = some r := by
  rw [Table.get?_erase] at h
  split at h
  · cases h
  · exact h

theorem Change.wellFormed {s t : Memory} (h : Change s t) (hs : s.WellFormed) : t.WellFormed := by
  cases h with
  | none => exact hs
  | insert r => exact hs.store r
  | create r => exact ⟨(hs.store r).keyed, (hs.store r).given⟩
  | delete k r =>
    exact ⟨fun h => hs.keyed (get?_erase_some h), fun h => hs.given (get?_erase_some h)⟩

theorem Reachable.wellFormed {s : Memory} (h : Reachable s) : s.WellFormed := by
  induction h with
  | empty => exact ⟨nofun, nofun⟩
  | insert _ r ih => exact (change_insert _ r).wellFormed ih
  | create _ r ih => exact (change_create _ r).wellFormed ih
  | delete _ k u ih => exact (change_delete _ k u).wellFormed ih

/-! ## Incarnations do not come back -/

theorem Gone.store {s : Memory} {k : Key} {u : Option String} (h : s.Gone k u) (r : Record) :
    (s.store r).Gone k u where
  given := (Change.insert r).given h.given
  absent {r'} hr' := by
    rw [get?_store] at hr'
    split at hr'
    · cases hr'; exact h.given.nextUid_ne
    · exact h.absent hr'

/-- An incarnation that has left its key never comes back. -/
theorem Change.gone {s t : Memory} (h : Change s t) {k : Key} {u : Option String}
    (hg : s.Gone k u) : t.Gone k u := by
  cases h with
  | none => exact hg
  | insert r => exact hg.store r
  | create r => exact ⟨(hg.store r).given, (hg.store r).absent⟩
  | delete k' r => exact ⟨hg.given, fun h => hg.absent (get?_erase_some h)⟩

theorem kept_or_gone_store {s : Memory} (hs : s.WellFormed) {k : Key} {r : Record}
    (hr : s.records.get? k = some r) (r' : Record) :
    (s.store r').records.get? k = some r ∨ (s.store r').Gone k r.uid := by
  by_cases hk : k = r'.key
  · refine .inr ⟨(Change.insert r').given (hs.given hr), fun {q} hq => ?_⟩
    rw [get?_store, if_pos hk] at hq
    cases hq
    exact (hs.given hr).nextUid_ne
  · rw [get?_store, if_neg hk]
    exact .inl hr

/-- After a change an incarnation is where it was, or gone for good. -/
theorem Change.kept_or_gone {s t : Memory} (h : Change s t) (hs : s.WellFormed) {k : Key}
    {r : Record} (hr : s.records.get? k = some r) :
    t.records.get? k = some r ∨ t.Gone k r.uid := by
  cases h with
  | none => exact .inl hr
  | insert r' => exact kept_or_gone_store hs hr r'
  | create r' =>
    rcases kept_or_gone_store hs hr r' with h | h
    · exact .inl h
    · exact .inr ⟨h.given, h.absent⟩
  | delete k' r' h' =>
    by_cases hk : k = k'
    · subst hk
      refine .inr ⟨hs.given hr, fun {q} hq => ?_⟩
      simp only [Table.get?_erase, ↓reduceIte, reduceCtorEq] at hq
    · refine .inl ?_
      simpa only [Table.get?_erase, hk, ↓reduceIte] using hr

end Store.Memory

end InitLock
