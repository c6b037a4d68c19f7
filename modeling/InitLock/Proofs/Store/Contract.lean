import InitLock.Proofs.Store.Memory
import Mathlib.Data.List.Nodup

/-!
# The contract of the memory store

What holds of a store after any operations on the empty one. An operation that
fails changes nothing, and one that succeeds changes its own key only
(`Op.Step`). The incarnations that operations put into a store get the uids in
turn (`uid_incarnations`), so none gets the uid of another, and every record that
is there is one of them (`mem_incarnations`). Inserts at vacant keys, creates and
deletes keep the count of the records (`size_after`).
-/

namespace InitLock.Store.Memory

/-! ## Operations -/

inductive Op where
  | insert (record : Record)
  | read (key : Key)
  | create (record : Record)
  | delete (key : Key) (uid : Option String)
  deriving DecidableEq

namespace Op

def key : Op → Key
  | .insert r | .create r => r.key
  | .read k | .delete k _ => k

def run (s : Memory) : Op → Memory
  | .insert r => (s.insert r).2
  | .read _ => s
  | .create r => (s.create r).2
  | .delete k u => (s.delete k u).2

/-- Whether an operation succeeds; an insert always does. -/
def succeeds (s : Memory) : Op → Bool
  | .insert _ => true
  | .read k => (s.read k).isOk
  | .create r => (s.create r).1.isOk
  | .delete k u => (s.delete k u).1.isOk

def stores : Op → Bool
  | .insert _ | .create _ => true
  | .read _ | .delete _ _ => false

/-- The incarnation that an operation puts into a store, if it does: the record that is then under
its key. -/
def incarnation? (s : Memory) (op : Op) : Option Record :=
  if op.stores && op.succeeds s then (op.run s).records.get? op.key else none

/-- Whether an operation inserts a record under a vacant key. -/
def fillsVacant (s : Memory) : Op → Bool
  | .insert r => (s.records.get? r.key).isNone
  | .read _ | .create _ | .delete _ _ => false

end Op

def after (s : Memory) (ops : List Op) : Memory := ops.foldl Op.run s

def incarnations (s : Memory) : List Op → List Record
  | [] => []
  | op :: ops => (op.incarnation? s).toList ++ incarnations (op.run s) ops

/-- How many of the operations insert a record under a vacant key. -/
def vacantInserts (s : Memory) : List Op → Nat
  | [] => 0
  | op :: ops => (if op.fillsVacant s then 1 else 0) + vacantInserts (op.run s) ops

theorem after_append (s : Memory) (ops ops' : List Op) :
    s.after (ops ++ ops') = (s.after ops).after ops' := List.foldl_append

/-- What every operation keeps is kept by all of them. -/
theorem after_induct {P : Memory → Prop} (hrun : ∀ s op, P s → P (Op.run s op)) {s : Memory}
    (h : P s) (ops : List Op) : P (s.after ops) := by
  induction ops generalizing s with
  | nil => exact h
  | cons op ops ih => exact ih (hrun s op h)

/-! ## When an operation succeeds -/

section
variable {s : Memory} {k : Key} {r : Record} {u : Option String}

theorem create_eq_ok_iff :
    (s.create r).1 = .ok () ↔ r.ns ≠ "" ∧ r.name ≠ "" ∧ s.records.get? r.key = none := by
  have h := s.created r
  generalize s.create r = o at h
  cases h with
  | unnamed e h =>
    refine ⟨nofun, fun ⟨hns, hname, _⟩ => ?_⟩
    exact absurd h (not_or.2 ⟨hns, hname⟩)
  | taken other h => exact ⟨nofun, fun ⟨_, _, hnone⟩ => by simp [h] at hnone⟩
  | ok hns hname h => exact ⟨fun _ => ⟨hns, hname, h⟩, fun _ => rfl⟩

theorem delete_eq_ok_iff :
    (s.delete k u).1 = .ok () ↔ ∃ r, s.records.get? k = some r ∧ (u = none ∨ r.uid = u) := by
  have h := s.deleted k u
  generalize s.delete k u = o at h
  cases h with
  | notFound h => exact ⟨nofun, fun ⟨_, hr, _⟩ => by simp [h] at hr⟩
  | conflict r h hu hne =>
    refine ⟨nofun, fun ⟨r', hr', hu'⟩ => ?_⟩
    obtain rfl := Option.some.inj (h.symm.trans hr')
    rcases hu' with rfl | hu'
    · cases hu
    · exact absurd hu' hne
  | ok r h hu => exact ⟨fun _ => ⟨r, h, hu⟩, fun _ => rfl⟩

theorem read_eq_ok_iff : s.read k = .ok r ↔ s.records.get? k = some r := by
  unfold read
  cases s.records.get? k with
  | none => exact ⟨nofun, nofun⟩
  | some r' => simp

end

/-! ## What one operation does -/

/-- What an operation makes of a store: it leaves it as it is, or stores a record, which gets the
next uid, or deletes the record under its key. -/
inductive Op.Step (s : Memory) : Op → Memory → Prop
  | idle (op : Op) (hi : op.incarnation? s = none) (hf : op.fillsVacant s = false) : Step s op s
  | inserted (r : Record)
    (hi : (Op.insert r).incarnation? s = some { r with uid := some s.nextUid }) :
    Step s (.insert r) (s.store r)
  | created (r : Record) (hok : (Op.create r).succeeds s = true)
    (hi : (Op.create r).incarnation? s = some { r with uid := some s.nextUid })
    (h : s.records.get? r.key = none) :
    Step s (.create r) { s.store r with creates := s.creates + 1 }
  | deleted (k : Key) (u : Option String) (hok : (Op.delete k u).succeeds s = true) (r : Record)
    (h : s.records.get? k = some r) :
    Step s (.delete k u) { s with records := s.records.erase k, deletes := s.deletes + 1 }

theorem get?_store_self (s : Memory) (r : Record) :
    (s.store r).records.get? r.key = some { r with uid := some s.nextUid } := by
  rw [get?_store, if_pos rfl]

theorem Op.incarnation?_of_failure {s : Memory} {op : Op} (h : op.succeeds s = false) :
    op.incarnation? s = none := by
  rw [incarnation?, h, Bool.and_false, if_neg Bool.false_ne_true]

theorem Op.step (s : Memory) (op : Op) : op.Step s (op.run s) := by
  cases op with
  | insert r => exact .inserted r (get?_store_self s r)
  | read k => exact .idle _ rfl rfl
  | create r =>
    have hsucceeds : (Op.create r).succeeds s = (s.create r).1.isOk := rfl
    have hi (hok : (Op.create r).succeeds s = true) :
        (Op.create r).incarnation? s = (s.create r).2.records.get? r.key := by
      rw [incarnation?, hok]
      rfl
    show Step s _ (s.create r).2
    have h := s.created r
    generalize s.create r = o at h hsucceeds hi
    cases h with
    | unnamed | taken => exact .idle _ (incarnation?_of_failure hsucceeds) rfl
    | ok _ _ h => exact .created r hsucceeds ((hi hsucceeds).trans (get?_store_self s r)) h
  | delete k u =>
    have hsucceeds : (Op.delete k u).succeeds s = (s.delete k u).1.isOk := rfl
    show Step s _ (s.delete k u).2
    have h := s.deleted k u
    generalize s.delete k u = o at h hsucceeds
    cases h with
    | notFound | conflict => exact .idle _ rfl rfl
    | ok r h => exact .deleted k u hsucceeds r h

namespace Op.Step

variable {s t : Memory} {op : Op} {k : Key} {r : Record}

theorem change (h : op.Step s t) : Change s t := by
  cases h with
  | idle => exact .none
  | inserted r => exact .insert r
  | created r _ _ h => exact .create r h
  | deleted k u _ r h => exact .delete k r h

theorem eq_of_failure (h : op.Step s t) (hf : op.succeeds s = false) : t = s := by
  cases h with
  | idle => rfl
  | inserted => cases hf
  | created _ hok | deleted _ _ hok => cases hok.symm.trans hf

theorem get?_of_ne (h : op.Step s t) (hk : k ≠ op.key) :
    t.records.get? k = s.records.get? k := by
  cases h with
  | idle => rfl
  | inserted r | created r => exact (get?_store s r k).trans (if_neg hk)
  | deleted k' u => exact (Table.get?_erase s.records k' k).trans (if_neg hk)

/-- The uid of the incarnation that an operation puts into a store, and the uids given by then. -/
theorem uid_incarnation (h : op.Step s t) :
    (op.incarnation? s = none ∧ t.assigned = s.assigned) ∨
      ∃ r : Record, op.incarnation? s = some r ∧ r.uid = some (uid (s.assigned + 1)) ∧
        t.assigned = s.assigned + 1 := by
  cases h with
  | idle _ hi => exact .inl ⟨hi, rfl⟩
  | inserted r hi | created r _ hi => exact .inr ⟨_, hi, rfl, rfl⟩
  | deleted => exact .inl ⟨rfl, rfl⟩

/-- A record that is there after an operation was there before, or the operation has put it in. -/
theorem get?_or_incarnation (h : op.Step s t) (hr : t.records.get? k = some r) :
    s.records.get? k = some r ∨ op.incarnation? s = some r := by
  cases h with
  | idle => exact .inl hr
  | inserted r' hi | created r' _ hi =>
    rw [show _ = (s.store r').records.get? k from rfl, get?_store] at hr
    split at hr
    · exact .inr (hi.trans hr)
    · exact .inl hr
  | deleted k' u => exact .inl (get?_erase_some hr)

theorem size (h : op.Step s t) :
    t.records.size + t.deletes + s.creates =
      s.records.size + s.deletes + t.creates + if op.fillsVacant s then 1 else 0 := by
  cases h with
  | idle _ _ hf => simp only [hf, Bool.false_eq_true, ↓reduceIte, Nat.add_zero]
  | inserted r =>
    simp only [store, Table.size_insert, fillsVacant, ← Option.not_isSome]
    by_cases hr : (s.records.get? r.key).isSome
    · simp only [hr, ↓reduceIte, Bool.not_true, Bool.false_eq_true]
      omega
    · simp only [hr, Bool.false_eq_true, ↓reduceIte, Bool.not_false]
      omega
  | created r _ _ h =>
    simp only [store, Table.size_insert, fillsVacant, h, Option.isSome_none, Bool.false_eq_true,
      ↓reduceIte]
    omega
  | deleted k u _ r h =>
    have hsize := Table.size_erase s.records k
    simp only [h, Option.isSome_some, ↓reduceIte] at hsize
    simp only [fillsVacant, Bool.false_eq_true, ↓reduceIte]
    omega

end Op.Step

/-! ## What operations do -/

theorem wellFormed_after (ops : List Op) : (empty.after ops).WellFormed :=
  after_induct (fun s op h => (op.step s).change.wellFormed h) Reachable.empty.wellFormed ops

/-- No two records that are there have the same uid. -/
def Distinct (s : Memory) : Prop :=
  ∀ ⦃k k' : Key⦄ ⦃r r' : Record⦄, s.records.get? k = some r → s.records.get? k' = some r' →
    r.uid = r'.uid → k = k'

theorem Distinct.store {s : Memory} (hs : s.WellFormed) (h : s.Distinct) (r : Record) :
    (s.store r).Distinct := by
  intro k k' q q' hq hq' huid
  rw [get?_store] at hq hq'
  split at hq <;> split at hq'
  · next hk hk' => exact hk.trans hk'.symm
  · cases hq
    exact absurd huid (hs.given hq').nextUid_ne
  · cases hq'
    exact absurd huid.symm (hs.given hq).nextUid_ne
  · exact h hq hq' huid

theorem Change.distinct {s t : Memory} (h : Change s t) (hs : s.WellFormed) (hd : s.Distinct) :
    t.Distinct := by
  cases h with
  | none => exact hd
  | insert r | create r => exact Distinct.store hs hd r
  | delete k r => exact fun _ _ _ _ hq hq' => hd (get?_erase_some hq) (get?_erase_some hq')

theorem distinct_after (ops : List Op) : (empty.after ops).Distinct := by
  have h : (empty.after ops).WellFormed ∧ (empty.after ops).Distinct := by
    refine after_induct (P := fun s => s.WellFormed ∧ s.Distinct) (fun s op h => ?_)
      ⟨Reachable.empty.wellFormed, fun _ _ _ _ h => nomatch h⟩ ops
    have hc := (op.step s).change
    exact ⟨hc.wellFormed h.1, hc.distinct h.1 h.2⟩
  exact h.2

/-- How operations change the count of the records. -/
theorem size_after (s : Memory) (ops : List Op) :
    (s.after ops).records.size + (s.after ops).deletes + s.creates =
      s.records.size + s.deletes + (s.after ops).creates + vacantInserts s ops := by
  induction ops generalizing s with
  | nil => rfl
  | cons op ops ih =>
    have hstep := (op.step s).size
    have hrest := ih (op.run s)
    simp only [after, List.foldl_cons, vacantInserts] at hrest ⊢
    omega

/-! ## Incarnations -/

/-- The incarnations that operations put into a store have the uids that come next, in turn. -/
theorem uid_incarnations (s : Memory) (ops : List Op) :
    (incarnations s ops).map Record.uid =
      (List.range' (s.assigned + 1) (incarnations s ops).length).map fun n => some (uid n) := by
  induction ops generalizing s with
  | nil => rfl
  | cons op ops ih =>
    rcases (op.step s).uid_incarnation with ⟨hi, ha⟩ | ⟨r, hi, hu, ha⟩
    · simpa only [incarnations, hi, Option.toList_none, List.nil_append, ha] using ih (op.run s)
    · simp only [incarnations, hi, Option.toList_some, List.singleton_append, List.map_cons, hu,
        List.length_cons, List.range'_succ, ih (op.run s), ha]

theorem nodup_uid_incarnations (s : Memory) (ops : List Op) :
    ((incarnations s ops).map Record.uid).Nodup := by
  rw [uid_incarnations]
  exact List.Nodup.map (fun m n h => uid_inj (Option.some.inj h)) List.nodup_range'

/-- An incarnation that operations put into a store has a uid that was not given before. -/
theorem fresh_of_mem_incarnations {s : Memory} {ops : List Op} {r : Record}
    (h : r ∈ incarnations s ops) : r.uid.isSome ∧ ¬ s.Given r.uid := by
  have hu : r.uid ∈ (incarnations s ops).map Record.uid := List.mem_map_of_mem h
  rw [uid_incarnations] at hu
  obtain ⟨n, hn, hu⟩ := List.mem_map.1 hu
  rw [← hu]
  refine ⟨rfl, fun ⟨m, hm, he⟩ => ?_⟩
  have hge := (List.mem_range'_1.1 hn).1
  rw [uid_inj (Option.some.inj he)] at hge
  omega

/-- A record that is there after operations was there before, or they have put it in. -/
theorem mem_incarnations {s : Memory} {ops : List Op} {k : Key} {r : Record}
    (h : (s.after ops).records.get? k = some r) :
    s.records.get? k = some r ∨ r ∈ incarnations s ops := by
  induction ops generalizing s with
  | nil => exact .inl h
  | cons op ops ih =>
    rcases ih h with h | h
    · refine ((op.step s).get?_or_incarnation h).imp id fun hi => ?_
      exact List.mem_append_left _ (Option.mem_toList.2 hi)
    · exact .inr (List.mem_append_right _ h)

/-- A record whose uid had been given before the operations was there before them. -/
theorem get?_of_given {s : Memory} (ops : List Op) {k : Key} {r : Record} (hu : s.Given r.uid)
    (h : (s.after ops).records.get? k = some r) : s.records.get? k = some r :=
  (mem_incarnations h).resolve_right fun hr => (fresh_of_mem_incarnations hr).2 hu

theorem given_after {s : Memory} {u : Option String} (hu : s.Given u) (ops : List Op) :
    (s.after ops).Given u :=
  after_induct (P := fun s => s.Given u) (fun s op h => (op.step s).change.given h) hu ops

/-- A record that has the uid of an incarnation is that incarnation, which never left its key. -/
theorem get?_of_uid {past later : List Op} {k k' : Key} {r r' : Record}
    (hr : (empty.after past).records.get? k = some r)
    (hr' : (empty.after (past ++ later)).records.get? k' = some r') (hu : r'.uid = r.uid) :
    k' = k ∧ ∀ n, (empty.after (past ++ later.take n)).records.get? k = some r := by
  have hgiven : (empty.after past).Given r'.uid := hu ▸ (wellFormed_after past).given hr
  have hthere (n : Nat) : (empty.after (past ++ later.take n)).records.get? k' = some r' := by
    rw [after_append]
    refine get?_of_given (later.drop n) (given_after hgiven _) ?_
    rwa [← after_append, List.take_append_drop, ← after_append]
  have hfirst := hthere 0
  rw [List.take_zero, List.append_nil] at hfirst
  obtain rfl := distinct_after past hfirst hr hu
  obtain rfl := Option.some.inj (hfirst.symm.trans hr)
  exact ⟨rfl, hthere⟩

/-! ## The contract -/

/-- How the operations on a store succeed, and what they change. -/
structure Lawful (s : Memory) : Prop where
  insert (r : Record) :
    (s.insert r).2.records.get? r.key = some { r with uid := some (s.insert r).1 }
  read_iff (k : Key) (r : Record) : s.read k = .ok r ↔ s.records.get? k = some r
  create_iff (r : Record) :
    (s.create r).1 = .ok () ↔ r.ns ≠ "" ∧ r.name ≠ "" ∧ s.records.get? r.key = none
  create {r : Record} (h : (s.create r).1 = .ok ()) :
    ∃ u, (s.create r).2.records.get? r.key = some { r with uid := some u }
  delete_iff (k : Key) (u : String) :
    (s.delete k (some u)).1 = .ok () ↔ ∃ r, s.records.get? k = some r ∧ r.uid = some u
  delete_any_iff (k : Key) : (s.delete k none).1 = .ok () ↔ ∃ r, s.records.get? k = some r
  delete {k : Key} {u : Option String} (h : (s.delete k u).1 = .ok ()) :
    (s.delete k u).2.records.get? k = none
  /-- An operation that fails leaves the records, the uids given and both counters as they were. -/
  failure {op : Op} (h : op.succeeds s = false) : op.run s = s
  /-- An operation leaves the other keys as they were. -/
  frame {op : Op} {k : Key} (h : k ≠ op.key) : (op.run s).records.get? k = s.records.get? k

theorem lawful (s : Memory) : s.Lawful where
  insert r := get?_store_self s r
  read_iff _ _ := read_eq_ok_iff
  create_iff _ := create_eq_ok_iff
  create {r} h := by
    have hc := s.created r
    generalize s.create r = o at h hc
    cases hc with
    | unnamed | taken => cases h
    | ok => exact ⟨_, get?_store_self s r⟩
  delete_iff k u := by simp only [delete_eq_ok_iff, reduceCtorEq, false_or]
  delete_any_iff k := by simp only [delete_eq_ok_iff, true_or, and_true]
  delete {k u} h := by
    have hd := s.deleted k u
    generalize s.delete k u = o at h hd
    cases hd with
    | notFound | conflict => cases h
    | ok r => exact (Table.get?_erase s.records k k).trans (if_pos rfl)
  failure {op} h := (op.step s).eq_of_failure h
  frame {op _} h := (op.step s).get?_of_ne h

/-- What holds of a store after operations on the empty one. -/
structure Contract (ops : List Op) : Prop where
  lawful : (empty.after ops).Lawful
  /-- A record sits under its own key, and some operation has put it in. -/
  keyed {k : Key} {r : Record} (h : (empty.after ops).records.get? k = some r) :
    r.key = k ∧ r ∈ incarnations empty ops
  named {r : Record} (h : r ∈ incarnations empty ops) : r.uid.isSome
  /-- No uid was given to two incarnations. -/
  once : ((incarnations empty ops).map Record.uid).Nodup
  distinct : (empty.after ops).Distinct
  count : (empty.after ops).records.size + (empty.after ops).deletes =
    (empty.after ops).creates + vacantInserts empty ops
  /-- A delete with the uid of an incarnation removes that very incarnation or nothing. -/
  aimed {past later : List Op} (h : ops = past ++ later) {k k' : Key} {r : Record}
    (hr : (empty.after past).records.get? k = some r)
    (hok : ((empty.after ops).delete k' r.uid).1 = .ok ()) :
    k' = k ∧ ∀ n, (empty.after (past ++ later.take n)).records.get? k = some r

/-- A store in memory keeps its contract, whatever it is asked. -/
theorem contract (ops : List Op) : Contract ops where
  lawful := lawful _
  keyed h := by
    refine ⟨(wellFormed_after ops).keyed h, ?_⟩
    exact (mem_incarnations h).resolve_left (by simp [empty])
  named h := (fresh_of_mem_incarnations h).1
  once := nodup_uid_incarnations empty ops
  distinct := distinct_after ops
  count := by
    have h := size_after empty ops
    simpa only [empty, Table.size, Table.empty, List.length_nil, Nat.add_zero, Nat.zero_add] using h
  aimed {past later} h {k k' r} hr hok := by
    subst h
    obtain ⟨r', hr', hu⟩ := delete_eq_ok_iff.1 hok
    have hsome : r.uid ≠ none := by
      obtain ⟨n, -, hn⟩ := (wellFormed_after past).given hr
      rw [hn]
      exact Option.some_ne_none _
    exact get?_of_uid hr hr' (hu.resolve_left hsome)

end InitLock.Store.Memory
