import InitLock.Proofs.Mutex.Crowd
import InitLock.Proofs.Mutex.Ledger
import InitLock.Proofs.Mutex.Removal
import Mathlib.Data.List.Induction

/-!
# Clusters apart

Calls on many clusters run beside a run of the calls on one of them alone. The
other calls never ask about the key of that cluster (`Interleaving.asked_key`),
so they leave its record as it is; but all clusters draw their uids from one
counter, so the records of the two runs are twins. `Together` is what the two
stores have in common, and the turns of the cluster's calls keep it because the
stores mirror each other (`Local.mirrors`).
-/

namespace InitLock.Mutex

open Store (Memory)
open Store.Memory (Change)

/-- The move is one of a call on the cluster, puts a record under its key, or changes which machines
exist. -/
def Move.concerns (c : Config) (tasks : List Task) (cid : Key) : Move → Bool
  | .turn i _ | .fire i => (tasks[i]?).any fun t => t.cluster.id = cid
  | .insert r => r.key = c.keyOf cid
  | .kill _ _ | .revive _ _ => true

def Interleaving.outcome? (w : Interleaving) (i : Nat) : Option Outcome :=
  w.actors[i]?.bind Actor.outcome?

/-! ## Two stores -/

/-- Two states with the same machines and the same record under a key, uids aside. Paired uids have
been given by either store. -/
structure Local.Together (k : Key) (B : Pairing) (s s' : Local) : Prop where
  pairs : Relator.BiUnique B
  given {u u' : String} (h : B u u') : s.store.Given (some u) ∧ s'.store.Given (some u')
  left : s.store.WellFormed
  right : s'.store.WellFormed
  record : Option.Rel (Record.Twins B) (s.store.records.get? k) (s'.store.records.get? k)
  machines : s'.machines = s.machines

namespace Local

variable {k : Key} {B : Pairing} {s s' : Local} {r : Record} {fate : Fate}

theorem Together.vacant_iff (h : s.Together k B s') :
    s'.store.records.get? k = none ↔ s.store.records.get? k = none := by
  have hrecord := h.record
  generalize s.store.records.get? k = o, s'.store.records.get? k = o' at hrecord
  cases hrecord <;> simp

theorem Together.put (h : s.Together k B s') (hk : r.key = k) (n n' : Nat) :
    Together k (B.add s.store.nextUid s'.store.nextUid)
      { s with store := { s.store.store r with creates := n } }
      { s' with store := { s'.store.store r with creates := n' } } where
  pairs := Pairing.biUnique_add h.pairs (fun _ hu => (h.given hu).1.nextUid_ne rfl)
    fun _ hu => (h.given hu).2.nextUid_ne rfl
  given := by
    rintro u u' (hu | ⟨rfl, rfl⟩)
    · obtain ⟨hgiven, hgiven'⟩ := h.given hu
      exact ⟨(Change.insert r).given hgiven, (Change.insert r).given hgiven'⟩
    · exact ⟨s.store.given_nextUid r, s'.store.given_nextUid r⟩
  left := ⟨(h.left.store r).keyed, (h.left.store r).given⟩
  right := ⟨(h.right.store r).keyed, (h.right.store r).given⟩
  record := by
    show Option.Rel _ ((s.store.store r).records.get? k) ((s'.store.store r).records.get? k)
    rw [Memory.get?_store, Memory.get?_store, if_pos hk.symm, if_pos hk.symm]
    exact .some ⟨rfl, rfl, rfl, rfl, rfl, _, _, rfl, rfl, .inr ⟨rfl, rfl⟩⟩
  machines := h.machines

theorem Together.take (h : s.Together k B s') (n n' : Nat) :
    Together k B
      { s with store := { s.store with records := s.store.records.erase k, deletes := n } }
      { s' with
        store := { s'.store with records := s'.store.records.erase k, deletes := n' } } where
  pairs := h.pairs
  given := h.given
  left := ⟨fun hr => h.left.keyed (Memory.get?_erase_some hr),
    fun hr => h.left.given (Memory.get?_erase_some hr)⟩
  right := ⟨fun hr => h.right.keyed (Memory.get?_erase_some hr),
    fun hr => h.right.given (Memory.get?_erase_some hr)⟩
  record := by
    simp only [Table.get?_erase, ↓reduceIte]
    exact .none
  machines := h.machines

/-- The one store changes under other keys. -/
theorem Together.aside (h : s.Together k B s') {t : Local} (hc : Change s.store t.store)
    (hk : t.store.records.get? k = s.store.records.get? k) (hm : t.machines = s.machines) :
    t.Together k B s' where
  pairs := h.pairs
  given hu := ⟨hc.given (h.given hu).1, (h.given hu).2⟩
  left := hc.wellFormed h.left
  right := h.right
  record := by
    rw [hk]
    exact h.record
  machines := h.machines.trans hm.symm

theorem Together.withMachines (h : s.Together k B s') (f : Liveness → Liveness) :
    Together k B { s with machines := f s.machines } { s' with machines := f s'.machines } :=
  { h with machines := congrArg f h.machines }

/-! ## Answers of the two stores -/

theorem Together.read (h : s.Together k B s') :
    ReadAlike B k (s.store.read k) (s'.store.read k) := by
  have hrecord := h.record
  unfold Memory.read
  cases hget : s.store.records.get? k with
  | none =>
    rw [h.vacant_iff.2 hget]
    exact .error _
  | some r =>
    rw [hget] at hrecord
    generalize s'.store.records.get? k = o' at hrecord
    cases hrecord with
    | some ht => exact .ok (h.left.keyed hget) ht

theorem Together.create (h : s.Together k B s') (hk : r.key = k) :
    (s'.store.create r).1 = (s.store.create r).1 ∧ ∃ B', (∀ u u', B u u' → B' u u') ∧
      Together k B' (s.answer (.create r)).2 (s'.answer (.create r)).2 := by
  subst hk
  simp only [answer]
  unfold Memory.create
  by_cases hun : r.ns = "" ∨ r.name = ""
  · simp only [hun, ↓reduceIte]
    exact ⟨trivial, B, fun _ _ => id, h⟩
  · simp only [hun, ↓reduceIte]
    cases hget : s.store.records.get? r.key with
    | none =>
      simp only [h.vacant_iff.2 hget]
      exact ⟨trivial, _, fun _ _ => .inl, h.put rfl _ _⟩
    | some other =>
      obtain ⟨other', hget'⟩ : ∃ other', s'.store.records.get? r.key = some other' := by
        rw [← Option.ne_none_iff_exists']
        intro hnone
        rw [h.vacant_iff.1 hnone] at hget
        cases hget
      simp only [hget']
      exact ⟨trivial, B, fun _ _ => id, h⟩

theorem Together.delete (h : s.Together k B s') {u u' : String} (hu : B u u') :
    (s'.store.delete k (some u')).1 = (s.store.delete k (some u)).1 ∧
      Together k B (s.answer (.delete k (some u))).2 (s'.answer (.delete k (some u'))).2 := by
  have hrecord := h.record
  simp only [answer]
  unfold Memory.delete
  cases hget : s.store.records.get? k with
  | none =>
    simp only [h.vacant_iff.2 hget]
    exact ⟨trivial, h⟩
  | some r =>
    rw [hget] at hrecord
    generalize hget' : s'.store.records.get? k = o' at hrecord
    cases hrecord with
    | @some _ r' ht =>
      obtain ⟨v, v', hv, hv', hp⟩ := ht.uids
      have hsame : v = u ↔ v' = u' :=
        ⟨fun he => h.pairs.2 (he ▸ hp) hu, fun he => h.pairs.1 (he ▸ hp) hu⟩
      simp only [hv, hv', Option.isSome_some, true_and, ne_eq, Option.some.injEq, hsame]
      split
      · exact ⟨rfl, h⟩
      · exact ⟨rfl, h.take _ _⟩

theorem replies_under (fate : Fate) (q : Question) (s : Local) :
    (backendUnder fate).Replies q s (s.meet fate q).1 (s.meet fate q).2 := ⟨rfl, rfl, rfl⟩

/-- The two stores answer questions about the record alike, whatever the fate of the questions. -/
theorem mirrors (t : Task) (fate : Fate) :
    Mirrors (Together t.key) t (backendUnder fate) (backendUnder fate) where
  read {B s s'} h := by
    refine ⟨_, _, _, _, replies_under fate _ s, replies_under fate _ s', ?_⟩
    cases fate with
    | arrives | told => exact ⟨h.read, h⟩
    | lost | refused => exact ⟨.error _, h⟩
  create _ {B s s'} h := by
    obtain ⟨hanswer, B', hB, h'⟩ := h.create (r := t.newRecord) rfl
    have hreplies := replies_under fate (.create t.newRecord) s
    have hreplies' := replies_under fate (.create t.newRecord) s'
    cases fate with
    | arrives | told => exact ⟨B', _, _, _, hB, hreplies, hanswer ▸ hreplies', h'⟩
    | lost => exact ⟨B', _, _, _, hB, hreplies, hreplies', h'⟩
    | refused => exact ⟨B, _, _, _, fun _ _ => id, hreplies, hreplies', h⟩
  delete _ {B s s'} h u u' hu := by
    obtain ⟨hanswer, h'⟩ := h.delete hu
    have hreplies := replies_under fate (.delete t.key (some u)) s
    have hreplies' := replies_under fate (.delete t.key (some u')) s'
    cases fate with
    | arrives | told => exact ⟨_, _, _, hreplies, hanswer ▸ hreplies', h'⟩
    | lost => exact ⟨_, _, _, hreplies, hreplies', h'⟩
    | refused => exact ⟨_, _, _, hreplies, hreplies', h⟩

theorem machines_meet (s : Local) (fate : Fate) (q : Question) :
    (s.meet fate q).2.machines = s.machines := by
  cases fate <;> cases q <;> rfl

end Local

/-! ## Turns of the cluster's calls -/

/-- What the call is told if its turn asks whether a machine exists. -/
def Actor.told (fate : Fate) (a : Actor) (s : Local) : Except Error Bool :=
  match a.stage with
  | some (.checking _ holder) => (s.meet fate (.alive a.task.lookupNs holder)).1
  | _ => .ok true

section
variable {B : Pairing} {a a' : Actor} {s s' : Local} {fate : Fate}

/-- A turn asks for one machine at most, so its answer can be given beforehand. -/
theorem Interleaving.advance_told (fate : Fate) (a : Actor) (s : Local) :
    advance fate a s = a.advance ((Local.backendUnder fate).telling (a.told fate s)) s := by
  obtain ⟨task, fired, stage⟩ := a
  cases stage with
  | none => rfl
  | some stage =>
    cases stage with
    | reading | creating | rereading | deleting | stalled | ended => rfl
    | checking r holder => cases fate <;> rfl

theorem Actor.Alike.told_eq (h : a.Alike B a') (hm : s'.machines = s.machines) :
    a'.told fate s' = a.told fate s := by
  obtain ⟨task, fired, stage⟩ := a
  obtain ⟨task', fired', stage'⟩ := a'
  obtain rfl : task' = task := h.task
  have hstage := h.stage
  dsimp only at hstage
  cases hstage with
  | none => rfl
  | some hstage =>
    cases hstage with
    | reading | creating | rereading | deleting | ended => rfl
    | checking _ _ _ holder =>
      cases fate with
      | arrives => exact congrArg (fun l => Except.ok (Liveness.alive l task'.lookupNs holder)) hm
      | told | lost | refused => rfl

/-- A call takes the same turn in two states that go together. -/
theorem Actor.Alike.advance_together (h : a.Alike B a') (hs : s.Together a.task.key B s') :
    Option.Rel (Run.Alike (Local.Together a.task.key) B a.task)
      (Interleaving.advance fate a s) (Interleaving.advance fate a' s') := by
  rw [Interleaving.advance_told, Interleaving.advance_told, h.told_eq hs.machines]
  exact h.advance (Local.mirrors _ fate) _ hs

end

/-! ## Two interleavings -/

/-- The same call in two interleavings, equally far if it is on the cluster. -/
structure Actor.Beside (c : Config) (cid : Key) (B : Pairing) (a a' : Actor) : Prop where
  config : a.task.config = c
  task : a'.task = a.task
  alike (h : a.task.cluster.id = cid) : a.Alike B a'

/-- The same calls in two interleavings, of which those on the cluster have come equally far. -/
structure Interleaving.Beside (c : Config) (cid : Key) (B : Pairing) (w w' : Interleaving) :
    Prop where
  actors (i : Nat) : Option.Rel (Actor.Beside c cid B) w.actors[i]? w'.actors[i]?
  shared : w.shared.Together (c.keyOf cid) B w'.shared

/-- The calls on the cluster have ended in the same way, and the cluster has the same record, uids
aside. -/
structure Interleaving.Agree (c : Config) (tasks : List Task) (cid : Key) (B : Pairing)
    (w w' : Interleaving) : Prop where
  outcomes {i : Nat} {t : Task} (ht : tasks[i]? = some t) (hid : t.cluster.id = cid) :
    w'.outcome? i = w.outcome? i
  record : Option.Rel (Record.Twins B) (w.shared.store.records.get? (c.keyOf cid))
    (w'.shared.store.records.get? (c.keyOf cid))

namespace Actor.Beside

variable {c : Config} {cid : Key} {B B' : Pairing} {a a' : Actor}

theorem mono (h : a.Beside c cid B a') (hB : ∀ u u', B u u' → B' u u') : a.Beside c cid B' a' :=
  { h with alike := fun hcid => (h.alike hcid).mono hB }

theorem key_eq (h : a.Beside c cid B a') (hcid : a.task.cluster.id = cid) :
    a.task.key = c.keyOf cid := by
  rw [← hcid, ← h.config]
  rfl

end Actor.Beside

namespace Moment

variable {x : Moment} {k : Key}

/-- The record under a key changes by effects on the key and inserts under it only. -/
theorem get?_of_ne (he : ∀ e, x.effect = some e → e.key ≠ k)
    (hr : ∀ r, x.move = .insert r → r.key ≠ k) :
    x.after.shared.store.records.get? k = x.before.shared.store.records.get? k := by
  have hx := x.stored
  generalize heff : x.effect = e, x.after.shared.store = t at hx ⊢
  cases hx with
  | kept => rfl
  | inserted r hm => exact (Memory.get?_store ..).trans (if_neg fun h => hr r hm h.symm)
  | created r =>
    exact (Memory.get?_store ..).trans (if_neg fun h => he _ heff h.symm)
  | removed k' r =>
    exact (Table.get?_erase ..).trans (if_neg fun h => he _ heff h.symm)

theorem machines_eq (hkill : ∀ ns machine, x.move ≠ .kill ns machine)
    (hrevive : ∀ ns machine, x.move ≠ .revive ns machine) :
    x.after.shared.machines = x.before.shared.machines := by
  obtain ⟨w, m⟩ := x
  have hstep := w.stepped m
  unfold after
  generalize w.step m = o at hstep
  cases hstep with
  | idle | fire | insert => rfl
  | kill ns machine => exact absurd rfl (hkill ns machine)
  | revive ns machine => exact absurd rfl (hrevive ns machine)
  | turn i fate _ hr =>
    cases hr with
    | begun => exact congrArg Local.machines Actor.first_state
    | cancelled => rfl
    | asked _ _ _ hm =>
      show Local.machines _ = _
      rw [hm.state]
      exact Local.machines_meet _ _ _

end Moment

namespace Interleaving

section
variable {c : Config} {cid : Key} {B : Pairing} {w w' : Interleaving} {i : Nat}

theorem Beside.turn (h : w.Beside c cid B w') (fate : Fate)
    (hid : ∀ a, w.actors[i]? = some a → a.task.cluster.id = cid) :
    ∃ B', (∀ u u', B u u' → B' u u') ∧
      (w.turn i fate).2.Beside c cid B' (w'.turn i fate).2 := by
  have hadvance : Option.Rel (fun r r' => ∃ a, w.actors[i]? = some a ∧
      Run.Alike (Local.Together (c.keyOf cid)) B a.task r r')
      (w.actors[i]?.bind fun a => advance fate a w.shared)
      (w'.actors[i]?.bind fun a => advance fate a w'.shared) := by
    have hi := h.actors i
    cases ha : w.actors[i]? with
    | none =>
      rw [ha] at hi
      generalize w'.actors[i]? = o' at hi
      cases hi
      exact .none
    | some a =>
      rw [ha] at hi
      generalize w'.actors[i]? = o' at hi
      cases hi with
      | some hab =>
        have hshared := h.shared
        rw [← hab.key_eq (hid a ha)] at hshared ⊢
        exact rel_mono ((hab.alike (hid a ha)).advance_together hshared) fun _ _ hr => ⟨a, rfl, hr⟩
  simp only [Interleaving.turn]
  generalize (w.actors[i]?.bind fun a => advance fate a w.shared) = o at hadvance
  generalize (w'.actors[i]?.bind fun a => advance fate a w'.shared) = o' at hadvance
  cases hadvance with
  | none => exact ⟨B, fun _ _ => id, h⟩
  | some hr =>
    obtain ⟨a₀, ha₀, B', hB, hstage, hs⟩ := hr
    refine ⟨B', hB, rel_modify i h.actors (fun _ _ hab => hab.mono hB) ?_, hs⟩
    intro a a' ha _ hab
    obtain rfl : a₀ = a := Option.some.inj (ha₀.symm.trans ha)
    exact ⟨hab.config, hab.task, fun hcid => (hab.alike hcid).goTo hstage⟩

/-- What is about the cluster or about machines happens in both interleavings. -/
theorem Beside.step (h : w.Beside c cid B w') (m : Move)
    (hid : ∀ i a, (∃ fate, m = .turn i fate) → w.actors[i]? = some a → a.task.cluster.id = cid)
    (hr : ∀ r, m = .insert r → r.key = c.keyOf cid) :
    ∃ B', (∀ u u', B u u' → B' u u') ∧ (w.step m).2.Beside c cid B' (w'.step m).2 := by
  cases m with
  | turn i fate => exact h.turn fate fun a ha => hid i a ⟨fate, rfl⟩ ha
  | fire i =>
    refine ⟨B, fun _ _ => id, rel_modify i h.actors (fun _ _ => id) ?_, h.shared⟩
    intro a a' _ _ hab
    refine ⟨hab.config, hab.task, fun hcid => ?_⟩
    exact ⟨hab.task, rfl, (hab.alike hcid).stage⟩
  | kill ns machine =>
    exact ⟨B, fun _ _ => id, h.actors, h.shared.withMachines fun l => l.remove ns machine⟩
  | revive ns machine =>
    exact ⟨B, fun _ _ => id, h.actors, h.shared.withMachines fun l => l.add ns machine⟩
  | insert r =>
    have hshared := h.shared.put (hr r rfl) w.shared.store.creates w'.shared.store.creates
    exact ⟨_, fun _ _ => .inl,
      fun i => rel_mono (h.actors i) fun _ _ hab => hab.mono fun _ _ => .inl, hshared⟩

/-- What calls on other clusters do in one interleaving is nothing to the other. -/
theorem Beside.aside {m : Move} (h : w.Beside c cid B w')
    (hid : ∀ i a, (∃ fate, m = .turn i fate) ∨ m = .fire i → w.actors[i]? = some a →
      a.task.cluster.id ≠ cid)
    (he : ∀ e, (⟨w, m⟩ : Moment).effect = some e → e.key ≠ c.keyOf cid)
    (hr : ∀ r, m = .insert r → r.key ≠ c.keyOf cid)
    (hkill : ∀ ns machine, m ≠ .kill ns machine) (hrevive : ∀ ns machine, m ≠ .revive ns machine) :
    (w.step m).2.Beside c cid B w' where
  actors j := by
    have hj := h.actors j
    cases ha : w.actors[j]? with
    | none =>
      rw [ha] at hj
      have : (w.step m).2.actors[j]? = none := by
        rw [List.getElem?_eq_none_iff] at ha ⊢
        rw [← (⟨w, m⟩ : Moment).length_actors] at ha
        exact ha
      rw [this]
      exact hj
    | some a =>
      rw [ha] at hj
      obtain ⟨b, hb, hact⟩ := (⟨w, m⟩ : Moment).acted_before ha
      rw [show (w.step m).2.actors[j]? = some b from hb]
      generalize w'.actors[j]? = o' at hj
      cases hj with
      | some hab =>
        refine .some ?_
        generalize (Moment.exchanges _ j) = es at hact
        cases hact with
        | rested => exact hab
        | fired hm =>
          exact ⟨hab.config, hab.task, fun hcid => absurd hcid (hid j a (.inr hm) ha)⟩
        | turned hm =>
          exact ⟨hab.config, hab.task, fun hcid => absurd hcid (hid j a (.inl ⟨_, hm⟩) ha)⟩
  shared := h.shared.aside (Moment.change ⟨w, m⟩) (Moment.get?_of_ne he hr)
    (Moment.machines_eq (x := ⟨w, m⟩) hkill hrevive)

theorem Beside.agree {tasks : List Task} {s : Local} {ms : List Move}
    (h : ((ofTasks tasks s).after ms).Beside c cid B w') :
    ((ofTasks tasks s).after ms).Agree c tasks cid B w' where
  outcomes {i t} ht hid := by
    have hi := h.actors i
    unfold outcome?
    cases ha : ((ofTasks tasks s).after ms).actors[i]? with
    | none =>
      have hlen := (List.getElem?_eq_some_iff.1 ht).1
      rw [List.getElem?_eq_none_iff, length_actors_after, ofTasks, List.length_map] at ha
      omega
    | some a =>
      obtain rfl := task_after ht ha
      rw [ha] at hi
      generalize w'.actors[i]? = o' at hi
      cases hi with
      | some hab => exact (hab.alike hid).outcome?_eq
  record := h.shared.record

/-- The uids of the cluster's record are a pair. -/
theorem Agree.paired {tasks : List Task} (h : w.Agree c tasks cid B w') {u u' : String}
    (hu : (w.shared.store.records.get? (c.keyOf cid)).bind Record.uid = some u)
    (hu' : (w'.shared.store.records.get? (c.keyOf cid)).bind Record.uid = some u') : B u u' := by
  have hrecord := h.record
  generalize w.shared.store.records.get? (c.keyOf cid) = o at hrecord hu
  generalize w'.shared.store.records.get? (c.keyOf cid) = o' at hrecord hu'
  cases hrecord with
  | none => cases hu
  | some ht =>
    obtain ⟨v, v', hv, hv', hp⟩ := ht.uids
    rw [Option.bind_some, hv] at hu
    rw [Option.bind_some, hv'] at hu'
    cases hu
    cases hu'
    exact hp

theorem Agree.mono {tasks : List Task} {B' : Pairing} (h : w.Agree c tasks cid B w')
    (hB : ∀ u u', B u u' → B' u u') : w.Agree c tasks cid B' w' where
  outcomes := h.outcomes
  record := rel_mono h.record fun _ _ ht => ht.mono hB

end

section
variable {c : Config} {tasks : List Task} {s : Local} {ms : List Move} {cid : Key} {i : Nat}
  {t : Task} {B : Pairing} {w' : Interleaving}

theorem key_ne_of_id (hc : ∀ t ∈ tasks, t.config = c) (ht : tasks[i]? = some t)
    (hid : t.cluster.id ≠ cid) : t.key ≠ c.keyOf cid := by
  intro hkey
  have hkey' : t.key = c.keyOf t.cluster.id := by
    rw [← hc t (List.mem_of_getElem? ht)]
    rfl
  exact hid (c.keyOf_inj (hkey'.symm.trans hkey))

/-- Calls on other clusters ask nothing about the cluster's record. -/
theorem unasked_elsewhere (hc : ∀ t ∈ tasks, t.config = c) (hs : s.store.WellFormed) {x : Moment}
    (hx : x ∈ (ofTasks tasks s).history ms) (ht : tasks[i]? = some t) (hid : t.cluster.id ≠ cid)
    {e : Exchange} (he : e ∈ x.exchanges i) : e.question.key? ≠ some (c.keyOf cid) := by
  rcases asked_key tasks hs hx ht he with h | h <;> rw [h]
  · nofun
  · exact fun hkey => key_ne_of_id hc ht hid (Option.some.inj hkey)

theorem beside_start (hc : ∀ t ∈ tasks, t.config = c) (hs : s.store.WellFormed) (cid : Key) :
    (ofTasks tasks s).Beside c cid (fun u u' => u = u' ∧ s.store.Given (some u))
      (ofTasks tasks s) where
  actors i := by
    rw [ofTasks, List.getElem?_map]
    cases ht : tasks[i]? with
    | none => exact .none
    | some t => exact .some ⟨hc t (List.mem_of_getElem? ht), rfl, fun _ => ⟨rfl, rfl, .none⟩⟩
  shared :=
    { pairs := ⟨fun _ _ _ h h' => h.1.trans h'.1.symm, fun _ _ _ h h' => h.1.symm.trans h'.1⟩
      given := fun ⟨he, hu⟩ => ⟨hu, he ▸ hu⟩
      left := hs
      right := hs
      record := by
        show Option.Rel _ (s.store.records.get? _) (s.store.records.get? _)
        cases hr : s.store.records.get? (c.keyOf cid) with
        | none => exact .none
        | some r =>
          obtain ⟨n, hn, hu⟩ := hs.given hr
          exact .some ⟨rfl, rfl, rfl, rfl, rfl, _, _, hu, hu, rfl, n, hn, rfl⟩
      machines := rfl }

/-- One move more, and the same move beside it if it concerns the cluster. -/
theorem Beside.concat (hc : ∀ t ∈ tasks, t.config = c) (hs : s.store.WellFormed)
    (h : ((ofTasks tasks s).after ms).Beside c cid B w') (m : Move) :
    ∃ B', (∀ u u', B u u' → B' u u') ∧ ((ofTasks tasks s).after (ms ++ [m])).Beside c cid B'
      (w'.after ([m].filter (Move.concerns c tasks cid))) := by
  have htask (j : Nat) (a : Actor) (ha : ((ofTasks tasks s).after ms).actors[j]? = some a) :
      tasks[j]? = some a.task := (fits_after tasks s ms ha).1
  rw [after_concat]
  cases hm : m.concerns c tasks cid with
  | true =>
    rw [List.filter_cons_of_pos hm]
    refine h.step m ?_ ?_
    · rintro j a ⟨fate, rfl⟩ ha
      simpa [Move.concerns, htask j a ha] using hm
    · rintro r rfl
      simpa [Move.concerns] using hm
  | false =>
    rw [List.filter_cons_of_neg (by rw [hm]; exact Bool.false_ne_true)]
    refine ⟨B, fun _ _ => id, h.aside ?_ ?_ ?_ ?_ ?_⟩
    · rintro j a (⟨fate, rfl⟩ | rfl) ha <;> simpa [Move.concerns, htask j a ha] using hm
    · intro e he
      obtain ⟨j, fate, y, hj, hy, -⟩ := Moment.asked_of_effect _ he
      obtain ⟨_, a, _, _, _, -, ha, -⟩ := Moment.asked _ hy
      have hkey := key_of_effect tasks hs (mem_history_concat _ ms m) hj he
      rw [htask j a ha] at hkey
      rw [← Option.some.inj hkey]
      refine key_ne_of_id hc (htask j a ha) ?_
      obtain rfl : m = _ := hj
      simpa [Move.concerns, htask j a ha] using hm
    · rintro r rfl
      simpa [Move.concerns] using hm
    · rintro ns machine rfl
      cases hm
    · rintro ns machine rfl
      cases hm

/-- A schedule on many clusters goes beside the moves of it that concern one of them. -/
theorem beside_alone (hc : ∀ t ∈ tasks, t.config = c) (hs : s.store.WellFormed) (cid : Key)
    (ms : List Move) :
    ∃ B : Pairing, (∀ u, s.store.Given (some u) → B u u) ∧
      ((ofTasks tasks s).after ms).Beside c cid B
        ((ofTasks tasks s).after (ms.filter (Move.concerns c tasks cid))) ∧
      ∀ n, ((ofTasks tasks s).after (ms.take n)).Agree c tasks cid B
        ((ofTasks tasks s).after ((ms.take n).filter (Move.concerns c tasks cid))) := by
  induction ms using List.reverseRecOn with
  | nil =>
    have hstart := beside_start hc hs cid
    refine ⟨_, fun u hu => ⟨rfl, hu⟩, hstart, fun n => ?_⟩
    rw [List.take_nil]
    have hnil : ((ofTasks tasks s).after []).Beside c cid _ (ofTasks tasks s) := hstart
    exact hnil.agree
  | append_singleton ms m ih =>
    obtain ⟨B, hB, hbeside, hagree⟩ := ih
    obtain ⟨B', hBB', h'⟩ := hbeside.concat hc hs m
    rw [← after_append, ← List.filter_append] at h'
    refine ⟨B', fun u hu => hBB' u u (hB u hu), h', fun n => ?_⟩
    rcases Nat.lt_or_ge ms.length n with hlt | hle
    · rw [List.take_of_length_le (by rw [List.length_append]; exact hlt)]
      exact h'.agree
    · rw [List.take_append_of_le_length hle]
      exact (hagree n).mono hBB'

/-- Clusters do not interfere: calls on any number of clusters, under one configuration and in any
order, end for each cluster as the calls on that cluster alone do, and after every step leave the
same record for it; only its uid may be another one, by one pairing for the whole run. Calls on
other clusters never ask about the record. -/
theorem clusters_apart (hc : ∀ t ∈ tasks, t.config = c) (hs : s.store.Reachable) (ms : List Move)
    (cid : Key) :
    (∃ B : Pairing, Relator.BiUnique B ∧ (∀ u, s.store.Given (some u) → B u u) ∧
      ∀ n, ((ofTasks tasks s).after (ms.take n)).Agree c tasks cid B
        ((ofTasks tasks s).after ((ms.take n).filter (Move.concerns c tasks cid)))) ∧
    ∀ x ∈ (ofTasks tasks s).history ms, ∀ i t, tasks[i]? = some t → t.cluster.id ≠ cid →
      ∀ e ∈ x.exchanges i, e.question.key? ≠ some (c.keyOf cid) := by
  obtain ⟨B, hB, hbeside, hagree⟩ := beside_alone hc hs.wellFormed cid ms
  exact ⟨⟨B, hbeside.shared.pairs, hB, hagree⟩,
    fun x hx i t ht hid e he => unasked_elsewhere hc hs.wellFormed hx ht hid he⟩

/-- A call on the cluster `c` and one on the cluster `d`. -/
def neighbours : List Task :=
  [.locking (.named "ns" "c" none) "a", .locking (.named "ns" "d" none) "b"]

/-- The call on `d` locks, then the one on `c`. -/
def abreast : List Move := [.turn 1, .turn 1, .turn 1, .turn 0, .turn 0, .turn 0]

/-- The record of `c` has the second uid where the call on `d` comes first, and else the first. -/
theorem clusters_apart_abreast :
    ∃ B : Pairing, Relator.BiUnique B ∧ B (Memory.uid 2) (Memory.uid 1) ∧
      ((ofTasks neighbours .empty).after (abreast.filter
        (Move.concerns .default neighbours ⟨"ns", "c"⟩))).outcome? 0 = some (.answered true) ∧
      ∀ n, ((ofTasks neighbours .empty).after (abreast.take n)).Agree .default neighbours
        ⟨"ns", "c"⟩ B ((ofTasks neighbours .empty).after ((abreast.take n).filter
          (Move.concerns .default neighbours ⟨"ns", "c"⟩))) := by
  have hc : ∀ t ∈ neighbours, t.config = .default := by decide
  obtain ⟨⟨B, hB, -, hagree⟩, -⟩ :=
    clusters_apart hc (s := .empty) .empty abreast ⟨"ns", "c"⟩
  have houtcome := (hagree 6).outcomes (i := 0) rfl rfl
  exact ⟨B, hB, (hagree 6).paired (by decide +kernel) (by decide +kernel),
    houtcome.trans (by decide +kernel), hagree⟩

end

end Interleaving

end InitLock.Mutex
