import InitLock.Proofs.Mutex.Turn
import Mathlib.Data.List.Forall2
import Mathlib.Data.Option.Basic
import Mathlib.Logic.Relator

/-!
# Calls that share a backend

A crowd is several calls that take turns on one backend. On the store in memory
that is an interleaving (`Crowd.follow_interleaving`), and a crowd of one call is
the run of that call (`Crowd.follow_alone`). Two backends mirror each
other (`Mirrors`) if their answers differ in uids alone, and these are paired.
Calls do not look at uids, so crowds on two such backends stay alike
(`Crowd.Alike.follow`).
-/

namespace InitLock

/-- Uids of one store paired with those of another. -/
abbrev Pairing := String → String → Prop

def Pairing.add (B : Pairing) (v v' : String) : Pairing := fun u u' => B u u' ∨ (u = v ∧ u' = v')

/-- Two uids that are in no pair make one. -/
theorem Pairing.biUnique_add {B : Pairing} {v v' : String} (hB : Relator.BiUnique B)
    (hleft : ∀ u', ¬ B v u') (hright : ∀ u, ¬ B u v') : Relator.BiUnique (B.add v v') := by
  constructor
  · rintro u w u' (hu | ⟨rfl, rfl⟩) (hw | ⟨rfl, hu'⟩)
    · exact hB.1 hu hw
    · exact absurd (hu' ▸ hu) (hright _)
    · exact absurd hw (hright _)
    · rfl
  · rintro u u' w' (hu | ⟨rfl, rfl⟩) (hw | ⟨hu', rfl⟩)
    · exact hB.2 hu hw
    · exact absurd (hu' ▸ hu) (hleft _)
    · exact absurd hw (hleft _)
    · rfl

/-- Two records that are equal but for their uids, which are paired. -/
structure Record.Twins (B : Pairing) (r r' : Record) : Prop where
  ns : r'.ns = r.ns
  name : r'.name = r.name
  labels : r'.labels = r.labels
  owner : r'.owner = r.owner
  data : r'.data = r.data
  uids : ∃ u u', r.uid = some u ∧ r'.uid = some u' ∧ B u u'

namespace Record.Twins

variable {B B' : Pairing} {r r' : Record}

theorem key_eq (h : r.Twins B r') : r'.key = r.key := by rw [key, key, h.ns, h.name]

theorem holder_eq (h : r.Twins B r') : r'.holder = r.holder := by
  simp only [holder, payload?, h.data, h.name]

theorem mono (h : r.Twins B r') (hB : ∀ u u', B u u' → B' u u') : r.Twins B' r' :=
  let ⟨u, u', hu, hu', hp⟩ := h.uids
  { h with uids := ⟨u, u', hu, hu', hB u u' hp⟩ }

end Record.Twins

namespace Mutex

variable {σ σ' : Type}

/-! ## Crowds -/

/-- Calls and the state of the backend they share. -/
structure Crowd (σ : Type) where
  actors : List Actor
  shared : σ

/-- A step of a crowd: a turn of a call, in which a question for a machine would get the given
answer, or the firing of its token. -/
inductive Crowd.Move where
  | turn (actor : Nat) (alive : Except Error Bool)
  | fire (actor : Nat)

/-- The backend with a given answer to questions for machines. -/
def Backend.telling (b : Backend σ) (alive : Except Error Bool) : Backend σ := fun q s =>
  match q with
  | .alive _ _ => (⟨some alive, false, []⟩, s)
  | q => b q s

def Actor.advance (b : Backend σ) (a : Actor) (s : σ) : Option (Run σ) :=
  match a.stage with
  | none =>
    let r := Run.begin a.task a.fired s
    some (if r.call.isOpen && r.noticed then r.cancel else r)
  | some stage =>
    let r : Run σ := ⟨⟨a.task, stage⟩, [], [], a.fired, s⟩
    if r.call.isOpen then some (r.turn b) else none

namespace Crowd

def ofTasks (tasks : List Task) (s : σ) : Crowd σ := ⟨tasks.map fun t => ⟨t, false, none⟩, s⟩

/-- One step; `b` is the backend as a task sees it. -/
def step (b : Task → Backend σ) (c : Crowd σ) : Move → Crowd σ
  | .turn i alive =>
    match c.actors[i]?.bind fun a => a.advance ((b a.task).telling alive) c.shared with
    | none => c
    | some r => ⟨c.actors.modify i fun a => a.goTo r.call.stage, r.state⟩
  | .fire i => { c with actors := c.actors.modify i fun a => { a with fired := true } }

def follow (b : Task → Backend σ) (c : Crowd σ) (ms : List Move) : Crowd σ := ms.foldl (step b) c

/-- How the calls have ended that have. -/
def outcomes (c : Crowd σ) : List (Option Outcome) := c.actors.map Actor.outcome?

def inMemory (tasks : List Task) (s : Local) (ms : List Move) : Crowd Local :=
  (ofTasks tasks s).follow (fun _ => Local.backend) ms

end Crowd

/-! ## Crowds in memory -/

theorem Local.backend_telling (alive : Bool) :
    Local.backend.telling (.ok alive) = Local.backendUnder (.told alive) := by
  funext q s
  cases q <;> rfl

def Interleaving.crowd (w : Interleaving) : Crowd Local := ⟨w.actors, w.shared⟩

/-- A move of an interleaving that is a move of a crowd as well. -/
inductive Move.IsMove : Move → Crowd.Move → Prop
  | turn (i : Nat) (alive : Bool) : IsMove (.turn i (.told alive)) (.turn i (.ok alive))
  | fire (i : Nat) : IsMove (.fire i) (.fire i)

theorem Crowd.step_interleaving {m : Mutex.Move} {m' : Crowd.Move} (h : m.IsMove m')
    (w : Interleaving) : w.crowd.step (fun _ => Local.backend) m' = (w.step m).2.crowd := by
  cases h with
  | fire => rfl
  | turn i alive =>
    simp only [step, Interleaving.step, Interleaving.turn, Local.backend_telling]
    have hadvance : (w.crowd.actors[i]?.bind fun a =>
        a.advance (Local.backendUnder (.told alive)) w.crowd.shared) =
      w.actors[i]?.bind fun a => Interleaving.advance (.told alive) a w.shared := rfl
    rw [hadvance]
    cases w.actors[i]?.bind fun a => Interleaving.advance (.told alive) a w.shared <;> rfl

/-- A crowd on the store in memory is an interleaving. -/
theorem Crowd.follow_interleaving {ms : List Mutex.Move} {ms' : List Crowd.Move}
    (h : List.Forall₂ Move.IsMove ms ms') (w : Interleaving) :
    w.crowd.follow (fun _ => Local.backend) ms' = (w.follow ms).2.crowd := by
  induction h generalizing w with
  | nil => rfl
  | cons hm _ ih =>
    rw [follow, List.foldl_cons, step_interleaving hm]
    exact ih _

/-! ## Stages alike -/

/-- Stages of calls of a task that differ in the uid of the record at most. Only a lock call comes
to create a record, and none that inspects deletes one. -/
inductive Stage.Alike (B : Pairing) (t : Task) : Stage → Stage → Prop
  | reading (ht : t.operation ≠ .lock "") : Alike B t .reading .reading
  | creating (ht : t.Locks) : Alike B t .creating .creating
  | rereading (ht : t.Locks) : Alike B t .rereading .rereading
  | checking (ht : t.Locks) {r r' : Record} (hk : r.key = t.key) (h : r.Twins B r')
    (holder : String) : Alike B t (.checking r holder) (.checking r' holder)
  | deleting (ho : t.operation ≠ .inspect) {r r' : Record} (hk : r.key = t.key) (h : r.Twins B r')
    (gone : Option String) : Alike B t (.deleting r gone) (.deleting r' gone)
  | ended (o : Outcome) : Alike B t (.ended o) (.ended o)

/-- Answers to a read of a key that differ in the uid of the record at most. -/
inductive ReadAlike (B : Pairing) (k : Key) :
    Except StoreError Record → Except StoreError Record → Prop
  | ok {r r' : Record} (hk : r.key = k) (h : r.Twins B r') : ReadAlike B k (.ok r) (.ok r')
  | error (e : StoreError) : ReadAlike B k (.error e) (.error e)

section
variable {B B' : Pairing} {t : Task} {stage stage' : Stage}

theorem Stage.Alike.mono (h : stage.Alike B t stage') (hB : ∀ u u', B u u' → B' u u') :
    stage.Alike B' t stage' := by
  cases h with
  | reading ht => exact .reading ht
  | creating ht => exact .creating ht
  | rereading ht => exact .rereading ht
  | checking ht hk h => exact .checking ht hk (h.mono hB) _
  | deleting ho hk h => exact .deleting ho hk (h.mono hB) _
  | ended o => exact .ended o

theorem Stage.Alike.isOpen_eq (h : stage.Alike B t stage') :
    Call.isOpen ⟨t, stage'⟩ = Call.isOpen ⟨t, stage⟩ := by
  cases h <;> rfl

theorem Stage.Alike.outcome?_eq (h : stage.Alike B t stage') :
    Call.outcome? ⟨t, stage'⟩ = Call.outcome? ⟨t, stage⟩ := by
  cases h <;> rfl

namespace Task

theorem alike_start (t : Task) : t.start.2.Alike B t t.start.2 := by
  have hf := t.fits_start
  rcases t.start_eq with h | h <;> rw [h] at hf ⊢
  · exact .reading hf
  · exact .ended _

/-- What a record means does not depend on its uid. -/
theorem alike_judge {r r' : Record} (ht : t.Locks) (hk : r.key = t.key) (h : r.Twins B r') :
    (judge t.machine r).2.Alike B t (judge t.machine r').2 := by
  simp only [judge, h.holder_eq]
  split
  · exact .ended _
  · split
    · exact .ended _
    · exact .checking ht hk h _

variable {a a' : Except StoreError Record}

theorem alike_afterRead (ht : t.operation ≠ .lock "") (h : ReadAlike B t.key a a') :
    (t.afterRead a).2.Alike B t (t.afterRead a').2 := by
  cases ho : t.operation with
  | lock machine =>
    obtain rfl := machine_of_lock ho
    have hlocks : t.Locks := ⟨ho, fun hm => ht (hm ▸ ho)⟩
    cases h with
    | ok hk h =>
      simp only [afterRead, ho]
      exact alike_judge hlocks hk h
    | error e =>
      cases e <;> simp only [afterRead, ho]
      · exact .creating hlocks
      all_goals exact .ended _
  | unlock =>
    cases h with
    | ok hk h =>
      simp only [afterRead, ho]
      exact .deleting (by simp [ho]) hk h none
    | error e => cases e <;> simp only [afterRead, ho] <;> exact .ended _
  | inspect =>
    cases h with
    | ok hk h =>
      simp only [afterRead, ho, h.holder_eq]
      split <;> exact .ended _
    | error e => cases e <;> simp only [afterRead, ho] <;> exact .ended _

theorem alike_afterReread (ht : t.Locks) (h : ReadAlike B t.key a a') :
    (afterReread t.machine a).2.Alike B t (afterReread t.machine a').2 := by
  cases h with
  | ok hk h => exact alike_judge ht hk h
  | error e => cases e <;> exact .ended _

theorem alike_afterCreate (ht : t.Locks) (a : Except StoreError Unit) :
    (afterCreate a).2.Alike B t (afterCreate a).2 := by
  unfold afterCreate
  split
  · exact .ended _
  · exact .rereading ht
  · exact .ended _

theorem alike_afterAlive {r r' : Record} (holder : String) (a : Except Error Bool) (ht : t.Locks)
    (hk : r.key = t.key) (h : r.Twins B r') :
    (afterAlive t.lookupNs r holder a).2.Alike B t (afterAlive t.lookupNs r' holder a).2 := by
  match a with
  | .ok true => exact .ended _
  | .ok false => exact .deleting (by simp [ht.operation]) hk h _
  | .error _ => exact .ended _

theorem alike_afterDelete (gone : Option String) (a : Except StoreError Unit) :
    (afterDelete gone a).2.Alike B t (afterDelete gone a).2 := by
  unfold afterDelete
  split <;> exact .ended _

end Task

end

/-! ## Backends that mirror each other -/

/-- A backend answers a question at once, and the token does not fire. -/
structure Backend.Replies (b : Backend σ) (q : Question) (s : σ) (a : q.Answer) (s' : σ) :
    Prop where
  answer : (b q s).1.answer = some a
  unfired : (b q s).1.fires = false
  state : (b q s).2 = s'

/-- Two backends that answer the questions of a task about its record alike, in states that
match. -/
structure Mirrors (M : Pairing → σ → σ' → Prop) (t : Task) (b : Backend σ) (b' : Backend σ') :
    Prop where
  read {B : Pairing} {s : σ} {s' : σ'} (h : M B s s') :
    ∃ a a' s₁ s₁', b.Replies (.read t.key) s a s₁ ∧ b'.Replies (.read t.key) s' a' s₁' ∧
      ReadAlike B t.key a a' ∧ M B s₁ s₁'
  create (ht : t.Locks) {B : Pairing} {s : σ} {s' : σ'} (h : M B s s') :
    ∃ B' a s₁ s₁', (∀ u u', B u u' → B' u u') ∧ b.Replies (.create t.newRecord) s a s₁ ∧
      b'.Replies (.create t.newRecord) s' a s₁' ∧ M B' s₁ s₁'
  delete (ho : t.operation ≠ .inspect) {B : Pairing} {s : σ} {s' : σ'} (h : M B s s')
    {u u' : String} (hu : B u u') :
    ∃ a s₁ s₁', b.Replies (.delete t.key (some u)) s a s₁ ∧
      b'.Replies (.delete t.key (some u')) s' a s₁' ∧ M B s₁ s₁'

/-- Two runs of calls that have come to stages alike, in states that match under a pairing that
goes on from `B`. -/
def Run.Alike (M : Pairing → σ → σ' → Prop) (B : Pairing) (t : Task) (r : Run σ) (r' : Run σ') :
    Prop :=
  ∃ B', (∀ u u', B u u' → B' u u') ∧ r.call.stage.Alike B' t r'.call.stage ∧
    M B' r.state r'.state

section
variable {b : Backend σ} {b' : Backend σ'} {r : Run σ} {r' : Run σ'} {q : Question}
  {resume : q.Answer → List Event × Stage} {M : Pairing → σ → σ' → Prop} {B : Pairing} {t : Task}

theorem Run.turn_noticed (hopen : r.call.isOpen = true) (hn : r.noticed = true) :
    r.turn b = r.cancel := by
  obtain ⟨q, resume, hq⟩ := next_of_isOpen hopen
  rw [turn, hq]
  exact if_pos hn

theorem Run.turn_replies (hq : r.call.task.next r.call.stage = .asks q resume)
    (hn : r.noticed = false) {a : q.Answer} {s' : σ} (h : b.Replies q r.state a s') :
    (r.turn b).call.stage = (resume a).2 ∧ (r.turn b).state = s' := by
  simp only [turn, hq, hn, h.answer, h.unfired, Bool.false_eq_true, ↓reduceIte]
  exact ⟨rfl, h.state⟩

theorem Backend.Replies.telling {s s' : σ} {a : q.Answer} (h : b.Replies q s a s')
    (hq : ∀ ns holder, q ≠ .alive ns holder) (alive : Except Error Bool) :
    (b.telling alive).Replies q s a s' := by
  cases q with
  | alive ns holder => exact absurd rfl (hq ns holder)
  | read | create | delete => exact ⟨h.answer, h.unfired, h.state⟩

theorem Run.alike_of_replies {q' : Question} {resume' : q'.Answer → List Event × Stage}
    {a : q.Answer} {a' : q'.Answer} {s : σ} {s' : σ'} {B' : Pairing}
    (hq : r.call.task.next r.call.stage = .asks q resume)
    (hq' : r'.call.task.next r'.call.stage = .asks q' resume') (hn : r.noticed = false)
    (hn' : r'.noticed = false) (h : b.Replies q r.state a s) (h' : b'.Replies q' r'.state a' s')
    (hB : ∀ u u', B u u' → B' u u') (hstage : (resume a).2.Alike B' t (resume' a').2)
    (hs : M B' s s') : Alike M B t (r.turn b) (r'.turn b') := by
  obtain ⟨hr, hrs⟩ := turn_replies hq hn h
  obtain ⟨hr', hrs'⟩ := turn_replies hq' hn' h'
  exact ⟨B', hB, by rwa [hr, hr'], by rwa [hrs, hrs']⟩

/-- Calls that are alike are cancelled alike. -/
theorem Run.Alike.cancel_if (h : r.Alike M B t r') {p p' : Bool} (hp : p' = p) :
    Alike M B t (if p then r.cancel else r) (if p' then r'.cancel else r') := by
  subst hp
  obtain ⟨B', hB, hstage, hs⟩ := h
  cases p' with
  | true => exact ⟨B', hB, .ended _, hs⟩
  | false => exact ⟨B', hB, hstage, hs⟩

/-- A turn takes calls that are alike to stages that are, on backends that mirror each other and
with the same answer for machines. -/
theorem Mirrors.turn (hm : Mirrors M t b b') (alive : Except Error Bool)
    (hopen : r.call.isOpen = true) (ht : r.call.task = t) (ht' : r'.call.task = t)
    (hfired : r'.fired = r.fired) (hstage : r.call.stage.Alike B t r'.call.stage)
    (hs : M B r.state r'.state) :
    Run.Alike M B t (r.turn (b.telling alive)) (r'.turn (b'.telling alive)) := by
  obtain ⟨⟨t₁, stage⟩, entries, exchanges, fired, s⟩ := r
  obtain ⟨⟨t₂, stage'⟩, entries', exchanges', fired', s'⟩ := r'
  obtain rfl : t₁ = t := ht
  obtain rfl : t₂ = t₁ := ht'
  obtain rfl : fired' = fired := hfired
  have hrefl : ∀ u u', B u u' → B u u' := fun _ _ => id
  cases hn : Run.noticed ⟨⟨t₂, stage⟩, entries, exchanges, fired', s⟩ with
  | true =>
    have hopen' : Call.isOpen ⟨t₂, stage'⟩ = true := hstage.isOpen_eq.trans hopen
    have hn' : Run.noticed ⟨⟨t₂, stage'⟩, entries', exchanges', fired', s'⟩ = true := hn
    rw [Run.turn_noticed hopen hn, Run.turn_noticed hopen' hn']
    exact ⟨B, hrefl, .ended _, hs⟩
  | false =>
    cases hstage with
    | ended => cases hopen
    | reading ht =>
      obtain ⟨a, a', s₁, s₁', h, h', ha, hs₁⟩ := hm.read hs
      exact Run.alike_of_replies rfl rfl hn hn (h.telling (by simp) alive)
        (h'.telling (by simp) alive) hrefl (Task.alike_afterRead ht ha) hs₁
    | creating ht =>
      obtain ⟨B', a, s₁, s₁', hB, h, h', hs₁⟩ := hm.create ht hs
      exact Run.alike_of_replies rfl rfl hn hn (h.telling (by simp) alive)
        (h'.telling (by simp) alive) hB (Task.alike_afterCreate ht a) hs₁
    | rereading ht =>
      obtain ⟨a, a', s₁, s₁', h, h', ha, hs₁⟩ := hm.read hs
      exact Run.alike_of_replies rfl rfl hn hn (h.telling (by simp) alive)
        (h'.telling (by simp) alive) hrefl (Task.alike_afterReread ht ha) hs₁
    | checking ht hk h holder =>
      exact Run.alike_of_replies rfl rfl hn hn ⟨rfl, rfl, rfl⟩ ⟨rfl, rfl, rfl⟩ hrefl
        (Task.alike_afterAlive holder alive ht hk h) hs
    | @deleting ho r r' hk h gone =>
      obtain ⟨u, u', hu, hu', hp⟩ := h.uids
      obtain ⟨a, s₁, s₁', ha, ha', hs₁⟩ := hm.delete ho hs hp
      have hr : b.Replies (.delete r.key r.uid) s a s₁ := by rwa [hk, hu]
      have hr' : b'.Replies (.delete r'.key r'.uid) s' a s₁' := by rwa [h.key_eq, hk, hu']
      exact Run.alike_of_replies rfl rfl hn hn (hr.telling (by simp) alive)
        (hr'.telling (by simp) alive) hrefl (Task.alike_afterDelete gone a) hs₁

end

/-! ## Crowds alike -/

/-- The same call in two crowds. -/
structure Actor.Alike (B : Pairing) (a a' : Actor) : Prop where
  task : a'.task = a.task
  fired : a'.fired = a.fired
  stage : Option.Rel (Stage.Alike B a.task) a.stage a'.stage

/-- Two crowds of the same calls, in states that match, on backends that mirror each other. -/
structure Crowd.Alike (M : Pairing → σ → σ' → Prop) (b : Task → Backend σ) (b' : Task → Backend σ')
    (B : Pairing) (c : Crowd σ) (c' : Crowd σ') : Prop where
  actors (i : Nat) : Option.Rel (fun a a' => Mirrors M a.task (b a.task) (b' a.task) ∧
    a.Alike B a') c.actors[i]? c'.actors[i]?
  shared : M B c.shared c'.shared

section
variable {B B' : Pairing} {a a' : Actor} {M : Pairing → σ → σ' → Prop} {c : Crowd σ}
  {c' : Crowd σ'}

theorem rel_mono {α β : Type} {R S : α → β → Prop} {o : Option α} {o' : Option β}
    (h : Option.Rel R o o') (hRS : ∀ a b, R a b → S a b) : Option.Rel S o o' := by
  cases h with
  | none => exact .none
  | some h => exact .some (hRS _ _ h)

/-- Lists that are related item by item stay so if related items are changed. -/
theorem rel_modify {α β : Type} {R S : α → β → Prop} {as : List α} {bs : List β} {f : α → α}
    {g : β → β} (i : Nat) (h : ∀ j : Nat, Option.Rel R as[j]? bs[j]?) (hRS : ∀ a b, R a b → S a b)
    (hfg : ∀ a b, as[i]? = some a → bs[i]? = some b → R a b → S (f a) (g b)) (j : Nat) :
    Option.Rel S (as.modify i f)[j]? (bs.modify i g)[j]? := by
  have hj := h j
  rw [List.getElem?_modify, List.getElem?_modify]
  generalize ha : as[j]? = o at hj
  generalize hb : bs[j]? = o' at hj
  cases hj with
  | none => exact .none
  | some hab =>
    refine .some ?_
    dsimp only
    split
    · next hij =>
      subst hij
      exact hfg _ _ ha hb hab
    · exact hRS _ _ hab

namespace Actor.Alike

theorem mono (h : a.Alike B a') (hB : ∀ u u', B u u' → B' u u') : a.Alike B' a' :=
  { h with stage := rel_mono h.stage fun _ _ hs => hs.mono hB }

theorem goTo {stage stage' : Stage} (h : a.Alike B a') (hs : stage.Alike B' a.task stage') :
    (a.goTo stage).Alike B' (a'.goTo stage') :=
  ⟨h.task, h.fired, .some hs⟩

theorem outcome?_eq (h : a.Alike B a') : a'.outcome? = a.outcome? := by
  obtain ⟨task, fired, stage⟩ := a
  obtain ⟨task', fired', stage'⟩ := a'
  obtain rfl : task' = task := h.task
  have hs := h.stage
  dsimp only at hs
  cases hs with
  | none => rfl
  | some hs => exact hs.outcome?_eq

/-- Calls that are alike take turns that are, on backends that mirror each other. -/
theorem advance {b : Backend σ} {b' : Backend σ'} {s : σ} {s' : σ'} (h : a.Alike B a')
    (hm : Mirrors M a.task b b') (alive : Except Error Bool) (hs : M B s s') :
    Option.Rel (Run.Alike M B a.task) (a.advance (b.telling alive) s)
      (a'.advance (b'.telling alive) s') := by
  obtain ⟨task, fired, stage⟩ := a
  obtain ⟨task', fired', stage'⟩ := a'
  obtain rfl : task' = task := h.task
  obtain rfl : fired' = fired := h.fired
  have hstage := h.stage
  dsimp only at hstage
  cases hstage with
  | none =>
    have hbegin : Run.Alike M B task' (Run.begin task' fired' s) (Run.begin task' fired' s') :=
      ⟨B, fun _ _ => id, task'.alike_start, hs⟩
    exact .some (hbegin.cancel_if rfl)
  | @some stage stage' hstage =>
    simp only [Actor.advance]
    cases hopen : Call.isOpen ⟨task', stage⟩ with
    | false =>
      have hopen' : Call.isOpen ⟨task', stage'⟩ = false := hstage.isOpen_eq.trans hopen
      simp only [hopen', Bool.false_eq_true, ↓reduceIte]
      exact .none
    | true =>
      have hopen' : Call.isOpen ⟨task', stage'⟩ = true := hstage.isOpen_eq.trans hopen
      simp only [hopen', ↓reduceIte]
      exact .some (hm.turn alive hopen rfl rfl rfl hstage hs)

end Actor.Alike

namespace Crowd

variable {b : Task → Backend σ} {b' : Task → Backend σ'}

/-- A step keeps crowds alike, with a pairing that goes on from theirs. -/
theorem Alike.step (h : c.Alike M b b' B c') (m : Move) :
    ∃ B', (∀ u u', B u u' → B' u u') ∧ (c.step b m).Alike M b b' B' (c'.step b' m) := by
  cases m with
  | fire i =>
    refine ⟨B, fun _ _ => id, rel_modify i h.actors (fun _ _ => id) ?_, h.shared⟩
    exact fun _ _ _ _ ⟨hm, ha⟩ => ⟨hm, ha.task, rfl, ha.stage⟩
  | turn i alive =>
    have hadvance : Option.Rel (fun r r' => ∃ a, c.actors[i]? = some a ∧
        Run.Alike M B a.task r r')
        (c.actors[i]?.bind fun a => a.advance ((b a.task).telling alive) c.shared)
        (c'.actors[i]?.bind fun a => a.advance ((b' a.task).telling alive) c'.shared) := by
      have hi := h.actors i
      generalize c.actors[i]? = o at hi
      generalize c'.actors[i]? = o' at hi
      cases hi with
      | none => exact .none
      | @some a a' ha =>
        simp only [Option.bind_some, ha.2.task]
        exact rel_mono (ha.2.advance ha.1 alive h.shared) fun _ _ hr => ⟨a, rfl, hr⟩
    simp only [Crowd.step]
    generalize (c.actors[i]?.bind fun a => a.advance ((b a.task).telling alive) c.shared) = o
      at hadvance
    generalize (c'.actors[i]?.bind fun a => a.advance ((b' a.task).telling alive) c'.shared) = o'
      at hadvance
    cases hadvance with
    | none => exact ⟨B, fun _ _ => id, h⟩
    | some hr =>
      obtain ⟨a, hai, B', hB, hstage, hs⟩ := hr
      refine ⟨B', hB, rel_modify i h.actors (fun _ _ ha => ⟨ha.1, ha.2.mono hB⟩) ?_, hs⟩
      intro a₀ a' ha₀ _ ⟨hm, ha⟩
      obtain rfl : a₀ = a := Option.some.inj (ha₀.symm.trans hai)
      exact ⟨hm, ha.goTo hstage⟩

/-- Crowds that are alike stay so, step by step; one pairing covers the whole schedule. -/
theorem Alike.follow (h : c.Alike M b b' B c') (ms : List Move) :
    ∃ B', (c.follow b ms).Alike M b b' B' (c'.follow b' ms) ∧ ∀ n, ∃ Bₙ,
      (∀ u u', B u u' → Bₙ u u') ∧ (∀ u u', Bₙ u u' → B' u u') ∧
        (c.follow b (ms.take n)).Alike M b b' Bₙ (c'.follow b' (ms.take n)) := by
  -- Only a create adds to the pairing, and what it adds stays; so the last pairing has them all.
  induction ms generalizing B c c' with
  | nil => exact ⟨B, h, fun n => ⟨B, fun _ _ => id, fun _ _ => id, by rw [List.take_nil]; exact h⟩⟩
  | cons m ms ih =>
    obtain ⟨B₁, hB₁, h₁⟩ := h.step m
    obtain ⟨B', h', hn⟩ := ih h₁
    refine ⟨B', h', fun n => ?_⟩
    cases n with
    | zero =>
      obtain ⟨B₀, hB₀, hB₀', -⟩ := hn 0
      exact ⟨B, fun _ _ => id, fun u u' hu => hB₀' u u' (hB₀ u u' (hB₁ u u' hu)), h⟩
    | succ n =>
      obtain ⟨Bₙ, hBₙ, hBₙ', hlike⟩ := hn n
      exact ⟨Bₙ, fun u u' hu => hBₙ u u' (hB₁ u u' hu), hBₙ', hlike⟩

theorem Alike.outcomes_eq (h : c.Alike M b b' B c') : c'.outcomes = c.outcomes := by
  refine List.ext_getElem? fun i => ?_
  have hi := h.actors i
  rw [outcomes, outcomes, List.getElem?_map, List.getElem?_map]
  generalize c.actors[i]? = o at hi
  generalize c'.actors[i]? = o' at hi
  cases hi with
  | none => rfl
  | some ha => exact congrArg some ha.2.outcome?_eq

/-! ## A call that is alone -/

/-- The first turn of a call that is alone. -/
theorem first_alone (t : Task) (s : σ) (alive : Except Error Bool) :
    (ofTasks [t] s).step b (.turn 0 alive) = ⟨[⟨t, false, some t.start.2⟩], s⟩ := by
  have hn : ((Run.begin t false s).call.isOpen && (Run.begin t false s).noticed) = false := by
    rw [Run.noticed, Run.begin, Bool.false_and, Bool.and_false]
  have hadvance : Actor.advance ((b t).telling alive) ⟨t, false, none⟩ s =
      some (Run.begin t false s) := by
    simp only [Actor.advance, hn, Bool.false_eq_true, ↓reduceIte]
  simp only [step, ofTasks, List.map_cons, List.map_nil, List.getElem?_cons_zero, Option.bind_some,
    hadvance]
  rfl

/-- A turn of a call that is alone and is answered at once. -/
theorem step_alone {t : Task} {stage : Stage} {q : Question} {s s' : σ} {a : q.Answer}
    {resume : q.Answer → List Event × Stage} {alive : Except Error Bool}
    (hq : t.next stage = .asks q resume) (h : ((b t).telling alive).Replies q s a s') :
    (⟨[⟨t, false, some stage⟩], s⟩ : Crowd σ).step b (.turn 0 alive) =
      ⟨[⟨t, false, some (resume a).2⟩], s'⟩ := by
  have hopen : Call.isOpen ⟨t, stage⟩ = true := Call.isOpen_iff.2 ⟨q, resume, hq⟩
  obtain ⟨hstage, hs⟩ := Run.turn_replies (r := ⟨⟨t, stage⟩, [], [], false, s⟩) hq rfl h
  simp only [step, List.getElem?_cons_zero, Option.bind_some, Actor.advance, hopen, ↓reduceIte,
    hstage, hs]
  rfl

/-- A step of a call that is alone is a turn of its run. -/
theorem step_run {alive : Except Error Bool} {t : Task} {r : Run σ}
    (hb : ∀ q s, ((b t).telling alive q s).1.fires = false) (ht : r.call.task = t)
    (hf : r.fired = false) :
    (⟨[⟨t, false, some r.call.stage⟩], r.state⟩ : Crowd σ).step b (.turn 0 alive) =
        ⟨[⟨t, false, some (r.turn ((b t).telling alive)).call.stage⟩],
          (r.turn ((b t).telling alive)).state⟩ ∧
      (r.turn ((b t).telling alive)).call.task = t ∧
      (r.turn ((b t).telling alive)).fired = false := by
  obtain ⟨⟨t', stage⟩, entries, exchanges, fired, s⟩ := r
  obtain rfl : t' = t := ht
  obtain rfl : fired = false := hf
  cases hopen : Call.isOpen ⟨t', stage⟩ with
  | false =>
    have hturn : Run.turn ((b t').telling alive) ⟨⟨t', stage⟩, entries, exchanges, false, s⟩ =
        ⟨⟨t', stage⟩, entries, exchanges, false, s⟩ := by
      cases stage with
      | stalled | ended => rfl
      | reading | creating | rereading | checking | deleting => cases hopen
    rw [hturn]
    simp only [step, List.getElem?_cons_zero, Option.bind_some, Actor.advance, hopen,
      Bool.false_eq_true, ↓reduceIte, and_self]
  | true =>
    obtain ⟨q, resume, hq⟩ := next_of_isOpen hopen
    have hfires := hb q s
    simp only [step, List.getElem?_cons_zero, Option.bind_some, Actor.advance, hopen, ↓reduceIte,
      Run.turn, hq, Run.noticed, Bool.false_and, Bool.false_eq_true]
    generalize (b t').telling alive q s = reply at hfires
    obtain ⟨⟨answer, fires, lines⟩, s'⟩ := reply
    obtain rfl : fires = false := hfires
    cases answer <;> exact ⟨rfl, rfl, rfl⟩

/-- A call that is alone comes as far in a crowd as in a run of its own. -/
theorem follow_alone {alive : Except Error Bool} {t : Task}
    (hb : ∀ q s, ((b t).telling alive q s).1.fires = false) (s : σ) (n : Nat) :
    (ofTasks [t] s).follow b (List.replicate (n + 1) (.turn 0 alive)) =
      ⟨[⟨t, false, some ((Run.begin t false s).turns ((b t).telling alive) n).call.stage⟩],
        ((Run.begin t false s).turns ((b t).telling alive) n).state⟩ := by
  have hrun (n : Nat) (r : Run σ) (ht : r.call.task = t) (hf : r.fired = false) :
      (⟨[⟨t, false, some r.call.stage⟩], r.state⟩ : Crowd σ).follow b
          (List.replicate n (.turn 0 alive)) =
        ⟨[⟨t, false, some (r.turns ((b t).telling alive) n).call.stage⟩],
          (r.turns ((b t).telling alive) n).state⟩ := by
    induction n generalizing r with
    | zero => rfl
    | succ n ih =>
      obtain ⟨hstep, ht', hf'⟩ := step_run hb ht hf
      rw [List.replicate_succ, follow, List.foldl_cons, hstep]
      exact ih _ ht' hf'
  rw [List.replicate_succ, follow, List.foldl_cons, first_alone]
  exact hrun n (Run.begin t false s) rfl rfl

end Crowd

end

end Mutex

end InitLock
