import InitLock.Proofs.Mutex.Removal
import Mathlib.Data.List.Basic
import Mathlib.Data.List.Induction

/-!
# The log as an audit trail

The log of a schedule lists the lines of all calls in order. A line that says a
lock was acquired or released makes a `Mark`, and the lines that open the spans
tell which key a call is about. Where every answer of the store arrives, the
marks are the effects on the store, one for one (`Interleaving.marks_log`), and
the marks about a key the effects on that key (`Interleaving.trail_log`).
-/

namespace InitLock

namespace Mutex

/-- What a line says became of a lock. -/
inductive Mark where
  | acquired
  | released
  deriving DecidableEq

end Mutex

open Mutex

def Log.Line.mark? (l : Log.Line) : Option Mark :=
  if l.level = .info ∧ l.text = "Lock acquired" then some .acquired
  else if l.level = .info ∧ l.text = "Lock released" then some .released
  else none

/-- The key in a line that opens the span of a lock or unlock call. -/
def Log.Line.span? (l : Log.Line) : Option Key :=
  if l.text = "span etcd_init_lock" ∨ l.text = "span etcd_init_unlock" then
    match l.fields.lookup "namespace", l.fields.lookup "lock" with
    | some ns, some name => some ⟨ns, name⟩
    | _, _ => none
  else none

namespace Mutex

open Store (Memory)
open Store.Memory (Effect)

/-! ## Logs -/

/-- The lines of several calls, each with the number of its call. -/
abbrev Journal := List (Nat × Log.Line)

namespace Journal

def span? (j : Journal) (i : Nat) : Option Key :=
  j.findSome? fun p => if p.1 = i then p.2.span? else none

def marksOf (j : Journal) (i : Nat) : List Mark :=
  j.filterMap fun p => if p.1 = i then p.2.mark? else none

def marks (j : Journal) : List Mark := j.filterMap fun p => p.2.mark?

/-- The marks of the calls that are about a key. -/
def about (j : Journal) (span : Nat → Option Key) (k : Key) : List Mark :=
  j.filterMap fun p => if span p.1 = some k then p.2.mark? else none

/-- The marks of the calls whose span has the key. -/
def trail (j : Journal) (k : Key) : List Mark := j.about j.span? k

end Journal

def Moment.said (x : Moment) : Journal :=
  match (x.before.step x.move).1 with
  | some ⟨i, some r⟩ => r.entries.map fun e => (i, e.line)
  | _ => []

def log (h : List Moment) : Journal := h.flatMap Moment.said

/-- Marks that alternate and begin with an acquisition. The last one, if there is one, is an
acquisition just if the lock is held. -/
inductive Alternates : List Mark → Bool → Prop
  | nil : Alternates [] false
  | acquire {ms : List Mark} (h : Alternates ms false) : Alternates (ms ++ [.acquired]) true
  | release {ms : List Mark} (h : Alternates ms true) : Alternates (ms ++ [.released]) false

/-- What the marks about a key tell: whether there is a record under it. -/
structure Journal.Tells (j : Journal) (k : Key) (held : Bool) : Prop where
  alternates : Alternates (j.trail k) held
  balance : ((j.trail k).count .acquired : Int) - (j.trail k).count .released =
    if held then 1 else 0

/-- The mark that goes with an effect on the store. -/
def Mark.ofEffect : Effect → Mark
  | .creates _ => .acquired
  | .removes _ _ => .released

def Moment.own (x : Moment) (i : Nat) : Option Effect :=
  match x.move with
  | .turn j _ => if j = i then x.effect else none
  | _ => none

def deeds (h : List Moment) (i : Nat) : List Effect := h.filterMap fun x => x.own i

def Fate.delivers : Fate → Bool
  | .arrives | .told _ => true
  | .lost _ | .refused _ => false

/-- An answer of the store arrives; one about a machine may be any. -/
def Moment.Delivered (x : Moment) : Prop :=
  ∀ i fate e, x.move = .turn i fate → e ∈ x.exchanges i → e.question.isStore = true →
    fate.delivers = true

/-! ## What events say -/

def Event.mark? : Event → Option Mark
  | .acquired => some .acquired
  | .released => some .released
  | _ => none

def Event.span? : Event → Option Key
  | .opened .inspect _ _ => none
  | .opened _ _ key => some key
  | _ => none

def Task.span? (t : Task) : Option Key :=
  match t.operation with
  | .lock _ | .unlock => some t.key
  | .inspect => none

def Exchange.mark? : Exchange → Option Mark
  | ⟨.create _, some (.ok ())⟩ => some .acquired
  | ⟨.delete _ _, some (.ok ())⟩ => some .released
  | _ => none

theorem Event.line_mark? (e : Event) : e.line.mark? = e.mark? := by
  cases e with
  | opened op cluster key => cases op <;> rfl
  | _ => rfl

theorem Event.line_span? (e : Event) : e.line.span? = e.span? := by
  cases e with
  | opened op cluster key => cases op <;> rfl
  | _ => rfl

section
variable {t : Task} {stage stage' : Stage} {x : Exchange} {es : List Event}

theorem Task.Judged.silent {machine : String} {r : Record} (h : Judged machine r es stage) :
    es.filterMap Event.mark? = [] ∧ es.findSome? Event.span? = none := by
  cases h <;> exact ⟨rfl, rfl⟩

/-- A call makes a mark on the answer that its write succeeded, and opens no span. -/
theorem Task.Leads.marks (h : t.Leads stage x es stage') :
    es.filterMap Event.mark? = x.mark?.toList ∧ es.findSome? Event.span? = none := by
  cases h with
  | lockRead _ hj | reread hj => exact hj.silent
  | @removed _ gone a h =>
    match a with
    | .ok () | .error (.notFound _) => exact ⟨rfl, rfl⟩
    | .error (.alreadyExists _) | .error (.conflict _) | .error (.other _) => cases h
  | @kept _ gone a h =>
    match a with
    | .ok () | .error (.notFound _) => cases h
    | .error (.alreadyExists _) | .error (.conflict _) | .error (.other _) =>
      cases gone <;> exact ⟨rfl, rfl⟩
  | _ => exact ⟨rfl, rfl⟩

/-- Only calls with a span make marks. -/
theorem Task.Leads.span?_of_mark {m : Mark} (h : t.Leads stage x es stage') (hf : t.Fits stage)
    (hm : x.mark? = some m) : t.span? = some t.key := by
  cases h with
  | created =>
    rw [span?, Locks.operation hf]
  | @removed _ gone | @kept _ gone =>
    cases gone with
    | none => rw [span?, show t.operation = .unlock from hf]
    | some => rw [span?, Locks.operation hf.1]
  | _ => cases hm

end

/-! ## What a turn says -/

def Actor.span? (a : Actor) : Option Key := a.stage.bind fun _ => a.task.span?

section
variable {fate : Fate} {a b : Actor} {s s' : Local} {r : Run Local}

theorem filterMap_own_mark? (es : List Event) :
    (es.map Entry.own).filterMap (fun e => e.line.mark?) = es.filterMap Event.mark? := by
  rw [List.filterMap_map]
  exact congrArg (es.filterMap ·) (funext Event.line_mark?)

theorem findSome?_own_span? (es : List Event) :
    (es.map Entry.own).findSome? (fun e => e.line.span?) = es.findSome? Event.span? := by
  rw [List.findSome?_map]
  exact congrArg (es.findSome? ·) (funext Event.line_span?)

theorem Task.start_says (t : Task) :
    t.start.1.filterMap Event.mark? = [] ∧ t.start.1.findSome? Event.span? = t.span? := by
  obtain ⟨op, cluster, config, cancellable⟩ := t
  cases op with
  | lock machine =>
    unfold start
    dsimp only
    split <;> exact ⟨rfl, rfl⟩
  | unlock | inspect => exact ⟨rfl, rfl⟩

theorem Actor.first_entries (a : Actor) (s : Local) :
    ∃ es, (a.first s).entries = (a.task.start.1 ++ es).map .own ∧ es.filterMap Event.mark? = [] ∧
      es.findSome? Event.span? = none := by
  unfold first
  split
  · exact ⟨[.cancelled a.task.operation], by rw [List.map_append]; rfl, rfl, rfl⟩
  · exact ⟨[], by rw [List.append_nil]; rfl, rfl, rfl⟩

/-- A turn makes the marks of its exchanges. -/
theorem Advances.marks (h : Advances fate a s r) :
    r.entries.filterMap (fun e => e.line.mark?) = r.exchanges.filterMap Exchange.mark? := by
  cases h with
  | begun =>
    obtain ⟨es, he, hes, -⟩ := a.first_entries s
    rw [Actor.first_exchanges, he, filterMap_own_mark?, List.filterMap_append, hes,
      a.task.start_says.1]
    rfl
  | cancelled => rfl
  | @asked _ _ x _ _ _ _ hl =>
    rw [filterMap_own_mark?, hl.marks.1]
    cases hx : x.mark? <;> simp [hx]

/-- The first turn of a call opens its span, and no other turn opens one. -/
theorem Advances.span? (h : Advances fate a s r) :
    (a.goTo r.call.stage).span? = a.span?.or (r.entries.findSome? fun e => e.line.span?) := by
  have hspan : (a.goTo r.call.stage).span? = a.task.span? := rfl
  rw [hspan]
  cases h with
  | begun hnone =>
    obtain ⟨es, he, -, hes⟩ := a.first_entries s
    rw [Actor.span?, hnone, he, findSome?_own_span?, List.findSome?_append, hes,
      a.task.start_says.2]
    simp
  | cancelled hstage =>
    rw [Actor.span?, hstage]
    simp [Entry.line, Event.line_span?, Event.span?]
  | asked hstage _ hl =>
    rw [Actor.span?, hstage, findSome?_own_span?, hl.marks.2]
    simp

end

/-! ## What a moment says -/

namespace Journal

variable {j j' : Journal} {i : Nat} {k : Key}

theorem span?_append : (j ++ j').span? i = (j.span? i).or (j'.span? i) := List.findSome?_append

theorem marks_append : (j ++ j').marks = j.marks ++ j'.marks := List.filterMap_append

theorem marksOf_append : (j ++ j').marksOf i = j.marksOf i ++ j'.marksOf i := List.filterMap_append

theorem about_append {span : Nat → Option Key} :
    (j ++ j').about span k = j.about span k ++ j'.about span k := List.filterMap_append

end Journal

section
variable {x : Moment} {h : List Moment} {i : Nat}

theorem log_concat : log (h ++ [x]) = log h ++ x.said := by
  rw [log, List.flatMap_append, List.flatMap_singleton]
  rfl

theorem deeds_concat : deeds (h ++ [x]) i = deeds h i ++ (x.own i).toList := filterMap_concat _

/-- A moment says nothing and leaves every call at its stage, or it is the turn of a call. -/
theorem Moment.said_cases (x : Moment) :
    (x.said = [] ∧ (∀ i, x.exchanges i = []) ∧
        ∀ (i : Nat) (b : Actor), x.after.actors[i]? = some b →
          ∃ a, x.before.actors[i]? = some a ∧ b.task = a.task ∧ b.stage = a.stage) ∨
      ∃ i fate a r, x.move = .turn i fate ∧ x.before.actors[i]? = some a ∧
        Advances fate a x.before.shared r ∧ x.said = r.entries.map (fun e => (i, e.line)) ∧
        x.exchanges i = r.exchanges ∧ x.after = x.before.settle i r := by
  obtain ⟨w, m⟩ := x
  have hstep := w.stepped m
  simp only [said, exchanges, after]
  generalize w.step m = o at hstep
  cases hstep with
  | idle | kill | revive | insert => exact .inl ⟨rfl, fun _ => rfl, fun i b hb => ⟨b, hb, rfl, rfl⟩⟩
  | fire j =>
    refine .inl ⟨rfl, fun _ => rfl, fun i b hb => ?_⟩
    rw [Interleaving.getElem?_fire] at hb
    obtain ⟨a, ha, rfl⟩ := Option.map_eq_some_iff.1 hb
    refine ⟨a, ha, ?_⟩
    split <;> exact ⟨rfl, rfl⟩
  | turn j fate ha hr => exact .inr ⟨j, fate, _, _, rfl, ha, hr, rfl, if_pos rfl, rfl⟩

section
variable {es : List Entry}

theorem span?_said (i j : Nat) :
    Journal.span? (es.map fun e => (j, e.line)) i =
      if j = i then es.findSome? fun e => e.line.span? else none := by
  rw [Journal.span?, List.findSome?_map]
  by_cases hji : j = i <;> simp [hji, Function.comp_def]

theorem marks_said (j : Nat) :
    Journal.marks (es.map fun e => (j, e.line)) = es.filterMap fun e => e.line.mark? := by
  rw [Journal.marks, List.filterMap_map]
  rfl

theorem marksOf_said (i j : Nat) :
    Journal.marksOf (es.map fun e => (j, e.line)) i =
      if j = i then es.filterMap fun e => e.line.mark? else [] := by
  rw [Journal.marksOf, List.filterMap_map]
  by_cases hji : j = i
  · simp only [Function.comp_def, hji, ↓reduceIte]
  · simp [hji]

theorem about_said (span : Nat → Option Key) (k : Key) (j : Nat) :
    Journal.about (es.map fun e => (j, e.line)) span k =
      if span j = some k then es.filterMap fun e => e.line.mark? else [] := by
  rw [Journal.about, List.filterMap_map]
  by_cases hj : span j = some k
  · simp only [Function.comp_def, hj, ↓reduceIte]
  · simp [hj]

end

theorem Local.meet_of_delivers {fate : Fate} {q : Question} (s : Local)
    (hd : fate.delivers = true) (hq : q.isStore = true) :
    s.meet fate q = s.answer q ∧ s.effect fate q = s.store.effect q := by
  cases fate with
  | arrives => exact ⟨rfl, rfl⟩
  | lost | refused => cases hd
  | told =>
    cases q with
    | alive => cases hq
    | read | create | delete => exact ⟨rfl, rfl⟩

/-- Where its answer arrives, a question makes the mark of what it did to the store. -/
theorem Meets.mark? {fate : Fate} {s s' : Local} {e : Exchange} (h : Meets fate s e s')
    (hd : e.question.isStore = true → fate.delivers = true) :
    e.mark? = (s.effect fate e.question).map Mark.ofEffect := by
  obtain ⟨q, o⟩ := e
  have ho := h.answer
  dsimp only at ho
  subst ho
  cases q with
  | alive => cases fate <;> rfl
  | read => cases fate <;> rfl
  | create r =>
    obtain ⟨hmeet, heff⟩ := s.meet_of_delivers (hd rfl) (q := .create r) rfl
    have hans : (s.answer (.create r)).1 = (s.store.create r).1 := rfl
    rw [hmeet, heff, hans]
    cases hc : (s.store.create r).1 with
    | ok => rw [Memory.effect_of_create_ok hc]; rfl
    | error => rw [Memory.effect_of_create_error hc]; rfl
  | delete k u =>
    obtain ⟨hmeet, heff⟩ := s.meet_of_delivers (hd rfl) (q := .delete k u) rfl
    have hans : (s.answer (.delete k u)).1 = (s.store.delete k u).1 := rfl
    rw [hmeet, heff, hans]
    have hdel := s.store.deleted k u
    generalize hc : s.store.delete k u = out at hdel
    have hc' := congrArg Prod.fst hc
    cases hdel with
    | notFound | conflict => rw [Memory.effect_of_delete_error hc']; rfl
    | ok r hr => rw [Memory.effect_of_delete_ok hc' hr]; rfl

/-- Where its answer arrives, a turn makes the mark of what it did to the store. -/
theorem Advances.mark {fate : Fate} {a : Actor} {s : Local} {r : Run Local}
    (h : Advances fate a s r)
    (hd : ∀ e ∈ r.exchanges, e.question.isStore = true → fate.delivers = true) :
    r.entries.filterMap (fun e => e.line.mark?) =
      ((r.exchanges.head?.bind fun e => s.effect fate e.question).map Mark.ofEffect).toList := by
  rw [h.marks]
  cases h with
  | begun => simp
  | cancelled => rfl
  | @asked _ _ e _ _ _ _ _ hmeet =>
    have hmark := hmeet.mark? (hd e (List.mem_singleton_self e))
    simp only [List.head?_cons, Option.bind_some, ← hmark]
    cases he : e.mark? <;> simp [he]

theorem Moment.effect_of_nil (x : Moment) (h : ∀ i, x.exchanges i = []) : x.effect = none := by
  unfold effect
  split
  · rw [h]
    rfl
  · rfl

theorem Moment.of_own (x : Moment) {effect : Effect} (h : x.own i = some effect) :
    ∃ fate, x.move = .turn i fate ∧ x.effect = some effect := by
  unfold own at h
  split at h
  · next j fate hm =>
    split at h
    · next hji =>
      subst hji
      exact ⟨fate, hm, h⟩
    · cases h
  · cases h

theorem Moment.own_of_none (x : Moment) (h : x.effect = none) : x.own i = none := by
  cases hown : x.own i with
  | none => rfl
  | some effect =>
    obtain ⟨_, -, heff⟩ := x.of_own hown
    rw [h] at heff
    cases heff

/-- A call that has ended asks nothing, so it does nothing to the store. -/
theorem Moment.own_of_ended (x : Moment) {o : Outcome} (h : x.before.Ended i o) :
    x.own i = none := by
  cases hown : x.own i with
  | none => rfl
  | some effect =>
    obtain ⟨_, hm, heff⟩ := x.of_own hown
    obtain ⟨_, _, e, hm', he, -⟩ := x.asked_of_effect heff
    rw [hm] at hm'
    cases hm'
    rw [(x.stays_ended h).2] at he
    cases he

/-- What a turn says is said by the call that takes it, and its marks are of what it did. -/
theorem Moment.marks_said (x : Moment) (hd : x.Delivered) :
    x.said.marks = (x.effect.map Mark.ofEffect).toList ∧
      ∀ i, x.said.marksOf i = ((x.own i).map Mark.ofEffect).toList := by
  rcases x.said_cases with ⟨hnil, hquiet, -⟩ | ⟨j, fate, a, r, hm, ha, hr, hsaid, hes, -⟩
  · have heff := x.effect_of_nil hquiet
    refine ⟨by rw [hnil, heff]; rfl, fun i => ?_⟩
    rw [hnil, x.own_of_none heff]
    rfl
  · have hmarks : r.entries.filterMap (fun e => e.line.mark?) =
        (x.effect.map Mark.ofEffect).toList := by
      have heff : x.effect =
          r.exchanges.head?.bind fun e => x.before.shared.effect fate e.question := by
        simp only [effect, hm, hes]
      rw [heff]
      exact hr.mark fun e he => hd j fate e hm (hes ▸ he)
    refine ⟨by rw [hsaid, Mutex.marks_said, hmarks], fun i => ?_⟩
    rw [hsaid, marksOf_said, own, hm]
    dsimp only
    split
    · exact hmarks
    · rfl

/-- A line that makes a mark is about an exchange that does. -/
theorem Moment.of_mark (x : Moment) {p : Nat × Log.Line} {m : Mark} (hp : p ∈ x.said)
    (hm : p.2.mark? = some m) : ∃ e ∈ x.exchanges p.1, e.mark? = some m := by
  rcases x.said_cases with ⟨hnil, -⟩ | ⟨j, fate, a, r, -, -, hr, hsaid, hes, -⟩
  · rw [hnil] at hp
    cases hp
  · rw [hsaid] at hp
    obtain ⟨entry, hentry, rfl⟩ := List.mem_map.1 hp
    have hmem : m ∈ r.entries.filterMap fun e => e.line.mark? :=
      List.mem_filterMap.2 ⟨entry, hentry, hm⟩
    rw [hr.marks, ← hes] at hmem
    exact List.mem_filterMap.1 hmem

end

/-! ## Marks in order -/

theorem Alternates.balance {marks : List Mark} {held : Bool} (h : Alternates marks held) :
    (marks.count .acquired : Int) - marks.count .released = if held then 1 else 0 := by
  induction h with
  | nil => rfl
  | @acquire ms _ ih =>
    have hacquired : (ms ++ [Mark.acquired]).count .acquired = ms.count .acquired + 1 := by simp
    have hreleased : (ms ++ [Mark.acquired]).count .released = ms.count .released := by simp
    rw [hacquired, hreleased]
    simp only [Bool.false_eq_true, ↓reduceIte] at ih ⊢
    omega
  | @release ms _ ih =>
    have hacquired : (ms ++ [Mark.released]).count .acquired = ms.count .acquired := by simp
    have hreleased : (ms ++ [Mark.released]).count .released = ms.count .released + 1 := by simp
    rw [hacquired, hreleased]
    simp only [Bool.false_eq_true, ↓reduceIte] at ih ⊢
    omega

theorem count_marks (es : List Effect) :
    (es.map Mark.ofEffect).count .acquired = es.countP Effect.isCreate ∧
      (es.map Mark.ofEffect).count .released = es.countP (!Effect.isCreate ·) := by
  induction es with
  | nil => exact ⟨rfl, rfl⟩
  | cons e es ih =>
    obtain ⟨hacquired, hreleased⟩ := ih
    cases e <;>
      simp [Mark.ofEffect, Effect.isCreate, List.countP_cons, hacquired, hreleased]

/-! ## What a history says -/

namespace Interleaving

section
variable {tasks : List Task} {s : Local} {ms : List Move} {i : Nat} {k : Key}

/-- The log tells the span of each call that has opened one. -/
theorem span?_log {a : Actor} (ha : ((ofTasks tasks s).after ms).actors[i]? = some a) :
    (log ((ofTasks tasks s).history ms)).span? i = a.span? := by
  refine history_induct (P := fun h w => ∀ a, w.actors[i]? = some a → (log h).span? i = a.span?)
    ?_ ?_ a ha
  · intro a ha
    obtain ⟨t, -, rfl⟩ := of_getElem?_ofTasks ha
    rfl
  · intro h x _ ih b hb
    rw [log_concat, Journal.span?_append]
    rcases x.said_cases with ⟨hnil, -, hstay⟩ | ⟨j, fate, a, r, -, hj, hr, hsaid, -, hafter⟩
    · obtain ⟨a, ha, htask, hstage⟩ := hstay i b hb
      rw [ih a ha, hnil, Actor.span?, Actor.span?, htask, hstage]
      exact Option.or_none
    · rw [hafter, getElem?_settle] at hb
      rw [hsaid, span?_said]
      split at hb
      · next hji =>
        subst hji
        rw [hj] at hb
        cases hb
        rw [if_pos rfl, ih a hj, hr.span?]
      · next hji =>
        rw [if_neg hji, ih b hb, Option.or_none]

/-- A line that makes a mark is one of a call whose span the log tells. -/
theorem span?_of_mark {p : Nat × Log.Line} {m : Mark}
    (hp : p ∈ log ((ofTasks tasks s).history ms)) (hm : p.2.mark? = some m) :
    (log ((ofTasks tasks s).history ms)).span? p.1 = (tasks[p.1]?).map Task.key := by
  obtain ⟨x, hx, hsaid⟩ := List.mem_flatMap.1 hp
  obtain ⟨n, -, hbefore, hafter⟩ := of_mem_history hx
  obtain ⟨e, he, hmark⟩ := x.of_mark hsaid hm
  obtain ⟨_, a, stage, es, stage', -, ha, hstage, hl, -, -, hb⟩ := x.asked he
  obtain ⟨htask, hfits⟩ := fits_after tasks s (ms.take n) (hbefore ▸ ha)
  rw [hafter] at hb
  have hspan := span?_log hb
  rw [← history_take] at hspan
  have hopened : (a.goTo stage').span? = some a.task.key := hl.span?_of_mark (hfits _ hstage) hmark
  rw [← List.take_append_drop (n + 1) ((ofTasks tasks s).history ms), log, List.flatMap_append]
  rw [Journal.span?_append, show Journal.span? (List.flatMap _ _) _ = _ from hspan, hopened, htask]
  rfl

theorem marks_of_effect (e : Effect) (k : Key) :
    ((some e).toList.filter fun e => e.key = k).map Mark.ofEffect =
      if e.key = k then [Mark.ofEffect e] else [] := by
  by_cases hk : e.key = k <;> simp [hk]

/-- The marks that a moment adds about a key are those of what it did under the key. -/
theorem about_key (hs : s.store.WellFormed) {x : Moment} (hx : x ∈ (ofTasks tasks s).history ms)
    (hd : x.Delivered) (k : Key) :
    x.said.about (fun i => (tasks[i]?).map Task.key) k =
      (x.effect.toList.filter fun e => e.key = k).map Mark.ofEffect := by
  obtain ⟨hmarks, -⟩ := x.marks_said hd
  rcases x.said_cases with ⟨hnil, -⟩ | ⟨j, fate, a, r, hm, -, -, hsaid, -, -⟩
  · rw [hnil] at hmarks ⊢
    cases heff : x.effect with
    | none => rfl
    | some e =>
      rw [heff] at hmarks
      cases hmarks
  · rw [hsaid, Mutex.marks_said] at hmarks
    rw [hsaid, about_said, hmarks]
    cases heff : x.effect with
    | none => exact ite_self _
    | some e =>
      rw [key_of_effect tasks hs hx hm heff, marks_of_effect]
      simp only [Option.some.injEq, Option.map_some, Option.toList_some]

/-- The marks about a key are those of the effects on the key. -/
theorem trail_log (hs : s.store.WellFormed)
    (hd : ∀ x ∈ (ofTasks tasks s).history ms, x.Delivered) (k : Key) :
    (log ((ofTasks tasks s).history ms)).trail k =
      ((effects ((ofTasks tasks s).history ms)).filter fun e => e.key = k).map Mark.ofEffect := by
  have hspan : (log ((ofTasks tasks s).history ms)).trail k =
      (log ((ofTasks tasks s).history ms)).about (fun i => (tasks[i]?).map Task.key) k := by
    refine List.filterMap_congr fun p hp => ?_
    cases hm : p.2.mark? with
    | none => rw [ite_self, ite_self]
    | some m => rw [span?_of_mark hp hm]
  rw [hspan]
  refine history_induct (P := fun h _ =>
    (log h).about (fun i => (tasks[i]?).map Task.key) k =
      ((effects h).filter fun e => e.key = k).map Mark.ofEffect) rfl ?_
  intro h x hx ih
  rw [log_concat, effects_concat, Journal.about_append, about_key hs hx (hd x hx), ih,
    List.filter_append, List.map_append]

/-- The marks of all calls are those of the effects. -/
theorem marks_log {h : List Moment} (hd : ∀ x ∈ h, x.Delivered) :
    (log h).marks = (effects h).map Mark.ofEffect ∧
      ∀ i, (log h).marksOf i = (deeds h i).map Mark.ofEffect := by
  induction h using List.reverseRecOn with
  | nil => exact ⟨rfl, fun _ => rfl⟩
  | append_singleton h x ih =>
    obtain ⟨hmarks, hown⟩ := ih fun y hy => hd y (List.mem_append_left _ hy)
    obtain ⟨hsaid, hsaid'⟩ := x.marks_said (hd x (by simp))
    refine ⟨?_, fun i => ?_⟩
    · rw [log_concat, effects_concat, Journal.marks_append, List.map_append, hmarks, hsaid,
        Option.toList_map]
    · rw [log_concat, deeds_concat, Journal.marksOf_append, List.map_append, hown, hsaid',
        Option.toList_map]

/-- A call changes the store once at most. -/
theorem length_deeds (w : Interleaving) (ms : List Move) (i : Nat) :
    (deeds (w.history ms) i).length ≤ 1 := by
  suffices h : deeds (w.history ms) i = [] ∨
      (deeds (w.history ms) i).length = 1 ∧ ∃ o, (w.after ms).Ended i o by
    rcases h with h | ⟨h, -⟩
    · rw [h]; exact Nat.zero_le _
    · exact Nat.le_of_eq h
  refine history_induct (P := fun h w => deeds h i = [] ∨
    (deeds h i).length = 1 ∧ ∃ o, w.Ended i o) (.inl rfl) ?_
  intro h x _ ih
  rw [deeds_concat]
  cases hown : x.own i with
  | none =>
    rw [Option.toList_none, List.append_nil]
    exact ih.imp id fun ⟨hlen, o, ho⟩ => ⟨hlen, o, (x.stays_ended ho).1⟩
  | some effect =>
    obtain ⟨fate, hm, heff⟩ := x.of_own hown
    obtain ⟨b, hb⟩ := x.ended_of_effect heff hm
    refine .inr ⟨?_, _, hb⟩
    rcases ih with hnil | ⟨-, o, ho⟩
    · rw [hnil]
      rfl
    · rw [x.own_of_ended ho] at hown
      cases hown

/-- The effects on a key alternate. -/
theorem alternates_effects {w : Interleaving} (hms : ∀ r, Move.insert r ∉ ms)
    (hk : w.shared.store.records.get? k = none) :
    Alternates (((effects (w.history ms)).filter fun e => e.key = k).map Mark.ofEffect)
      ((w.after ms).shared.store.records.get? k).isSome := by
  refine history_induct (P := fun h w =>
    Alternates (((effects h).filter fun e => e.key = k).map Mark.ofEffect)
      (w.shared.store.records.get? k).isSome) (by rw [hk]; exact .nil) ?_
  intro h x hx ih
  rw [effects_concat, List.filter_append, List.map_append]
  have hstored := x.stored
  generalize x.effect = e, x.after.shared.store = store at hstored ⊢
  cases hstored with
  | kept => simpa using ih
  | inserted r hm => exact absurd (hm ▸ move_mem_of_mem_history hx) (hms r)
  | created r hnone =>
    rw [marks_of_effect]
    show Alternates (_ ++ if r.key = k then [.acquired] else [])
      ((x.before.shared.store.store r).records.get? k).isSome
    rw [Memory.get?_store]
    by_cases hkey : r.key = k
    · subst hkey
      rw [hnone] at ih
      rw [if_pos rfl, if_pos rfl]
      exact ih.acquire
    · rw [if_neg hkey, if_neg (Ne.symm hkey), List.append_nil]
      exact ih
  | removed k' r hr =>
    rw [marks_of_effect]
    show Alternates (_ ++ if k' = k then [.released] else [])
      ((x.before.shared.store.records.erase k').get? k).isSome
    rw [Table.get?_erase]
    by_cases hkey : k' = k
    · subst hkey
      rw [hr] at ih
      rw [if_pos rfl, if_pos rfl]
      exact ih.release
    · rw [if_neg hkey, if_neg (Ne.symm hkey), List.append_nil]
      exact ih

/-- The log is a faithful audit trail, whatever lock and unlock calls run on an initially empty
store in memory, in which order, and whatever is answered about machines: where nothing is put into
the store directly and every answer of the store arrives, a call says that a lock was acquired or
released just when it has itself created or deleted a record, once at most. The marks about a key
alternate, beginning with an acquisition, and at every moment tell whether there is a record under
the key; all marks together count as the store does. -/
theorem audit_trail (tasks : List Task) (l : Liveness) {ms : List Move}
    (hms : ∀ r, Move.insert r ∉ ms)
    (hd : ∀ x ∈ (ofTasks tasks ⟨.empty, l⟩).history ms, x.Delivered) :
    (∀ x ∈ (ofTasks tasks ⟨.empty, l⟩).history ms, ∀ i,
        x.said.marksOf i = ((x.own i).map Mark.ofEffect).toList) ∧
      (∀ i, ((log ((ofTasks tasks ⟨.empty, l⟩).history ms)).marksOf i).length ≤ 1) ∧
      (∀ n k, (log (((ofTasks tasks ⟨.empty, l⟩).history ms).take n)).Tells k
        (((ofTasks tasks ⟨.empty, l⟩).after (ms.take n)).shared.store.records.get? k).isSome) ∧
      (log ((ofTasks tasks ⟨.empty, l⟩).history ms)).marks.count .acquired =
          ((ofTasks tasks ⟨.empty, l⟩).after ms).shared.store.creates ∧
        (log ((ofTasks tasks ⟨.empty, l⟩).history ms)).marks.count .released =
          ((ofTasks tasks ⟨.empty, l⟩).after ms).shared.store.deletes := by
  have hwell : Memory.empty.WellFormed := Memory.Reachable.empty.wellFormed
  obtain ⟨hmarks, hown⟩ := marks_log hd
  refine ⟨fun x hx i => (x.marks_said (hd x hx)).2 i, fun i => ?_, fun n k => ?_, ?_⟩
  · rw [hown, List.length_map]
    exact length_deeds _ _ _
  · have hms' : ∀ r, Move.insert r ∉ ms.take n := fun r hr => hms r (List.mem_of_mem_take hr)
    have hd' : ∀ x ∈ (ofTasks tasks ⟨.empty, l⟩).history (ms.take n), x.Delivered := by
      intro x hx
      rw [← history_take] at hx
      exact hd x (List.mem_of_mem_take hx)
    have halt := alternates_effects (w := ofTasks tasks ⟨.empty, l⟩) (k := k) hms' rfl
    rw [history_take]
    rw [← trail_log hwell hd'] at halt
    exact ⟨halt, halt.balance⟩
  · obtain ⟨hcreates, hdeletes⟩ := (ofTasks tasks ⟨.empty, l⟩).counts ms
    obtain ⟨hacquired, hreleased⟩ := count_marks (effects ((ofTasks tasks ⟨.empty, l⟩).history ms))
    rw [hmarks, hacquired, hreleased, hcreates, hdeletes]
    exact ⟨(Nat.zero_add _).symm, (Nat.zero_add _).symm⟩

def tenants : List Task :=
  [.locking (.named "ns" "c" none) "a", .locking (.named "ns" "c" none) "b",
    .locking (.named "ns" "c" none) "b", ⟨.unlock, .named "ns" "c" none, .default, true⟩]

/-- The machine `a` locks; a call for `b` is told that `a` is gone and deletes its record, and the
other one locks. The unlock call releases the lock. -/
def tenancies : List Move :=
  [.turn 0, .turn 0, .turn 0, .turn 1, .turn 1, .turn 1 (.told false), .turn 1, .turn 2, .turn 2,
    .turn 2, .turn 3, .turn 3, .turn 3, .fire 3]

theorem audit_trail_tenancies :
    (log ((ofTasks tenants .empty).history tenancies)).trail ⟨"ns", "c-etcd-lock"⟩ =
        [.acquired, .released, .acquired, .released] ∧
      (log ((ofTasks tenants .empty).history tenancies)).Tells ⟨"ns", "c-etcd-lock"⟩ false ∧
      (log ((ofTasks tenants .empty).history tenancies)).marks.count .acquired =
        ((ofTasks tenants .empty).after tenancies).shared.store.creates := by
  have hms : ∀ r, Move.insert r ∉ tenancies := by simp [tenancies]
  have hd : ∀ x ∈ (ofTasks tenants .empty).history tenancies, x.Delivered := by
    intro x hx i fate e hm _ _
    have hmem := move_mem_of_mem_history hx
    rw [hm] at hmem
    simp only [tenancies, List.mem_cons, List.not_mem_nil, Move.turn.injEq, reduceCtorEq, or_false]
      at hmem
    rcases hmem with h | h | h | h | h | h | h | h | h | h | h | h | h <;> rw [h.2] <;> rfl
  obtain ⟨-, -, htells, hcount, -⟩ := audit_trail tenants .empty hms hd
  exact ⟨by decide +kernel, htells 14 ⟨"ns", "c-etcd-lock"⟩, hcount⟩

end

end Interleaving

end Mutex

end InitLock
