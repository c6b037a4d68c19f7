import InitLock.Api.Link

/-!
# Requests over a link

What comes back when a request is sent over a link, and which link is left.
-/

namespace InitLock.Api

variable {σ α β : Type}

/-! ## One after the other -/

theorem Action.bind_run (m : Action σ α) (f : α → Action σ β) (l : Link σ) :
    (m >>= f) l = f (m l).1 (m l).2 := rfl

theorem Action.pure_run (a : α) (l : Link σ) : (pure a : Action σ α) l = (a, l) := rfl

theorem Query.bind_run (m : Query σ α) (f : α → Query σ β) (l : Link σ) :
    (m >>= f).run l =
      match m.run l with
      | (.ok a, l) => (f a).run l
      | (.error e, l) => (.error e, l) := by
  simp only [bind, ExceptT.bind, ExceptT.run, ExceptT.mk, StateT.bind]
  rcases m l with ⟨a | a, l⟩ <;> rfl

/-! ## Answers -/

/-- What a server in state `s` answers to a request, as it is read. -/
def Server.read (server : Server σ) (reader : Json.Reader α) (q : Request) (s : σ) :
    Except Failure α :=
  (server q s).1.text.bind (readBody reader)

/-- In state `s` a server refuses a request because there is no such object. -/
def Server.Misses (server : Server σ) (q : Request) (s : σ) : Prop :=
  ∃ refusal : Refusal, (server q s).1.text = .error (.refused refusal) ∧ refusal.code = 404

/-- Only an answer with the code 404 is read as one that there is no such object. -/
theorem Server.misses_iff {server : Server σ} {reader : Json.Reader α} {q : Request} {s : σ} :
    Server.Misses server q s ↔ ∃ f, Server.read server reader q s = .error f ∧ f.isNotFound := by
  constructor
  · rintro ⟨refusal, h, hcode⟩
    refine ⟨.refused refusal, ?_, by simpa [Failure.isNotFound] using hcode⟩
    rw [Server.read, h]
    rfl
  · rintro ⟨f, hf, hnf⟩
    unfold Server.read at hf
    cases ht : (server q s).1.text with
    | ok cs =>
      rw [ht] at hf
      simp only [Except.bind, readBody] at hf
      cases hr : reader.document cs with
      | ok a => rw [hr] at hf; cases hf
      | error fault => rw [hr] at hf; cases hf; cases hnf
    | error f' =>
      rw [ht] at hf
      cases hf
      cases f with
      | refused refusal => exact ⟨refusal, ht, by simpa [Failure.isNotFound] using hnf⟩
      | _ => cases hnf

namespace Link

def after (server : Server σ) (l : Link σ) (q : Request) : Link σ :=
  { l with state := (server q l.state).2, sent := l.sent ++ [q] }

def reported (l : Link σ) (e : Event) : Link σ := { l with events := l.events ++ [e] }

@[simp] theorem after_state (server : Server σ) (l : Link σ) (q : Request) :
    (l.after server q).state = (server q l.state).2 := rfl

@[simp] theorem after_sent (server : Server σ) (l : Link σ) (q : Request) :
    (l.after server q).sent = l.sent ++ [q] := rfl

@[simp] theorem reported_state (l : Link σ) (e : Event) : (l.reported e).state = l.state := rfl

theorem text_ok (server : Server σ) (q : Request) (l : Link σ) :
    (text server (.ok q)).run l = ((server q l.state).1.text, l.after server q) := rfl

theorem value_ok (server : Server σ) (reader : Json.Reader α) (q : Request) (l : Link σ) :
    (value server reader (.ok q)).run l =
      (Server.read server reader q l.state, l.after server q) := by
  rw [value, Query.bind_run, text_ok, Server.read]
  cases (server q l.state).1.text <;> rfl

theorem report_run (e : Event) (l : Link σ) : report e l = ((), l.reported e) := rfl

theorem value_error (server : Server σ) (reader : Json.Reader α) (flaw : RequestFlaw)
    (l : Link σ) : (value server reader (.error flaw)).run l = (.error (.unsent flaw), l) := rfl

end Link

end InitLock.Api
