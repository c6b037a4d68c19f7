import InitLock.Api.Failure

/-!
# Errors

The errors of all operations but those of a store, which has its own.
-/

namespace InitLock

/-- Why an operation failed. -/
inductive Error where
  | api (failure : Api.Failure)
  | serialization (message : String) (kind : Option String)
  | unexpectedKind (expected actual : String)
  | validation (message : String) (field : Option String)
  | cancelled (operation cluster : String)
  | internal (message context : String)
  deriving DecidableEq, Repr

namespace Error

/-- The context of an internal error that names none. -/
def unknownContext : String := "unknown"

def message : Error → String
  | api failure => "kubernetes error: " ++ failure.message
  | serialization message _ => "serialization error: " ++ message
  | unexpectedKind expected actual => "expected a " ++ expected ++ " but got a " ++ actual
  | validation message _ => "validation error: " ++ message
  | cancelled operation cluster => operation ++ " cancelled for cluster " ++ cluster
  | internal message context => "internal error [" ++ context ++ "]: " ++ message

def isCancelled : Error → Bool
  | cancelled .. => true
  | _ => false

end Error

/-! ## Operations that succeed

An operation in steps succeeds if each of its steps does, and the next one goes
on from there.
-/

section

variable {ε α β : Type} {e : Except ε α}

theorem map_eq_ok {f : α → β} {b : β} : e.map f = .ok b ↔ ∃ a, e = .ok a ∧ f a = b := by
  cases e <;> simp [Except.map]

theorem bind_eq_ok {f : α → Except ε β} {b : β} :
    e.bind f = .ok b ↔ ∃ a, e = .ok a ∧ f a = .ok b := by
  cases e <;> simp [Except.bind]

theorem do_eq_ok {f : α → Except ε β} {b : β} :
    (e >>= f) = .ok b ↔ ∃ a, e = .ok a ∧ f a = .ok b := bind_eq_ok

theorem forM_eq_ok {f : α → Except ε Unit} {xs : List α} :
    forM xs f = .ok () ↔ ∀ x ∈ xs, f x = .ok () := by
  induction xs with
  | nil => simp [pure, Except.pure]
  | cons x xs ih =>
    rw [List.forM_cons, do_eq_ok, ih, List.forall_mem_cons]
    exact ⟨fun ⟨_, hx, hxs⟩ => ⟨hx, hxs⟩, fun ⟨hx, hxs⟩ => ⟨(), hx, hxs⟩⟩

end

end InitLock
