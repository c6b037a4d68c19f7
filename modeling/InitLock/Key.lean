/-!
# Keys

What an object in a namespace is found by. Keys are ordered by namespace, then
by name.
-/

namespace InitLock

/-- A namespace and a name in it. -/
structure Key where
  ns : String
  name : String
  deriving DecidableEq, Repr, Inhabited

namespace Key

instance : Ord Key where
  compare := compareLex (compareOn ns) (compareOn name)

theorem compare_eq (a b : Key) :
    compare a b = compareLex (compareOn ns) (compareOn name) a b := rfl

instance : Std.TransOrd Key :=
  inferInstanceAs (Std.TransCmp (compareLex (compareOn ns) (compareOn name)))

instance : Std.LawfulEqOrd Key where
  eq_of_compare {a b} h := by
    rw [compare_eq, compareLex_eq_eq] at h
    cases a
    cases b
    simp only [compareOn, Std.LawfulEqOrd.compare_eq_iff_eq] at h
    simp [h]

def path (k : Key) : String := k.ns ++ "/" ++ k.name

end Key

end InitLock
