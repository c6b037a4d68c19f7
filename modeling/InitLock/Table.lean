/-!
# Ordered tables

A table holds one value under each of its keys and lists its entries in the
order of the keys. `get?_insert` and `get?_erase` say what the operations do.
-/

namespace InitLock

variable {κ ν : Type} [Ord κ]

/-- Entries in the order of their keys, no key twice. -/
structure Table (κ ν : Type) [Ord κ] where
  entries : List (κ × ν)
  sorted : entries.Pairwise fun a b => compare a.1 b.1 = .lt

namespace Table

/-! ## Entries -/

def lookup (k : κ) : List (κ × ν) → Option ν
  | [] => none
  | (k', v) :: es => if compare k k' = .eq then some v else lookup k es

def put (k : κ) (v : ν) : List (κ × ν) → List (κ × ν)
  | [] => [(k, v)]
  | (k', v') :: es =>
    match compare k k' with
    | .lt => (k, v) :: (k', v') :: es
    | .eq => (k, v) :: es
    | .gt => (k', v') :: put k v es

def drop (k : κ) (es : List (κ × ν)) : List (κ × ν) :=
  es.filter fun e => compare k e.1 != .eq

theorem mem_put {k : κ} {v : ν} {es : List (κ × ν)} {e : κ × ν} (h : e ∈ put k v es) :
    e = (k, v) ∨ e ∈ es := by
  induction es with
  | nil => simpa [put] using h
  | cons e' es ih =>
    obtain ⟨k', v'⟩ := e'
    unfold put at h
    split at h
    · simpa using h
    · simp only [List.mem_cons] at h ⊢
      rcases h with h | h
      · exact .inl h
      · exact .inr (.inr h)
    · simp only [List.mem_cons] at h ⊢
      rcases h with h | h
      · exact .inr (.inl h)
      · rcases ih h with h | h
        · exact .inl h
        · exact .inr (.inr h)

theorem sorted_put [Std.TransOrd κ] {k : κ} {v : ν} {es : List (κ × ν)}
    (h : es.Pairwise fun a b => compare a.1 b.1 = .lt) :
    (put k v es).Pairwise fun a b => compare a.1 b.1 = .lt := by
  induction es with
  | nil => simp [put]
  | cons e es ih =>
    obtain ⟨k', v'⟩ := e
    rw [List.pairwise_cons] at h
    unfold put
    split
    · next hk =>
      refine List.pairwise_cons.2 ⟨fun e he => ?_, List.pairwise_cons.2 h⟩
      rcases List.mem_cons.1 he with rfl | he
      · exact hk
      · exact Std.TransCmp.lt_trans hk (h.1 e he)
    · next hk =>
      refine List.pairwise_cons.2 ⟨fun e he => ?_, h.2⟩
      exact Std.TransCmp.lt_of_eq_of_lt hk (h.1 e he)
    · next hk =>
      refine List.pairwise_cons.2 ⟨fun e he => ?_, ih h.2⟩
      rcases mem_put he with rfl | he
      · exact Std.OrientedCmp.lt_of_gt hk
      · exact h.1 e he

theorem lookup_put [Std.LawfulEqOrd κ] (k k' : κ) (v : ν) (es : List (κ × ν)) :
    lookup k' (put k v es) = if compare k' k = .eq then some v else lookup k' es := by
  induction es with
  | nil => simp [put, lookup]
  | cons e es ih =>
    obtain ⟨k₁, v₁⟩ := e
    unfold put
    split
    · simp only [lookup]
    · next hk =>
      have hk := Std.LawfulEqOrd.eq_of_compare hk
      subst hk
      simp only [lookup]
      split <;> rfl
    · next hk =>
      simp only [lookup, ih]
      by_cases h₁ : compare k' k₁ = .eq
      · have h₁ := Std.LawfulEqOrd.eq_of_compare h₁
        subst h₁
        have : compare k' k ≠ .eq := by
          intro h
          have h := Std.LawfulEqOrd.eq_of_compare h
          subst h
          rw [Std.ReflOrd.compare_self] at hk
          cases hk
        simp [this]
      · simp [h₁]

theorem lookup_drop [Std.LawfulEqOrd κ] (k k' : κ) (es : List (κ × ν)) :
    lookup k' (drop k es) = if compare k' k = .eq then none else lookup k' es := by
  induction es with
  | nil => simp [drop, lookup]
  | cons e es ih =>
    obtain ⟨k₁, v₁⟩ := e
    simp only [drop] at ih ⊢
    simp only [List.filter_cons]
    by_cases h : compare k k₁ = .eq
    · have h := Std.LawfulEqOrd.eq_of_compare h
      subst h
      simp only [Std.ReflOrd.compare_self, bne_self_eq_false, Bool.false_eq_true, ↓reduceIte, ih,
        lookup]
      split <;> rfl
    · have hb : (compare k k₁ != .eq) = true := by simpa using h
      simp only [hb, ↓reduceIte, lookup, ih]
      by_cases h₁ : compare k' k₁ = .eq
      · have h₁ := Std.LawfulEqOrd.eq_of_compare h₁
        subst h₁
        have : compare k' k ≠ .eq := by
          intro h'
          have h' := Std.LawfulEqOrd.eq_of_compare h'
          subst h'
          exact h Std.ReflOrd.compare_self
        simp [this]
      · simp [h₁]

theorem lookup_eq_none_of_lt {k : κ} {es : List (κ × ν)}
    (h : ∀ e ∈ es, compare k e.1 = .lt) : lookup k es = none := by
  induction es with
  | nil => rfl
  | cons e es ih =>
    obtain ⟨k₁, v₁⟩ := e
    have h₁ : compare k k₁ = .lt := h (k₁, v₁) (by simp)
    simp only [lookup, h₁]
    exact ih fun e he => h e (List.mem_cons_of_mem _ he)

theorem length_put [Std.TransOrd κ] {k : κ} {v : ν} {es : List (κ × ν)}
    (h : es.Pairwise fun a b => compare a.1 b.1 = .lt) :
    (put k v es).length = es.length + if (lookup k es).isSome then 0 else 1 := by
  induction es with
  | nil => rfl
  | cons e es ih =>
    obtain ⟨k', v'⟩ := e
    rw [List.pairwise_cons] at h
    unfold put
    split
    · next hk =>
      have hn : lookup k ((k', v') :: es) = none := lookup_eq_none_of_lt fun e he => by
        rcases List.mem_cons.1 he with rfl | he
        · exact hk
        · exact Std.TransCmp.lt_trans hk (h.1 e he)
      simp [hn]
    · next hk => simp [lookup, hk]
    · next hk => simp only [List.length_cons, ih h.2, lookup, hk, reduceCtorEq, ↓reduceIte]; omega

theorem length_drop [Std.LawfulEqOrd κ] {k : κ} {es : List (κ × ν)}
    (h : es.Pairwise fun a b => compare a.1 b.1 = .lt) :
    (drop k es).length + (if (lookup k es).isSome then 1 else 0) = es.length := by
  induction es with
  | nil => rfl
  | cons e es ih =>
    obtain ⟨k', v'⟩ := e
    rw [List.pairwise_cons] at h
    by_cases hk : compare k k' = .eq
    · have hdrop : drop k es = es := List.filter_eq_self.2 fun e he => by
        rw [Std.LawfulEqOrd.eq_of_compare hk, h.1 e he]
        rfl
      have hcons : drop k ((k', v') :: es) = drop k es := List.filter_cons_of_neg (by simp [hk])
      simp [hcons, hdrop, lookup, hk]
    · have hcons : drop k ((k', v') :: es) = (k', v') :: drop k es :=
        List.filter_cons_of_pos (by simp [hk])
      simp only [hcons, List.length_cons, lookup, hk, ↓reduceIte]
      have := ih h.2
      omega

/-! ## Tables -/

instance [DecidableEq κ] [DecidableEq ν] : DecidableEq (Table κ ν) := fun a b =>
  if h : a.entries = b.entries then isTrue (by cases a; cases b; cases h; rfl)
  else isFalse fun e => h (e ▸ rfl)

def empty : Table κ ν := ⟨[], .nil⟩

instance : Inhabited (Table κ ν) := ⟨empty⟩

def get? (t : Table κ ν) (k : κ) : Option ν := lookup k t.entries

def size (t : Table κ ν) : Nat := t.entries.length

def isEmpty (t : Table κ ν) : Bool := t.entries.isEmpty

def erase (t : Table κ ν) (k : κ) : Table κ ν := ⟨drop k t.entries, t.sorted.filter _⟩

def insert [Std.TransOrd κ] (t : Table κ ν) (k : κ) (v : ν) : Table κ ν :=
  ⟨put k v t.entries, sorted_put t.sorted⟩

/-- The table of the given entries; of two under one key the later counts. -/
def ofList [Std.TransOrd κ] (es : List (κ × ν)) : Table κ ν :=
  es.foldl (fun t e => t.insert e.1 e.2) empty

@[simp] theorem get?_empty (k : κ) : (empty : Table κ ν).get? k = none := rfl

theorem get?_insert [Std.TransOrd κ] [Std.LawfulEqOrd κ] [DecidableEq κ] (t : Table κ ν)
    (k k' : κ) (v : ν) :
    (t.insert k v).get? k' = if k' = k then some v else t.get? k' := by
  simp only [get?, insert, lookup_put, Std.LawfulEqOrd.compare_eq_iff_eq]

theorem get?_erase [Std.LawfulEqOrd κ] [DecidableEq κ] (t : Table κ ν) (k k' : κ) :
    (t.erase k).get? k' = if k' = k then none else t.get? k' := by
  simp only [get?, erase, lookup_drop, Std.LawfulEqOrd.compare_eq_iff_eq]

theorem size_insert [Std.TransOrd κ] (t : Table κ ν) (k : κ) (v : ν) :
    (t.insert k v).size = t.size + if (t.get? k).isSome then 0 else 1 :=
  length_put t.sorted

theorem size_erase [Std.LawfulEqOrd κ] (t : Table κ ν) (k : κ) :
    (t.erase k).size + (if (t.get? k).isSome then 1 else 0) = t.size :=
  length_drop t.sorted

end Table

end InitLock
