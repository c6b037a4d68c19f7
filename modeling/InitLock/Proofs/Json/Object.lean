import InitLock.Json.Reader
import InitLock.Proofs.Json.Literal
import Mathlib.Data.List.Forall2

/-!
# Printed values read back

A reader takes a text if it reads it whatever follows (`Takes`). What the
printer writes on one line is taken: strings and truth values as they are, lists
item by item, and objects member by member (`Builds`), each member by the reader
that its key stands for.
-/

namespace InitLock.Json

/-! ## Members -/

namespace Members

theorem set_append {key : String} {v : Value} {ms : Members} (ms' : Members)
    (h : ∀ m ∈ ms, compare key m.1 = .gt) : set key v (ms ++ ms') = ms ++ set key v ms' := by
  induction ms with
  | nil => rfl
  | cons m ms ih =>
    obtain ⟨k, w⟩ := m
    rw [List.forall_mem_cons] at h
    simp only [List.cons_append, set, h.1, ih h.2]

theorem get?_append {key : String} {ms : Members} (ms' : Members) (h : ∀ m ∈ ms, m.1 ≠ key) :
    get? key (ms ++ ms') = get? key ms' := by
  induction ms with
  | nil => rfl
  | cons m ms ih =>
    obtain ⟨k, w⟩ := m
    rw [List.forall_mem_cons] at h
    simp only [List.cons_append, get?, if_neg h.1, ih h.2]

end Members

namespace Reader

variable {α β σ : Type} {r : Reader α} {depth : Nat} {text : List Char} {a : α}

/-- The reader reads the text as `a`, whatever follows it. -/
def Takes (r : Reader α) (depth : Nat) (text : List Char) (a : α) : Prop :=
  ∀ rest, r depth (text ++ rest) = .ok (a, rest)

/-- The text begins with a character that is no blank, and neither ends a list nor begins `null`. -/
def Solid (text : List Char) : Prop :=
  ∃ c cs, text = c :: cs ∧ isBlank c = false ∧ c ≠ 'n' ∧ c ≠ ']'

theorem Solid.skipBlanks (h : Solid text) (rest : List Char) :
    skipBlanks (text ++ rest) = text ++ rest := by
  obtain ⟨c, cs, rfl, hc, -, -⟩ := h
  rw [List.cons_append, Json.skipBlanks, List.dropWhile_cons_of_neg (by rw [hc]; decide)]

theorem solid_writeText (s : String) : Solid (writeText s) :=
  ⟨'"', _, rfl, by decide, by decide, by decide⟩

theorem solid_object (ms : Members) : Solid ((Value.object ms).write none) := by
  refine ⟨'{', ((Value.object ms).write none).tail, ?_, by decide, by decide, by decide⟩
  cases ms <;> simp [Value.write]

theorem solid_list (vs : List Value) : Solid ((Value.list vs).write none) := by
  refine ⟨'[', ((Value.list vs).write none).tail, ?_, by decide, by decide, by decide⟩
  cases vs <;> simp [Value.write]

theorem solid_bool (b : Bool) : Solid ((Value.bool b).write none) := by
  cases b
  · exact ⟨'f', _, rfl, by decide, by decide, by decide⟩
  · exact ⟨'t', _, rfl, by decide, by decide, by decide⟩

/-! ## Atoms -/

theorem takes_text (s : String) (depth : Nat) : Takes Reader.text depth (writeText s) s := by
  intro rest
  rw [writeText_append]
  exact literal_flatMap s rest

theorem takes_exactly (s : String) (depth : Nat) : Takes (exactly s) depth (writeText s) () := by
  intro rest
  have hblank : skipBlanks (writeText s ++ rest) =
      '"' :: (s.toList.flatMap escapeChar ++ '"' :: rest) := by
    rw [(solid_writeText s).skipBlanks, writeText_append]
  rw [exactly, hblank]
  simp only [literal_flatMap, ↓reduceIte]

theorem takes_boolean (b : Bool) (depth : Nat) :
    Takes boolean depth ((Value.bool b).write none) b := by
  cases b <;> exact fun _ => rfl

theorem Takes.map (h : r.Takes depth text a) (f : α → β) : (r.map f).Takes depth text (f a) := by
  intro rest
  rw [Reader.map, h rest]
  rfl

theorem Takes.nullable (h : r.Takes depth text a) (hsolid : Solid text) :
    (nullable r).Takes depth text (some a) := by
  intro rest
  rw [Reader.nullable, hsolid.skipBlanks]
  obtain ⟨c, cs, rfl, -, hn, -⟩ := hsolid
  rw [← h.map some rest]
  simp only [List.cons_append]
  split
  · next heq => exact absurd (List.cons.inj heq).1 hn
  · rfl

theorem Takes.document (h : r.Takes depthLimit text a) : r.document text = .ok a := by
  have h := h []
  rw [List.append_nil] at h
  rw [Reader.document, h]
  rfl

/-! ## Objects -/

/-- The members of an object, one after the other, take what has been read from `s` to `s'`. -/
inductive Builds (member : String → σ → Member σ) (depth : Nat) : Members → σ → σ → Prop
  | nil (s : σ) : Builds member depth [] s s
  | cons {k : String} {v : Value} {ms : Members} {s s₁ s₂ : σ} {r : Reader σ}
    (hm : member k s = .take r) (hv : r.Takes depth (v.write none) s₁)
    (h : Builds member depth ms s₁ s₂) : Builds member depth ((k, v) :: ms) s s₂

section
variable {member : String → σ → Member σ} {ms ms' : Members} {s s₁ s₂ : σ}

theorem Builds.append (h : Builds member depth ms s s₁) (h' : Builds member depth ms' s₁ s₂) :
    Builds member depth (ms ++ ms') s s₂ := by
  induction h with
  | nil => exact h'
  | cons hm hv _ ih => exact .cons hm hv (ih h')

theorem key_writeText (s : String) (rest : List Char) :
    key (writeText s ++ rest) = .ok (some s, rest) := by
  rw [writeText_append]
  simp only [key, ↓reduceIte, literal_flatMap]
  rfl

theorem nextKey_writeText (s : String) (rest : List Char) :
    nextKey true (writeText s ++ rest) = .ok (some s, rest) := by
  rw [← key_writeText s rest, writeText_append]
  rfl

theorem nextKey_comma (s : String) (rest : List Char) :
    nextKey false (',' :: (writeText s ++ rest)) = .ok (some s, rest) := by
  rw [← key_writeText s rest, writeText_append]
  rfl

theorem members_writeMembers (h : Builds member depth ms s s₁) (rest : List Char) :
    ∀ fuel, ms.length < fuel →
      members member depth fuel false s (Value.writeMembers none ms ++ '}' :: rest) =
        .ok (s₁, '}' :: rest) := by
  induction h with
  | nil =>
    intro fuel hf
    obtain ⟨fuel, rfl⟩ := Nat.exists_eq_succ_of_ne_zero (Nat.ne_of_gt (Nat.zero_lt_of_lt hf))
    rfl
  | @cons k v ms s s₁ s₂ r hm hv _ ih =>
    intro fuel hf
    obtain ⟨fuel, rfl⟩ := Nat.exists_eq_succ_of_ne_zero (Nat.ne_of_gt (Nat.zero_lt_of_lt hf))
    have htext : Value.writeMembers none ((k, v) :: ms) ++ '}' :: rest =
        ',' :: (writeText k ++
          ':' :: (v.write none ++ (Value.writeMembers none ms ++ '}' :: rest))) := by
      simp [Value.writeMembers, newline, keyColon]
    have hcolon (rest : List Char) : colon (':' :: rest) = .ok rest := rfl
    rw [htext, members, nextKey_comma]
    simp only [hm, hcolon, Except.bind, hv _]
    exact ih fuel (Nat.lt_of_succ_lt_succ hf)

theorem length_le_writeMembers (level : Option Nat) (ms : Members) :
    ms.length ≤ (Value.writeMembers level ms).length := by
  induction ms with
  | nil => exact Nat.zero_le _
  | cons m ms ih =>
    simp only [Value.writeMembers, List.length_cons, List.length_append]
    omega

/-- The members of an object, up to its closing brace. -/
theorem members_object (h : Builds member depth ms s s₁) (rest : List Char) :
    ∃ body, (Value.object ms).write none = '{' :: body ∧
      members member depth ((body ++ rest).length + 1) true s (body ++ rest) =
        .ok (s₁, '}' :: rest) := by
  cases h with
  | nil => exact ⟨['}'], rfl, rfl⟩
  | @cons k v ms s s₁ s₂ r hm hv h =>
    refine ⟨writeText k ++ ':' :: (v.write none ++ (Value.writeMembers none ms ++ ['}'])), ?_, ?_⟩
    · simp [Value.write, newline, keyColon]
    have hcolon (rest : List Char) : colon (':' :: rest) = .ok rest := rfl
    simp only [List.append_assoc, List.cons_append, List.nil_append]
    rw [members, nextKey_writeText]
    simp only [hm, hcolon, Except.bind, hv _]
    refine members_writeMembers h rest _ ?_
    have := length_le_writeMembers none ms
    simp only [List.length_append, List.length_cons]
    omega

/-- An object is read member by member. -/
theorem takes_objectOr {expected : String} {onList : Option (Nat → List Char → Parsed α)}
    {finish : σ → Except Problem α} (h : Builds member depth ms s s₁)
    (hfinish : finish s₁ = .ok a) (hdepth : 0 < depth) :
    (objectOr expected onList member finish s).Takes (depth + 1)
      ((Value.object ms).write none) a := by
  intro rest
  obtain ⟨body, htext, hmembers⟩ := members_object h rest
  have hblank : skipBlanks ('{' :: (body ++ rest)) = '{' :: (body ++ rest) := rfl
  rw [htext, List.cons_append, objectOr, hblank]
  simp only [if_neg (show ¬ depth + 1 ≤ 1 by omega), Nat.add_sub_cancel, objectBody, hmembers,
    hfinish]
  rfl

theorem takes_object {expected : String} (h : Builds member depth ms s s₁) (hdepth : 0 < depth) :
    (object expected member s).Takes (depth + 1) ((Value.object ms).write none) s₁ :=
  takes_objectOr h rfl hdepth

end

/-! ## Lists -/

theorem Solid.nextItem_first (h : Solid text) (rest : List Char) :
    nextItem true (text ++ rest) = .ok (true, text ++ rest) := by
  rw [nextItem, h.skipBlanks]
  obtain ⟨c, cs, rfl, -, -, hc⟩ := h
  simp only [List.cons_append, hc, ↓reduceIte]

theorem Solid.nextItem_comma (h : Solid text) (rest : List Char) :
    nextItem false (',' :: (text ++ rest)) = .ok (true, text ++ rest) := by
  have hcomma : Json.skipBlanks (',' :: (text ++ rest)) = ',' :: (text ++ rest) := rfl
  rw [nextItem, hcomma]
  simp only [show ',' ≠ ']' by decide, Bool.false_eq_true, ↓reduceIte, h.skipBlanks]
  obtain ⟨c, cs, rfl, -, -, hc⟩ := h
  simp only [List.cons_append, hc, ↓reduceIte]

def TakesEach (r : Reader α) (depth : Nat) : List Value → List α → Prop :=
  List.Forall₂ fun v a => r.Takes depth (v.write none) a ∧ Solid (v.write none)

/-- The items of a list after the first are read one after the other. -/
theorem items_writeItems {vs : List Value} {as : List α} (h : TakesEach r depth vs as)
    (rest : List Char) :
    ∀ fuel, vs.length < fuel →
      items (r depth) fuel false (Value.writeItems none vs ++ ']' :: rest) =
        .ok (as, ']' :: rest) := by
  induction h with
  | nil =>
    intro fuel hf
    obtain ⟨fuel, rfl⟩ := Nat.exists_eq_succ_of_ne_zero (Nat.ne_of_gt (Nat.zero_lt_of_lt hf))
    rfl
  | @cons v a vs as hv _ ih =>
    intro fuel hf
    obtain ⟨fuel, rfl⟩ := Nat.exists_eq_succ_of_ne_zero (Nat.ne_of_gt (Nat.zero_lt_of_lt hf))
    have htext : Value.writeItems none (v :: vs) ++ ']' :: rest =
        ',' :: (v.write none ++ (Value.writeItems none vs ++ ']' :: rest)) := by
      simp [Value.writeItems, newline]
    rw [htext, items, hv.2.nextItem_comma]
    simp only [hv.1 _, ih fuel (Nat.lt_of_succ_lt_succ hf)]
    rfl

theorem length_le_writeItems (vs : List Value) :
    vs.length ≤ (Value.writeItems none vs).length := by
  induction vs with
  | nil => exact Nat.zero_le _
  | cons v vs ih =>
    simp only [Value.writeItems, newline, List.length_cons, List.length_append]
    omega

theorem items_list {vs : List Value} {as : List α} (h : TakesEach r depth vs as)
    (rest : List Char) :
    ∃ body, (Value.list vs).write none = '[' :: body ∧
      items (r depth) ((body ++ rest).length + 1) true (body ++ rest) = .ok (as, ']' :: rest) := by
  cases h with
  | nil => exact ⟨[']'], rfl, rfl⟩
  | @cons v a vs as hv h =>
    refine ⟨v.write none ++ (Value.writeItems none vs ++ [']']), ?_, ?_⟩
    · simp [Value.write, newline]
    simp only [List.append_assoc, List.cons_append, List.nil_append]
    rw [items, hv.2.nextItem_first]
    have := length_le_writeItems vs
    simp only [hv.1 _]
    rw [items_writeItems h rest _ (by simp only [List.length_append, List.length_cons]; omega)]
    rfl

theorem takes_list {vs : List Value} {as : List α} (h : TakesEach r depth vs as)
    (hdepth : 0 < depth) : (list r).Takes (depth + 1) ((Value.list vs).write none) as := by
  intro rest
  obtain ⟨body, htext, hitems⟩ := items_list h rest
  have hblank : skipBlanks ('[' :: (body ++ rest)) = '[' :: (body ++ rest) := rfl
  rw [htext, List.cons_append, list, hblank]
  simp only [if_neg (show ¬ depth + 1 ≤ 1 by omega), Nat.add_sub_cancel, listBody, hitems]
  rfl

/-! ## Dictionaries -/

theorem takes_dict {es : List (String × α)} {f : α → Value}
    (h : ∀ e ∈ es, r.Takes depth ((f e.2).write none) e.2) (hdepth : 0 < depth) :
    (dict r).Takes (depth + 1) ((Value.object (es.map fun e => (e.1, f e.2))).write none) es := by
  have hbuilds : ∀ read : List (String × α),
      Builds (fun name entries => .take (map (fun a => (name, a) :: entries) r)) depth
        (es.map fun e => (e.1, f e.2)) read (es.reverse ++ read) := by
    induction es with
    | nil => exact fun read => .nil read
    | cons e es ih =>
      intro read
      rw [List.forall_mem_cons] at h
      rw [List.map_cons, List.reverse_cons, List.append_assoc]
      exact .cons rfl (h.1.map _) (ih h.2 _)
  have htakes : (objectOr "a map" none
      (fun name entries => .take (map (fun a => (name, a) :: entries) r)) .ok []).Takes (depth + 1)
        ((Value.object (es.map fun e => (e.1, f e.2))).write none) (es.reverse ++ []) :=
    takes_objectOr (hbuilds []) rfl hdepth
  have htakes := htakes.map List.reverse
  rwa [List.append_nil, List.reverse_reverse] at htakes

end Reader

end InitLock.Json
