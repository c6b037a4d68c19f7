import InitLock.Proofs.Json.Members
import InitLock.Proofs.Json.Object

/-!
# Documents read back

A value of texts and objects, printed on one line or indented, is read back as it
was (`Nested.document`), if the members of each object stand in the order of
their keys.
-/

namespace InitLock.Json

open Grammar Reader

/-- Texts, and objects of such values, their members in the order of their keys, that nest at most
`n` deep. -/
inductive Nested : Nat → Value → Prop
  | text (n : Nat) (s : String) : Nested n (.text s)
  | object {n : Nat} {ms : Members} (hs : ms.Pairwise fun a b => compare a.1 b.1 = .lt)
    (h : ∀ m ∈ ms, Nested n m.2) : Nested (n + 1) (.object ms)

variable {depth : Nat} {level : Option Nat} {ws rest : List Char}

theorem blank_newline (level : Option Nat) : Blank (newline level) := by
  intro c hc
  cases level with
  | none => cases hc
  | some n =>
    rcases List.mem_cons.1 hc with rfl | hc
    · exact .inr (.inl rfl)
    · exact .inl (List.eq_of_mem_replicate hc)

namespace Reader

/-! ## Blanks -/

theorem any_append (hw : Blank ws) (rest : List Char) :
    any depth (ws ++ rest) = any depth rest := by
  cases depth <;> rw [any, any, skipBlanks_append hw]

theorem nextKey_append (hw : Blank ws) (first : Bool) (rest : List Char) :
    nextKey first (ws ++ rest) = nextKey first rest := by
  rw [nextKey, nextKey, skipBlanks_append hw]

theorem nextKey_comma_append (hw : Blank ws) (rest : List Char) :
    nextKey false (',' :: (ws ++ rest)) = nextKey false (',' :: rest) := by
  have hcomma (cs : List Char) : nextKey false (',' :: cs) = key (skipBlanks cs) := rfl
  rw [hcomma, hcomma, skipBlanks_append hw]

theorem colon_keyColon (level : Option Nat) (rest : List Char) :
    ∃ ws, Blank ws ∧ colon (keyColon level ++ rest) = .ok (ws ++ rest) := by
  cases level with
  | none => exact ⟨[], nofun, rfl⟩
  | some n => exact ⟨[' '], by simp [Blank], rfl⟩

/-! ## Objects -/

def setMember (depth : Nat) (name : String) (ms : Members) : Member Members :=
  .take fun _ cs => (any depth cs).map fun (v, rest) => (Members.set name v ms, rest)

theorem takes_any_text (s : String) (depth : Nat) :
    any.Takes (depth + 1) (writeText s) (.text s) := by
  intro rest
  have htext (cs : List Char) : any (depth + 1) ('"' :: cs) =
      (literal cs).map fun read => (.text read.1, read.2) := rfl
  rw [writeText_append, htext, literal_flatMap]
  rfl

theorem any_object (hdepth : 0 < depth) (rest : List Char) :
    any (depth + 1) ('{' :: rest) =
      (objectBody (setMember depth) .ok [] depth rest).map fun (ms, rest) =>
        (.object ms, rest) := by
  have hblank : skipBlanks ('{' :: rest) = '{' :: rest := rfl
  rw [any, hblank]
  simp only [Nat.ne_of_gt hdepth, ↓reduceIte]
  rfl

/-- The turn that reads the member `k` with the value `v`, once its key has been read. -/
theorem members_setMember {first : Bool} {k : String} {v : Value} {ms : Members} {fuel : Nat}
    {cs : List Char}
    (hkey : nextKey first cs = .ok (some k, keyColon level ++ (v.write level ++ rest)))
    (hv : any.Takes depth (v.write level) v) :
    members (setMember depth) depth (fuel + 1) first ms cs =
      members (setMember depth) depth fuel false (Members.set k v ms) rest := by
  obtain ⟨ws, hw, hcolon⟩ := colon_keyColon level (v.write level ++ rest)
  have hany : any depth (ws ++ (v.write level ++ rest)) = .ok (v, rest) :=
    (any_append hw _).trans (hv rest)
  rw [members, hkey]
  simp only [setMember, hcolon, Except.bind, hany, Except.map]

theorem set_of_sorted {k : String} {v : Value} {ms ms' : Members}
    (h : (ms ++ (k, v) :: ms').Pairwise fun a b => compare a.1 b.1 = .lt) :
    Members.set k v ms = ms ++ [(k, v)] := by
  have hbefore (m : String × Value) (hm : m ∈ ms) : compare k m.1 = .gt :=
    Std.OrientedCmp.gt_of_lt ((List.pairwise_append.1 h).2.2 m hm (k, v) List.mem_cons_self)
  have h := Members.set_append (v := v) [] hbefore
  rwa [List.append_nil] at h

theorem members_printed {ms : Members} (hv : ∀ m ∈ ms, any.Takes depth (m.2.write level) m.2)
    (outer : Option Nat) (rest : List Char) {read : Members}
    (hs : (read ++ ms).Pairwise fun a b => compare a.1 b.1 = .lt) {fuel : Nat}
    (hf : ms.length < fuel) :
    members (setMember depth) depth fuel false read
        (Value.writeMembers level ms ++ (newline outer ++ '}' :: rest)) =
      .ok (read ++ ms, '}' :: rest) := by
  induction ms generalizing read fuel with
  | nil =>
    obtain ⟨fuel, rfl⟩ := Nat.exists_eq_succ_of_ne_zero (Nat.ne_of_gt (Nat.zero_lt_of_lt hf))
    have hend : nextKey false (newline outer ++ '}' :: rest) = .ok (none, '}' :: rest) :=
      nextKey_append (blank_newline outer) _ _
    rw [Value.writeMembers, List.nil_append, members, hend, List.append_nil]
  | cons m ms ih =>
    obtain ⟨k, v⟩ := m
    obtain ⟨fuel, rfl⟩ := Nat.exists_eq_succ_of_ne_zero (Nat.ne_of_gt (Nat.zero_lt_of_lt hf))
    rw [List.forall_mem_cons] at hv
    let more := Value.writeMembers level ms ++ (newline outer ++ '}' :: rest)
    have htext : Value.writeMembers level ((k, v) :: ms) ++ (newline outer ++ '}' :: rest) =
        ',' :: (newline level ++
          (writeText k ++ (keyColon level ++ (v.write level ++ more)))) := by
      simp [Value.writeMembers, more]
    have hkey : nextKey false (',' :: (newline level ++
        (writeText k ++ (keyColon level ++ (v.write level ++ more))))) =
        .ok (some k, keyColon level ++ (v.write level ++ more)) := by
      rw [nextKey_comma_append (blank_newline level), nextKey_comma]
    rw [htext, members_setMember hkey hv.1, set_of_sorted hs]
    rw [List.append_cons] at hs
    rw [List.append_cons read (k, v) ms]
    exact ih hv.2 hs (Nat.lt_of_succ_lt_succ hf)

theorem members_object_printed {ms : Members}
    (hs : ms.Pairwise fun a b => compare a.1 b.1 = .lt)
    (hv : ∀ m ∈ ms, any.Takes depth (m.2.write (level.map (· + 1))) m.2) (rest : List Char) :
    ∃ body, (Value.object ms).write level = '{' :: body ∧
      members (setMember depth) depth ((body ++ rest).length + 1) true [] (body ++ rest) =
        .ok (ms, '}' :: rest) := by
  cases ms with
  | nil => exact ⟨['}'], rfl, rfl⟩
  | cons m ms =>
    obtain ⟨k, v⟩ := m
    rw [List.forall_mem_cons] at hv
    generalize hinner : level.map (· + 1) = inner at hv
    let more := Value.writeMembers inner ms ++ (newline level ++ '}' :: rest)
    refine ⟨newline inner ++ (writeText k ++ (keyColon inner ++ (v.write inner ++
      (Value.writeMembers inner ms ++ (newline level ++ ['}']))))), ?_, ?_⟩
    · simp [Value.write, hinner]
    have hkey : nextKey true (newline inner ++
        (writeText k ++ (keyColon inner ++ (v.write inner ++ more)))) =
        .ok (some k, keyColon inner ++ (v.write inner ++ more)) := by
      rw [nextKey_append (blank_newline inner), nextKey_writeText]
    simp only [List.append_assoc, List.singleton_append]
    rw [members_setMember hkey hv.1]
    refine members_printed hv.2 level rest hs ?_
    have := length_le_writeMembers inner ms
    simp only [List.length_append, List.length_cons]
    omega

theorem takes_any_object {ms : Members} (hs : ms.Pairwise fun a b => compare a.1 b.1 = .lt)
    (hv : ∀ m ∈ ms, any.Takes depth (m.2.write (level.map (· + 1))) m.2) (hdepth : 0 < depth) :
    any.Takes (depth + 1) ((Value.object ms).write level) (.object ms) := by
  intro rest
  obtain ⟨body, htext, hmembers⟩ := members_object_printed hs hv rest
  rw [htext, List.cons_append, any_object hdepth, objectBody, hmembers]
  rfl

end Reader

/-! ## Documents -/

theorem Nested.takes_any {n : Nat} {v : Value} (h : Nested n v) (hn : n < depth)
    (level : Option Nat) : any.Takes depth (v.write level) v := by
  induction h generalizing depth level with
  | text n s =>
    obtain ⟨depth, rfl⟩ := Nat.exists_eq_succ_of_ne_zero (Nat.ne_of_gt (Nat.zero_lt_of_lt hn))
    exact takes_any_text s depth
  | object hs _ ih =>
    obtain ⟨depth, rfl⟩ := Nat.exists_eq_succ_of_ne_zero (Nat.ne_of_gt (Nat.zero_lt_of_lt hn))
    have hn := Nat.lt_of_succ_lt_succ hn
    exact takes_any_object hs (fun m hm => ih m hm hn _) (Nat.zero_lt_of_lt hn)

/-- A document is read back, also with blanks after it. -/
theorem Nested.document {n : Nat} {v : Value} (h : Nested n v) (hn : n < depthLimit)
    (level : Option Nat) (hw : Blank ws) :
    any.document (v.write level ++ ws) = .ok v :=
  document_eq_ok.mpr ⟨ws, h.takes_any hn level ws, hw⟩

end InitLock.Json
