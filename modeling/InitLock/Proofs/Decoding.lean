import InitLock.Proofs.Json.Members
import InitLock.Record

/-!
# Which payloads name a machine

A payload names a machine if it is an object whose one member of that key is the
machine's name, or a list of that one string; all else in the object may be any
JSON at all, as long as its lexemes are right and its keys can be decoded
(`Names`). `ofPayload` reads the machine from these payloads and fails on all
others (`ofPayload_eq_ok`), and comes to an end on every text
(`decoder_terminates`); what a record names is read from its payload
(`Record.holder_decodes`).
-/

namespace InitLock

open Json Json.Grammar

namespace Holder

variable {machine name : String} {found found' found₁ : Option String} {m : Entry}
  {ms : List Entry} {depth n : Nat} {first : Bool} {cs ws ws' v e t sep rest : List Char}

/-! ## The name among the members -/

/-- What a member of an object makes of the name found so far. -/
inductive Sees : Entry → Option String → Option String → Prop
  | other {key : String} {v : List Char} {found : Option String} (hkey : key ≠ nameMember)
    (hv : Written .value v) : Sees (key, v) found found
  | name {v : List Char} {machine : String} (hv : Literal v machine) :
    Sees (nameMember, v) none (some machine)

/-- What the members make of it, one after the other. -/
inductive SeesAll : List Entry → Option String → Option String → Prop
  | nil {found : Option String} : SeesAll [] found found
  | cons {m : Entry} {ms : List Entry} {found found₁ found₂ : Option String}
    (h : Sees m found found₁) (hs : SeesAll ms found₁ found₂) : SeesAll (m :: ms) found found₂

theorem sees_name :
    Sees (nameMember, v) found found' ↔
      found = none ∧ ∃ machine, found' = some machine ∧ Literal v machine := by
  constructor
  · intro h
    cases h with
    | other hkey => exact absurd rfl hkey
    | name hv => exact ⟨rfl, _, rfl, hv⟩
  · rintro ⟨rfl, machine, rfl, hv⟩
    exact .name hv

theorem sees_other (hkey : m.1 ≠ nameMember) :
    Sees m found found' ↔ found' = found ∧ Written .value m.2 := by
  constructor
  · intro h
    cases h with
    | other _ hv => exact ⟨rfl, hv⟩
    | name => exact absurd rfl hkey
  · rintro ⟨rfl, hv⟩
    exact .other hkey hv

theorem seesAll_cons :
    SeesAll (m :: ms) found found' ↔ ∃ found₁, Sees m found found₁ ∧ SeesAll ms found₁ found' :=
  ⟨fun h => by cases h with | cons h hs => exact ⟨_, h, hs⟩, fun ⟨_, h, hs⟩ => .cons h hs⟩

/-- Once a name is found, no further member may be one. -/
theorem seesAll_some : SeesAll ms (some machine) found ↔
    found = some machine ∧ ∀ m ∈ ms, m.1 ≠ nameMember ∧ Written .value m.2 := by
  induction ms with
  | nil => exact ⟨fun h => by cases h; exact ⟨rfl, List.forall_mem_nil _⟩, fun h => h.1 ▸ .nil⟩
  | cons m ms ih =>
    rw [seesAll_cons, List.forall_mem_cons]
    constructor
    · rintro ⟨_, h, hs⟩
      cases h with
      | other hkey hv =>
        obtain ⟨hfound, hms⟩ := ih.mp hs
        exact ⟨hfound, ⟨hkey, hv⟩, hms⟩
    · rintro ⟨hfound, ⟨hkey, hv⟩, hms⟩
      exact ⟨_, .other hkey hv, ih.mpr ⟨hfound, hms⟩⟩

/-- A name is found where exactly one member is one. -/
theorem seesAll_none : SeesAll ms none (some machine) ↔
    (∃ v, ms.filter (·.1 = nameMember) = [(nameMember, v)] ∧ Literal v machine) ∧
      ∀ m ∈ ms, m.1 ≠ nameMember → Written .value m.2 := by
  induction ms with
  | nil => exact ⟨nofun, fun ⟨⟨v, h, _⟩, _⟩ => nomatch h⟩
  | cons m ms ih =>
    obtain ⟨key, v⟩ := m
    rw [seesAll_cons, List.forall_mem_cons]
    by_cases hkey : key = nameMember
    · subst hkey
      rw [List.filter_cons_of_pos (by simp)]
      simp only [List.cons.injEq, Prod.mk.injEq, true_and, List.filter_eq_nil_iff,
        decide_eq_true_eq]
      constructor
      · rintro ⟨_, h, hs⟩
        obtain ⟨-, name, rfl, hv⟩ := sees_name.mp h
        obtain ⟨⟨⟩, hms⟩ := seesAll_some.mp hs
        exact ⟨⟨v, ⟨rfl, fun m hm => (hms m hm).1⟩, hv⟩, fun h => absurd rfl h,
          fun m hm _ => (hms m hm).2⟩
      · rintro ⟨⟨v, ⟨rfl, hms⟩, hv⟩, -, hothers⟩
        have hrest : SeesAll ms (some machine) (some machine) :=
          seesAll_some.mpr ⟨rfl, fun m hm => ⟨hms m hm, hothers m hm (hms m hm)⟩⟩
        exact ⟨_, .name hv, hrest⟩
    · rw [List.filter_cons_of_neg (by simpa using hkey)]
      constructor
      · rintro ⟨_, h, hs⟩
        obtain ⟨rfl, hv⟩ := (sees_other hkey).mp h
        exact ⟨(ih.mp hs).1, fun _ => hv, (ih.mp hs).2⟩
      · rintro ⟨hname, hv, hothers⟩
        exact ⟨none, .other hkey (hv hkey), ih.mpr ⟨hname, hothers⟩⟩

/-! ## One member -/

theorem memberValue_sound
    (h : Reader.memberValue member depth name found cs = .ok (found', rest)) :
    ∃ ws ws' v, Blank ws ∧ Blank ws' ∧ Sees (name, v) found found' ∧
      cs = ws ++ ':' :: (ws' ++ (v ++ rest)) := by
  by_cases hname : name = nameMember
  · subst hname
    cases found with
    | some => nomatch h
    | none =>
      obtain ⟨more, hcolon, h⟩ := bind_eq_ok.mp h
      obtain ⟨⟨machine, _⟩, hread, h⟩ := map_eq_ok.mp h
      cases h
      obtain ⟨ws, hw, rfl⟩ := colon_eq_ok.mp hcolon
      obtain ⟨ws', v, hw', hv, rfl⟩ := Reader.text_eq_ok.mp hread
      exact ⟨ws, ws', v, hw, hw', .name hv, rfl⟩
  · simp only [Reader.memberValue, member, if_neg hname] at h
    obtain ⟨more, hread, h⟩ := map_eq_ok.mp h
    cases h
    obtain ⟨more, hcolon, hskip⟩ := bind_eq_ok.mp hread
    obtain ⟨ws, hw, rfl⟩ := colon_eq_ok.mp hcolon
    obtain ⟨ws', v, hw', hv, rfl⟩ := skipValue_sound hskip
    exact ⟨ws, ws', v, hw, hw', .other hname hv, rfl⟩

theorem memberValue_append (hw : Blank ws) (hw' : Blank ws') (h : Sees (name, v) found found')
    (hr : Closed rest) :
    Reader.memberValue member depth name found (ws ++ ':' :: (ws' ++ (v ++ rest))) =
      .ok (found', rest) := by
  have hcolon : colon (ws ++ ':' :: (ws' ++ (v ++ rest))) = .ok (ws' ++ (v ++ rest)) :=
    colon_eq_ok.mpr ⟨ws, hw, rfl⟩
  cases h with
  | other hname hv =>
    simp only [Reader.memberValue, member, if_neg hname, hcolon, Except.bind,
      skipValue_append hw' hv hr]
    rfl
  | @name _ machine hv =>
    have hread : Reader.text depth (ws' ++ (v ++ rest)) = .ok (machine, rest) :=
      Reader.text_eq_ok.mpr ⟨ws', v, hw', hv, rfl⟩
    exact bind_eq_ok.mpr ⟨_, hcolon, map_eq_ok.mpr ⟨_, hread, rfl⟩⟩

/-! ## All members -/

/-- The text is that of the members that are left, from the first or from a later one on. -/
def Follows : Bool → List Entry → List Char → Prop
  | true, ms, t => Object ms ('{' :: t)
  | false, ms, t => Tail ms t

theorem follows_nil (hw : Blank ws) : Follows first [] (ws ++ ['}']) := by
  cases first with
  | true => exact .empty hw
  | false => exact .close hw

theorem follows_cons (hsep : Reader.Separator first sep) (hm : Grammar.Member m e)
    (ht : Tail ms t) : Follows first (m :: ms) (sep ++ (e ++ t)) := by
  cases first with
  | true =>
    obtain rfl : sep = [] := hsep
    exact (Object.members hm ht : Object _ ('{' :: (e ++ t)))
  | false =>
    obtain ⟨ws, hw, rfl⟩ := hsep
    rw [List.append_assoc]
    exact (Tail.more hw hm ht : Tail _ (ws ++ ',' :: (e ++ t)))

theorem members_sound (h : Reader.members member depth n first found cs = .ok (found', rest)) :
    ∃ ms t more, Follows first ms t ∧ SeesAll ms found found' ∧ rest = '}' :: more ∧
      cs = t ++ more := by
  induction n generalizing first found cs with
  | zero => nomatch h
  | succ n ih =>
    rw [Reader.members_succ] at h
    obtain ⟨⟨_ | name, more⟩, hkey, h⟩ := bind_eq_ok.mp h
    · cases h
      obtain ⟨ws, more, hw, rfl, rfl⟩ := Reader.nextKey_eq_none.mp hkey
      exact ⟨[], _, more, follows_nil hw, .nil, rfl, by simp⟩
    · obtain ⟨⟨found₁, more'⟩, hvalue, hmore⟩ := bind_eq_ok.mp h
      obtain ⟨sep, ws, k, hsep, hw, hk, rfl⟩ := Reader.nextKey_eq_some.mp hkey
      obtain ⟨ws', ws'', v, hw', hw'', hsees, rfl⟩ := memberValue_sound hvalue
      obtain ⟨ms, t, more, ht, hms, rfl, rfl⟩ := ih hmore
      exact ⟨_, _, more, follows_cons hsep (.mk hw hk hw' hw'') ht, .cons hsees hms, rfl, by simp⟩

theorem members_close (hw : Blank ws) :
    Reader.members member depth (n + 1) first found (ws ++ '}' :: rest) =
      .ok (found, '}' :: rest) := by
  rw [Reader.members_succ, Reader.membersTurn,
    Reader.nextKey_eq_none.mpr ⟨ws, rest, hw, rfl, rfl⟩]
  rfl

theorem members_cons (hsep : Reader.Separator first sep) (hm : Grammar.Member m e)
    (h : Sees m found found₁) (hr : Closed rest) :
    Reader.members member depth (n + 1) first found (sep ++ (e ++ rest)) =
      Reader.members member depth n false found₁ rest := by
  obtain @⟨ws, k, ws', ws'', v, key, hw, hk, hw', hw''⟩ := hm
  have hkey : Reader.nextKey first (sep ++ (ws ++ (k ++ (ws' ++ ':' :: (ws'' ++ (v ++ rest)))))) =
      .ok (some key, ws' ++ ':' :: (ws'' ++ (v ++ rest))) :=
    Reader.nextKey_eq_some.mpr ⟨sep, ws, k, hsep, hw, hk, rfl⟩
  simp only [List.append_assoc, List.cons_append, Reader.members_succ, Reader.membersTurn, hkey,
    Except.bind, memberValue_append hw' hw'' h hr]

theorem closed_tail (ht : Tail ms t) (rest : List Char) : Closed (t ++ rest) := by
  cases ht with
  | close hw =>
    rw [List.append_assoc]
    exact closed_append hw (by decide) _
  | more hw =>
    rw [List.append_assoc]
    exact closed_append hw (by decide) _

theorem length_member_pos (hm : Grammar.Member m e) : 0 < e.length := by
  obtain ⟨hw, hk, hw', hw''⟩ := hm
  simp only [List.length_append, List.length_cons]
  omega

theorem members_tail (ht : Tail ms t) (hms : SeesAll ms found found') (rest : List Char) :
    ∀ n, (t ++ rest).length < n →
      Reader.members member depth n false found (t ++ rest) = .ok (found', '}' :: rest) := by
  induction ht generalizing found with
  | close hw =>
    rintro (_ | n) hn
    · nomatch hn
    cases hms
    rw [List.append_assoc]
    exact members_close hw
  | @more ws e t m ms hw hm ht ih =>
    rintro (_ | n) hn
    · nomatch hn
    have hcomma : ws ++ ',' :: (e ++ t) ++ rest = (ws ++ [',']) ++ (e ++ (t ++ rest)) := by simp
    have hsep : Reader.Separator false (ws ++ [',']) := ⟨ws, hw, rfl⟩
    rw [hcomma] at hn ⊢
    cases hms with
    | cons h hms =>
      rw [members_cons hsep hm h (closed_tail ht rest)]
      refine ih hms n ?_
      simp only [List.length_append, List.length_cons, List.length_nil] at hn ⊢
      omega

/-- The members of an object are read up to its brace if they are written there and name a
machine at most once, and only then. -/
theorem members_eq_ok :
    Reader.members member depth (cs.length + 1) true none cs = .ok (found, rest) ↔
      ∃ ms t more, Object ms ('{' :: t) ∧ SeesAll ms none found ∧ rest = '}' :: more ∧
        cs = t ++ more := by
  constructor
  · exact members_sound
  · rintro ⟨ms, t, more, ht, hms, rfl, rfl⟩
    cases ht with
    | empty hw =>
      cases hms
      rw [List.append_assoc]
      exact members_close hw
    | @members e t m ms hm ht =>
      cases hms with
      | cons h hms =>
        have hsep : Reader.Separator true [] := rfl
        have hlength := length_member_pos hm
        calc Reader.members member depth ((e ++ t ++ more).length + 1) true none (e ++ t ++ more)
          _ = Reader.members member depth (e ++ t ++ more).length false _ (t ++ more) := by
            rw [List.append_assoc e]
            exact members_cons hsep hm h (closed_tail ht more)
          _ = .ok (found, '}' :: more) := by
            refine members_tail ht hms more _ ?_
            simp only [List.length_append]
            omega

/-! ## Payloads -/

/-- The texts that name a machine. -/
inductive Names : List Char → String → Prop
  | object {before text after v : List Char} {ms : List Entry} {machine : String}
    (hbefore : Blank before) (ht : Object ms text) (hafter : Blank after)
    (hname : ms.filter (·.1 = nameMember) = [(nameMember, v)]) (hv : Literal v machine)
    (hothers : ∀ m ∈ ms, m.1 ≠ nameMember → Written .value m.2) :
    Names (before ++ (text ++ after)) machine
  | list {before ws v ws' after : List Char} {machine : String} (hbefore : Blank before)
    (hw : Blank ws) (hv : Literal v machine) (hw' : Blank ws') (hafter : Blank after) :
    Names (before ++ '[' :: (ws ++ (v ++ (ws' ++ ']' :: after)))) machine

theorem element_eq_ok : element depth cs = .ok (machine, rest) ↔
    ∃ ws v, Blank ws ∧ Literal v machine ∧ cs = ws ++ (v ++ rest) := by
  constructor
  · intro h
    obtain ⟨ws, hw, hcs⟩ := exists_blank cs
    unfold element at h
    split at h
    · nomatch h
    · nomatch h
    next more hitem =>
    obtain ⟨ws', v, hw', hv, hmore⟩ := Reader.text_eq_ok.mp h
    have hblanks : skipBlanks cs = more := by
      unfold Reader.nextItem at hitem
      split at hitem
      · nomatch hitem
      split at hitem <;> cases hitem
      assumption
    refine ⟨ws ++ ws', v, List.forall_mem_append.mpr ⟨hw, hw'⟩, hv, ?_⟩
    rw [hcs, hblanks, hmore, List.append_assoc]
  · rintro ⟨ws, v, hw, hv, rfl⟩
    obtain ⟨more, hmore, hread⟩ := hv.read rest
    rw [hmore, element, Reader.nextItem, skipBlanks_append hw]
    exact hread

theorem objectBody_eq_ok :
    Reader.objectBody member required none depth cs = .ok (machine, rest) ↔
      ∃ ms t, Object ms ('{' :: t) ∧ SeesAll ms none (some machine) ∧ cs = t ++ rest := by
  constructor
  · intro h
    unfold Reader.objectBody at h
    split at h
    · nomatch h
    next found more hmembers =>
    obtain ⟨ms, t, more, ht, hms, rfl, hcs⟩ := members_eq_ok.mp hmembers
    cases found with
    | none => nomatch h
    | some name =>
      cases h
      exact ⟨ms, t, ht, hms, hcs⟩
  · rintro ⟨ms, t, ht, hms, hcs⟩
    unfold Reader.objectBody
    rw [members_eq_ok.mpr ⟨ms, t, rest, ht, hms, rfl, hcs⟩]
    rfl

theorem inList_eq_ok : Reader.inList (element depth) cs = .ok (machine, rest) ↔
    ∃ ws v ws', Blank ws ∧ Literal v machine ∧ Blank ws' ∧
      cs = ws ++ (v ++ (ws' ++ ']' :: rest)) := by
  constructor
  · intro h
    unfold Reader.inList at h
    split at h
    · nomatch h
    next helement =>
    obtain ⟨more, hend, h⟩ := map_eq_ok.mp h
    cases h
    obtain ⟨ws, v, hw, hv, rfl⟩ := element_eq_ok.mp helement
    obtain ⟨ws', hw', rfl⟩ := Reader.endList_eq_ok.mp hend
    exact ⟨ws, v, ws', hw, hv, hw', rfl⟩
  · rintro ⟨ws, v, ws', hw, hv, hw', rfl⟩
    unfold Reader.inList
    rw [element_eq_ok.mpr ⟨ws, v, hw, hv, rfl⟩]
    exact map_eq_ok.mpr ⟨_, Reader.endList_eq_ok.mpr ⟨ws', hw', rfl⟩, rfl⟩

theorem reader_eq_ok : reader Reader.depthLimit cs = .ok (machine, rest) ↔
    ∃ before, Blank before ∧
      ((∃ ms text, Object ms text ∧ SeesAll ms none (some machine) ∧
          cs = before ++ (text ++ rest)) ∨
        ∃ ws v ws', Blank ws ∧ Literal v machine ∧ Blank ws' ∧
          cs = before ++ '[' :: (ws ++ (v ++ (ws' ++ ']' :: rest)))) := by
  constructor
  · intro h
    obtain ⟨before, hbefore, hcs⟩ := exists_blank cs
    unfold reader Reader.objectOr at h
    split at h
    · next hblanks =>
      obtain ⟨ms, t, ht, hms, rfl⟩ := objectBody_eq_ok.mp h
      exact ⟨before, hbefore, .inl ⟨ms, _, ht, hms, by rwa [hblanks] at hcs⟩⟩
    · next hblanks =>
      obtain ⟨ws, v, ws', hw, hv, hw', rfl⟩ := inList_eq_ok.mp h
      exact ⟨before, hbefore, .inr ⟨ws, v, ws', hw, hv, hw', by rwa [hblanks] at hcs⟩⟩
    · nomatch h
  · rintro ⟨before, hbefore, ⟨ms, text, ht, hms, rfl⟩ | ⟨ws, v, ws', hw, hv, hw', rfl⟩⟩
    · obtain ⟨t, rfl⟩ : ∃ t, text = '{' :: t := by cases ht <;> exact ⟨_, rfl⟩
      unfold reader Reader.objectOr
      rw [skipBlanks_append hbefore]
      exact objectBody_eq_ok.mpr ⟨ms, t, ht, hms, rfl⟩
    · unfold reader Reader.objectOr
      rw [skipBlanks_append hbefore]
      exact inList_eq_ok.mpr ⟨ws, v, ws', hw, hv, hw', rfl⟩

/-- A machine is read from the payloads that name it, and from no others. -/
theorem ofPayload_eq_ok {payload : String} :
    ofPayload payload = .ok machine ↔ Names payload.toList machine := by
  rw [ofPayload, Reader.document_eq_ok]
  constructor
  · rintro ⟨rest, hread, hrest⟩
    obtain ⟨before, hbefore, ⟨ms, text, ht, hms, hcs⟩ | ⟨ws, v, ws', hw, hv, hw', hcs⟩⟩ :=
      reader_eq_ok.mp hread
    · obtain ⟨⟨v, hname, hv⟩, hothers⟩ := seesAll_none.mp hms
      exact hcs ▸ .object hbefore ht hrest hname hv hothers
    · exact hcs ▸ .list hbefore hw hv hw' hrest
  · intro h
    generalize payload.toList = cs at h
    cases h with
    | @object before text after v ms _ hbefore ht hafter hname hv hothers =>
      have hms := seesAll_none.mpr ⟨⟨v, hname, hv⟩, hothers⟩
      exact ⟨after, reader_eq_ok.mpr ⟨before, hbefore, .inl ⟨ms, text, ht, hms, rfl⟩⟩, hafter⟩
    | @list before ws v ws' after _ hbefore hw hv hw' hafter =>
      exact ⟨after, reader_eq_ok.mpr ⟨before, hbefore, .inr ⟨ws, v, ws', hw, hv, hw', rfl⟩⟩, hafter⟩

/-! ## Termination -/

/-- The loops of the decoder all terminate, whatever text and state they are in: those that read
and pass strings, that which passes values, and that over the members. Its other readers recurse
on the text itself. -/
structure DecoderTerminates : Prop where
  strings : Terminates (fun n (_ : Unit) => literalChars n) literalTurn
  skippedStrings : Terminates (fun n (_ : Unit) => skipLiteralFrom n) skipLiteralTurn
  values : Terminates skipFrom skipTurn
  members : ∀ depth, Terminates
    (fun n (p : Bool × Option String) => Reader.members member depth n p.1 p.2)
    (Reader.membersTurn member depth)

theorem decoder_terminates : DecoderTerminates where
  strings := literalChars_terminates
  skippedStrings := skipLiteralFrom_terminates
  values := skipFrom_terminates
  members depth := Reader.members_terminates fun name found cs found' rest h => by
    obtain ⟨ws, ws', v, -, -, -, rfl⟩ := memberValue_sound h
    simp only [List.length_append, List.length_cons]
    omega

end Holder

theorem Record.holder_eq_ok {r : Record} {payload machine : String}
    (hp : r.payload? = some payload) :
    r.holder = .ok machine ↔ machine ≠ "" ∧ Holder.ofPayload payload = .ok machine := by
  simp only [holder, hp]
  cases Holder.ofPayload payload with
  | error fault => simp
  | ok name =>
    by_cases hname : name = ""
    · simp [hname, eq_comm]
    · simp only [if_neg hname, Except.ok.injEq]
      exact ⟨fun h => ⟨h ▸ hname, h⟩, fun h => h.2⟩

/-- A record names the machine that its payload names, if that has a name; every other payload is
an error of decoding, and the decoder comes to an end on all of them. -/
theorem Record.holder_decodes {r : Record} {payload : String} (hp : r.payload? = some payload) :
    (∀ machine, r.holder = .ok machine ↔ machine ≠ "" ∧ Holder.Names payload.toList machine) ∧
      ((∀ machine, machine ≠ "" → ¬ Holder.Names payload.toList machine) →
        ∃ why message, r.holder = .error why ∧
          why.toError = .serialization message (some "HolderInfo")) ∧
      Holder.DecoderTerminates := by
  have hok (machine : String) :
      r.holder = .ok machine ↔ machine ≠ "" ∧ Holder.Names payload.toList machine := by
    rw [holder_eq_ok hp, Holder.ofPayload_eq_ok]
  refine ⟨hok, fun hnone => ?_, Holder.decoder_terminates⟩
  cases hread : r.holder with
  | error why => exact ⟨why, why.message, rfl, rfl⟩
  | ok machine =>
    obtain ⟨hne, hnames⟩ := (hok machine).mp hread
    exact absurd hnames (hnone machine hne)

def Record.ofPayload (payload : String) : Record :=
  { (default : Record) with data := Table.empty.insert payloadEntry payload }

/-- A payload that holds a nested value with half of a surrogate pair, writes the key with an escape
and the name with a whole pair. -/
def Holder.nestedPayload : String :=
  "\x7b\"spec\": [[-0.5e+3, \x7b\x7d], \"\\ud800\"], \"machine\\u004eame\": \"\\ud83e\\udd80\"\x7d\n"

def Holder.doublePayload : String := "\x7b\"machineName\":\"m-1\",\"machineName\":\"m-2\"\x7d"

theorem Record.holder_decodes_nested :
    (Record.ofPayload Holder.nestedPayload).payload? = some Holder.nestedPayload ∧
      Holder.Names Holder.nestedPayload.toList "🦀" ∧
      ∃ why message, (Record.ofPayload Holder.doublePayload).holder = .error why ∧
        why.toError = .serialization message (some "HolderInfo") := by
  have hnested : (Record.ofPayload Holder.nestedPayload).payload? = some Holder.nestedPayload := rfl
  have hdouble : (Record.ofPayload Holder.doublePayload).payload? = some Holder.doublePayload := rfl
  have hok : (Record.ofPayload Holder.nestedPayload).holder = .ok "🦀" := by decide +kernel
  have hnone (machine : String) (_ : machine ≠ "") :
      ¬ Holder.Names Holder.doublePayload.toList machine := by
    have hfault : (Holder.ofPayload Holder.doublePayload).toBool = false := by decide +kernel
    intro hnames
    rw [Holder.ofPayload_eq_ok.mpr hnames] at hfault
    nomatch hfault
  exact ⟨hnested, (((Record.holder_decodes hnested).1 _).mp hok).2,
    (Record.holder_decodes hdouble).2.1 hnone⟩

end InitLock
