import InitLock.Command.Run
import InitLock.Error
import InitLock.Proofs.Command.Pieces
import Mathlib.Data.List.Basic

/-!
# Where options stand

A command line that is understood is made of pieces (`Line`), of which the global
ones may stand before the command or after it. What it is understood as depends
on the command and on which pieces there are, and not on where they stand
(`position_free`).
-/

namespace InitLock.Command

open Piece

/-! ## Global options -/

def Piece.IsGlobal (p : Piece) : Prop :=
  p.option = .inl .kubeconfig ∨ p.option = .inl .logFormat ∨ p.option = .inl .holderNs

theorem Piece.IsGlobal.known {p : Piece} (h : p.IsGlobal) (l : Level) : l.Knows p := by
  unfold Level.Knows
  rcases h with h | h | h <;> rw [h] <;> rfl

theorem knows_root_iff {p : Piece} : Level.root.Knows p ↔ p.IsGlobal := by
  refine ⟨fun h => ?_, fun h => h.known .root⟩
  unfold Level.Knows at h
  unfold Piece.IsGlobal
  cases hg : p.given? with
  | none =>
    rw [option_of_none hg] at h
    cases h
  | some g =>
    obtain ⟨x, v⟩ := g
    rw [option_of_given? hg] at h ⊢
    cases x with
    | kubeconfig => exact .inl rfl
    | logFormat => exact .inr (.inl rfl)
    | holderNs => exact .inr (.inr rfl)
    | cluster | ns | clusterUid | machine => cases h

/-! ## Values -/

section
variable {ps qs : List Piece} {p : Piece} {x : Setting} {v : String}

theorem get?_gather_append : (gather (ps ++ qs)).get? x =
    ((gather ps).get? x).or ((gather qs).get? x) := by
  rw [Seen.get?, gather, List.filterMap_append, List.lookup_append]
  rfl

theorem get?_gather_cons_json (h : p.given? = none) :
    (gather (p :: ps)).get? x = (gather ps).get? x := by
  rw [Seen.get?, gather, List.filterMap_cons_none h]
  rfl

theorem get?_gather_cons {y : Setting} (h : p.given? = some (y, v)) :
    (gather (p :: ps)).get? x = if x = y then some v else (gather ps).get? x := by
  rw [Seen.get?, gather, List.filterMap_cons_some h, List.lookup_cons]
  by_cases hxy : x = y
  · simp [hxy]
  · rw [beq_false_of_ne hxy, if_neg hxy]
    rfl

/-- A setting has the value that some piece gives it. -/
theorem get?_gather_eq_some (h : (options ps).Nodup) :
    (gather ps).get? x = some v ↔ ∃ p ∈ ps, p.given? = some (x, v) := by
  induction ps with
  | nil => simp [gather, Seen.get?]
  | cons p ps ih =>
    obtain ⟨hp, hps⟩ := List.nodup_cons.1 h
    cases hg : p.given? with
    | none =>
      rw [get?_gather_cons_json hg, ih hps]
      simp [hg]
    | some g =>
      obtain ⟨y, w⟩ := g
      simp only [get?_gather_cons hg, List.mem_cons, exists_eq_or_imp, hg]
      split
      · next hxy =>
        subst hxy
        have hnew : ¬ ∃ q ∈ ps, q.given? = some (x, v) := by
          rintro ⟨q, hq, hv⟩
          exact hp (List.mem_map.2
            ⟨q, hq, (option_of_given? hv).trans (option_of_given? hg).symm⟩)
        simp [hnew]
      · next hxy => simp [ih hps, Ne.symm hxy]

/-- Of pieces with different options it does not matter in which order they are read. -/
theorem get?_gather_of_perm (h : (options ps).Nodup) (hperm : qs.Perm ps) (x : Setting) :
    (gather qs).get? x = (gather ps).get? x := by
  have hq : (options qs).Nodup := ((hperm.map option).nodup_iff).2 h
  refine Option.ext fun v => ?_
  rw [get?_gather_eq_some h, get?_gather_eq_some hq]
  simp only [hperm.mem_iff]

end

/-! ## Lines -/

/-- A command line in pieces. -/
structure Line where
  before : List Piece
  verb : Verb
  after : List Piece
  before_global : ∀ p ∈ before, p.IsGlobal

namespace Line

def words (l : Line) : List String :=
  l.before.flatMap Piece.words ++ l.verb.name :: l.after.flatMap Piece.words

def pieces (l : Line) : List Piece := l.before ++ l.after

def Once (l : Line) : Prop := (options l.pieces).Nodup

def value? (l : Line) (x : Setting) : Option String := (l.pieces.filterMap given?).lookup x

/-- A line has the command and the pieces of another, in any order; all but the global options stand
after the command. -/
def Rearranges (l' l : Line) : Prop := l'.verb = l.verb ∧ l'.pieces.Perm l.pieces

end Line

/-- The variables that are set have values that their settings may have. -/
def Environment.Valid (env : Environment) : Prop :=
  ∀ x v, env.get? x = some v → Seen.accepts x v = .ok ()

theorem Environment.Valid.check {env : Environment} (h : env.Valid) (s : Seen) :
    env.check s = .ok () := by
  refine forM_eq_ok.2 fun x _ => ?_
  split
  · next hv => exact h x _ hv
  · rfl

/-! ## Parsing a line -/

/-- What a line is understood as whose two levels have been read. -/
def invocationOf (env : Environment) (before after : Seen) (cluster : String) (action : Action) :
    Invocation where
  kubeconfig := globalValue env before after .kubeconfig
  logFormat := formatOf (globalValue env before after .logFormat)
  holderNs := (globalValue env before after .holderNs).getD Config.defaultHolderNs
  action
  clusterName := cluster
  ns := (after.get? .ns).getD "default"
  clusterUid := after.get? .clusterUid

section
variable {env : Environment} {words : List String} {verb : Verb}

theorem readCommand_eq_ok (henv : env.Valid) {after : Seen} {cluster : String} {action : Action} :
    readCommand env verb words = .ok (after, cluster, action) ↔
      (∃ found, Reads (.command verb) .nothing words after found) ∧
        required after .cluster = .ok cluster ∧ actionOf verb after = .ok action := by
  simp only [readCommand, do_eq_ok, henv.check, Prod.exists, Reads]
  constructor
  · rintro ⟨s, found, hscan, s', hs', -, -, cluster', hc, action', ha, h⟩
    cases h
    exact ⟨⟨found, s, hscan, hs'⟩, hc, ha⟩
  · rintro ⟨⟨found, s, hscan, hs'⟩, hc, ha⟩
    exact ⟨s, found, hscan, after, hs', (), trivial, cluster, hc, action, ha, rfl⟩

theorem parse_eq_ok (henv : env.Valid) {i : Invocation} :
    parse env words = .ok i ↔
      ∃ before verb rest after cluster action,
        Reads .root .nothing words before (some (verb, rest)) ∧
        readCommand env verb rest = .ok (after, cluster, action) ∧
        i = invocationOf env before after cluster action := by
  simp only [parse, do_eq_ok, Prod.exists, Reads]
  constructor
  · rintro ⟨s, found, hscan, h⟩
    cases found with
    | none =>
      obtain ⟨before, -, h⟩ := do_eq_ok.1 h
      obtain ⟨-, -, h⟩ := do_eq_ok.1 h
      split at h <;> cases h
    | some f =>
      obtain ⟨verb, rest⟩ := f
      obtain ⟨⟨after, cluster, action⟩, hread, h⟩ := do_eq_ok.1 h
      obtain ⟨before, hs, h⟩ := do_eq_ok.1 h
      obtain ⟨-, -, h⟩ := do_eq_ok.1 h
      cases h
      exact ⟨before, verb, rest, after, cluster, action, ⟨s, hscan, hs⟩, hread, rfl⟩
  · rintro ⟨before, verb, rest, after, cluster, action, ⟨s, hscan, hs⟩, hread, rfl⟩
    refine ⟨s, some (verb, rest), hscan, ?_⟩
    exact do_eq_ok.2 ⟨_, hread, do_eq_ok.2 ⟨before, hs, do_eq_ok.2 ⟨(), henv.check before, rfl⟩⟩⟩

end

/-! ## The levels of a line -/

section
variable {t : Seen} {ps qs : List Piece} {verb : Verb}

theorem reads_command {found : Option (Verb × List String)} :
    Reads (.command verb) .nothing (ps.flatMap Piece.words) t found ↔
      (∀ p ∈ ps, (Level.command verb).Knows p ∧ p.Accepted) ∧ (options ps).Nodup ∧
        t = gather ps ∧ found = none := by
  have hread := @reads_pieces (.command verb) t [] found [] List.nodup_nil ps
  rw [List.append_nil, List.nil_append, reads_nil rfl] at hread
  exact hread

theorem reads_root {rest : List String} {found : Option (Verb × List String)} :
    Reads .root .nothing (ps.flatMap Piece.words ++ verb.name :: rest) t found ↔
      (∀ p ∈ ps, Level.root.Knows p ∧ p.Accepted) ∧ (options ps).Nodup ∧
        t = gather ps ∧ found = some (verb, rest) := by
  have hread := @reads_pieces .root t (verb.name :: rest) found [] List.nodup_nil ps
  rw [List.nil_append, reads_verb rfl] at hread
  exact hread

end

/-! ## What a line is understood as -/

section
variable {env : Environment} {s t : Seen} {ps qs : List Piece} {x : Setting}

theorem globalValue_nothing : globalValue env .nothing s x = (s.get? x).or (env.get? x) := by
  unfold globalValue valueAt
  cases s.get? x <;> cases env.get? x <;> rfl

theorem one_level (h : (options (ps ++ qs)).Nodup) (x : Setting) :
    (gather ps).get? x = none ∨ (gather qs).get? x = none := by
  rw [get?_gather_eq_none, get?_gather_eq_none, ← Classical.not_and_iff_not_or_not]
  rw [options, List.map_append, List.nodup_append] at h
  rintro ⟨hp, hq⟩
  exact h.2.2 _ hp _ hq rfl

/-- A global option means the same before the command and after it. -/
theorem globalValue_gather (h : (options (ps ++ qs)).Nodup) (x : Setting) :
    globalValue env (gather ps) (gather qs) x =
      globalValue env .nothing (gather (ps ++ qs)) x := by
  rw [globalValue_nothing, get?_gather_append]
  unfold globalValue valueAt
  rcases one_level h x with hnone | hnone <;> rw [hnone]
  · cases (gather qs).get? x <;> cases env.get? x <;> rfl
  · cases (gather ps).get? x <;> cases env.get? x <;> rfl

theorem get?_of_global (h : ∀ p ∈ ps, p.IsGlobal)
    (hx : Level.root.long (optionName (.inl x)) = none) : (gather ps).get? x = none := by
  refine get?_gather_eq_none.2 fun hm => ?_
  obtain ⟨p, hp, hoption⟩ := List.mem_map.1 hm
  have hknown := (h p hp).known .root
  rw [Level.Knows, hoption, hx] at hknown
  cases hknown

theorem json_of_global (h : ∀ p ∈ ps, p.IsGlobal) : (gather ps).json = false := by
  refine Bool.eq_false_iff.2 fun hj => ?_
  obtain ⟨p, hp, hoption⟩ := List.mem_map.1 (json_gather.1 hj)
  rcases h p hp with hg | hg | hg <;> cases hoption.symm.trans hg

end

/-- Two levels say the same. -/
structure Agree (s t : Seen) : Prop where
  json : s.json = t.json
  get? (x : Setting) : s.get? x = t.get? x

namespace Agree

variable {s t : Seen}

theorem required (h : Agree s t) (x : Setting) : required s x = Command.required t x := by
  rw [Command.required, Command.required, h.get?]

theorem actionOf (h : Agree s t) (verb : Verb) : actionOf verb s = Command.actionOf verb t := by
  cases verb <;> simp only [Command.actionOf, h.json, h.required]

theorem invocationOf (h : Agree s t) (env : Environment) :
    invocationOf env .nothing s = Command.invocationOf env .nothing t := by
  funext cluster action
  simp only [Command.invocationOf, globalValue_nothing, h.get?]

end Agree

/-- The pieces may stand after a command, with the values they give, and say what the command is to
do. -/
structure Understood (env : Environment) (verb : Verb) (ps : List Piece) (i : Invocation) :
    Prop where
  known : ∀ p ∈ ps, (Level.command verb).Knows p ∧ p.Accepted
  meaning : ∃ cluster action, required (gather ps) .cluster = .ok cluster ∧
    actionOf verb (gather ps) = .ok action ∧
    i = invocationOf env .nothing (gather ps) cluster action

section
variable {env : Environment} {ps qs : List Piece} {verb : Verb} {i : Invocation}

theorem Understood.of_perm (h : Understood env verb ps i) (hps : (options ps).Nodup)
    (hperm : qs.Perm ps) : Understood env verb qs i where
  known p hp := h.known p (hperm.mem_iff.1 hp)
  meaning := by
    have hagree : Agree (gather qs) (gather ps) :=
      ⟨hperm.any_eq, get?_gather_of_perm hps hperm⟩
    rw [hagree.required, hagree.actionOf, hagree.invocationOf]
    exact h.meaning

namespace Line

theorem get?_pieces (l : Line) {x : Setting}
    (hx : Level.root.long (optionName (.inl x)) = none) :
    (gather l.pieces).get? x = (gather l.after).get? x := by
  rw [pieces, get?_gather_append, get?_of_global l.before_global hx, Option.none_or]

theorem json_pieces (l : Line) : (gather l.pieces).json = (gather l.after).json := by
  have hjson : (gather l.pieces).json = ((gather l.before).json || (gather l.after).json) :=
    List.any_append
  rw [hjson, json_of_global l.before_global, Bool.false_or]

/-- A line means what the line means that gives all its options after the command. -/
theorem invocationOf_levels {l : Line} (h : l.Once) :
    invocationOf env (gather l.before) (gather l.after) =
      invocationOf env .nothing (gather l.pieces) := by
  funext cluster action
  simp only [invocationOf, globalValue_gather h, l.get?_pieces (x := .ns) rfl,
    l.get?_pieces (x := .clusterUid) rfl]
  rfl

theorem required_cluster (l : Line) :
    required (gather l.pieces) .cluster = required (gather l.after) .cluster := by
  rw [required, required, l.get?_pieces rfl]

theorem actionOf_pieces (l : Line) :
    actionOf verb (gather l.pieces) = actionOf verb (gather l.after) := by
  cases verb <;> simp only [actionOf, required, l.json_pieces, l.get?_pieces (x := .machine) rfl]

/-- A line is understood by its pieces, wherever they stand. -/
theorem parse_words (henv : env.Valid) {l : Line} (h : l.Once) :
    parse env l.words = .ok i ↔ Understood env l.verb l.pieces i := by
  have honce := h
  rw [Once, pieces, options, List.map_append, List.nodup_append] at honce
  obtain ⟨hbefore, hafter, -⟩ := honce
  rw [parse_eq_ok henv]
  constructor
  · rintro ⟨before, verb, rest, after, cluster, action, hroot, hcommand, rfl⟩
    obtain ⟨hb, -, rfl, hfound⟩ := reads_root.1 hroot
    cases hfound
    obtain ⟨⟨found, hreads⟩, hc, ha⟩ := (readCommand_eq_ok henv).1 hcommand
    obtain ⟨hk, -, rfl, -⟩ := reads_command.1 hreads
    refine ⟨List.forall_mem_append.2 ⟨fun p hp => ?_, hk⟩, cluster, action, ?_, ?_, ?_⟩
    · exact ⟨(l.before_global p hp).known _, (hb p hp).2⟩
    · rwa [required_cluster]
    · rwa [actionOf_pieces]
    · rw [invocationOf_levels h]
  · rintro ⟨hknown, cluster, action, hc, ha, rfl⟩
    obtain ⟨hb, hk⟩ := List.forall_mem_append.1 hknown
    rw [required_cluster] at hc
    rw [actionOf_pieces] at ha
    have hroot : Reads .root .nothing l.words (gather l.before)
        (some (l.verb, l.after.flatMap Piece.words)) :=
      reads_root.2
        ⟨fun p hp => ⟨(l.before_global p hp).known .root, (hb p hp).2⟩, hbefore, rfl, rfl⟩
    have hcommand := reads_command.2 ⟨hk, hafter, rfl, rfl⟩
    exact ⟨_, _, _, _, cluster, action, hroot,
      (readCommand_eq_ok henv).2 ⟨⟨none, hcommand⟩, hc, ha⟩, by rw [invocationOf_levels h]⟩

/-- A command line that is understood is made of pieces. -/
theorem exists_of_parse {words : List String} (henv : env.Valid) (hdashes : "--" ∉ words)
    (h : parse env words = .ok i) : ∃ l : Line, l.words = words := by
  obtain ⟨before, verb, rest, after, cluster, action, hroot, hcommand, -⟩ :=
    (parse_eq_ok henv).1 h
  obtain ⟨⟨found, hreads⟩, -, -⟩ := (readCommand_eq_ok henv).1 hcommand
  obtain ⟨ps, rfl⟩ := (hroot.pieces hdashes).1 rfl
  have hrest : "--" ∉ rest := fun hm => hdashes (by simp [unread, hm])
  obtain rfl := hreads.found_eq_none hrest
  obtain ⟨qs, rfl⟩ := (hreads.pieces hrest).1 rfl
  have hglobal := (reads_root.1 hroot).1
  refine ⟨⟨ps, verb, qs, fun p hp => knows_root_iff.1 (hglobal p hp).1⟩, ?_⟩
  simp [words, unread]

end Line

end

/-! ## The global options -/

/-- Each global option has the value that the line gives it, else that of its variable, else its
default, and machines are looked up in the namespace that it gives. -/
structure Invocation.Globals (env : Environment) (l : Line) (i : Invocation) : Prop where
  kubeconfig : i.kubeconfig = (l.value? .kubeconfig).or env.kubeconfig
  logFormat : match (l.value? .logFormat).or env.logFormat with
    | none => i.logFormat = .text
    | some v => Log.Format.ofName v = .ok i.logFormat
  holderNs : i.holderNs = ((l.value? .holderNs).or env.holderNs).getD "eksa-system"
  lookupNs : i.task.lookupNs = i.holderNs

theorem ofName_of_accepts {v : String} (h : Seen.accepts .logFormat v = .ok ()) :
    Log.Format.ofName v = .ok (formatOf (some v)) := by
  cases hf : Log.Format.ofName v with
  | error e =>
    rw [Seen.accepts, hf] at h
    cases h
  | ok f => simp [formatOf, hf]

section
variable {env : Environment} {l : Line} {i : Invocation}

/-- A setting has no value but one that it may have. -/
theorem Understood.accepts (hu : Understood env l.verb l.pieces i) (henv : env.Valid) (h : l.Once)
    {x : Setting} {v : String} (hv : (l.value? x).or (env.get? x) = some v) :
    Seen.accepts x v = .ok () := by
  obtain hv | ⟨-, hv⟩ := Option.or_eq_some_iff.1 hv
  · obtain ⟨p, hp, hg⟩ := (get?_gather_eq_some h).1 hv
    exact (hu.known p hp).2 x v hg
  · exact henv x v hv

theorem Understood.globals (hu : Understood env l.verb l.pieces i) (henv : env.Valid)
    (h : l.Once) : i.Globals env l := by
  have hvalue (x : Setting) :
      globalValue env .nothing (gather l.pieces) x = (l.value? x).or (env.get? x) :=
    globalValue_nothing
  have haccepts {v : String} := hu.accepts henv h (x := .logFormat) (v := v)
  obtain ⟨cluster, action, -, -, rfl⟩ := hu.meaning
  have hformat : (invocationOf env .nothing (gather l.pieces) cluster action).logFormat =
      formatOf ((l.value? .logFormat).or env.logFormat) := congrArg formatOf (hvalue .logFormat)
  refine ⟨hvalue .kubeconfig, ?_, congrArg (·.getD "eksa-system") (hvalue .holderNs), rfl⟩
  rw [hformat]
  cases hv : (l.value? .logFormat).or env.logFormat with
  | none => rfl
  | some v => exact ofName_of_accepts (haccepts hv)

end

/-- What a command line is understood as does not depend on where its global options stand, nor on
the order of its options. -/
theorem position_free {env : Environment} (henv : env.Valid) {words : List String}
    (hdashes : "--" ∉ words) {i : Invocation} (hparse : parse env words = .ok i) :
    (∃ l : Line, l.words = words) ∧
      ∀ l : Line, l.words = words → l.Once →
        (∀ l' : Line, l'.Rearranges l → parse env l'.words = .ok i) ∧ i.Globals env l := by
  refine ⟨Line.exists_of_parse henv hdashes hparse, ?_⟩
  rintro l rfl honce
  have hu := (Line.parse_words henv honce).1 hparse
  refine ⟨fun l' ⟨hverb, hperm⟩ => ?_, hu.globals henv honce⟩
  have honce' : l'.Once := ((hperm.map option).nodup_iff).2 honce
  rw [Line.parse_words henv honce', hverb]
  exact hu.of_perm honce hperm

/-- A line that looks machines up in the namespace `lock`. -/
def early : Line where
  before := [.apart .holderNs "lock" rfl]
  verb := .status
  after := [.joined .cluster "c", .json]
  before_global := by simp [IsGlobal, option, given?]

def late : Line where
  before := []
  verb := .status
  after := [.json, .apart .holderNs "lock" rfl, .joined .cluster "c"]
  before_global := nofun

theorem position_free_late :
    let env : Environment := ⟨none, some "JSON", some "machines"⟩
    let i : Invocation := ⟨none, .json, "lock", .status true, "c", "default", none⟩
    early.words = ["--holder-namespace", "lock", "status", "--cluster=c", "--json"] ∧
      late.words = ["status", "--json", "--holder-namespace", "lock", "--cluster=c"] ∧
      parse env early.words = .ok i ∧ parse env late.words = .ok i ∧ i.Globals env early := by
  intro env i
  have henv : env.Valid := by
    intro x v h
    cases x <;> cases h <;> decide
  have hparse : parse env early.words = .ok i := by decide +kernel
  have honce : early.Once := by unfold Line.Once; decide
  obtain ⟨hmoved, hglobals⟩ := (position_free henv (by decide) hparse).2 early rfl honce
  have hperm : late.pieces.Perm early.pieces :=
    @List.perm_append_comm Piece [.json] [.apart .holderNs "lock" rfl, .joined .cluster "c"]
  exact ⟨by decide, by decide, hparse, hmoved late ⟨rfl, hperm⟩, hglobals⟩

end InitLock.Command
