import InitLock.Config
import InitLock.Log

/-!
# The command line

`etcdadm-lock [options] status|lock|unlock [options]`. Three options are global:
they may stand before or after the command, and each takes its value from the
line, else from its environment variable, else from its default. A value that
both places give is the one after the command.

A level is the part of the line before the command, or the part from it on.
Within a level an option without `=` waits for the next word that does not look
like an option; it is settled when the next option begins or the level ends.
-/

namespace InitLock.Command

/-- An option that takes a value. -/
inductive Setting where
  | kubeconfig
  | logFormat
  | holderNs
  | cluster
  | ns
  | clusterUid
  | machine
  deriving DecidableEq, Repr

/-- An option that takes none. -/
inductive Flag where
  | json
  | help
  | version
  deriving DecidableEq, Repr

inductive Verb where
  | status
  | lock
  | unlock
  deriving DecidableEq, Repr

/-- Why a command line is refused, or answered without running a command. -/
inductive LineError where
  | missingRequired
  | unknownArgument
  | conflict
  | invalidValue
  | valueRefused
  | tooManyValues
  | unknownCommand
  | missingCommand
  | help
  | version
  | helpForMissingCommand
  deriving DecidableEq, Repr

/-- The environment variables of the global options. -/
structure Environment where
  kubeconfig : Option String
  logFormat : Option String
  holderNs : Option String
  deriving DecidableEq, Repr

/-! ## What may stand at a level -/

/-- A part of the line: before the command, or from it on. -/
inductive Level where
  | root
  | command (verb : Verb)
  deriving DecidableEq, Repr

def Verb.ofName : String → Option Verb
  | "status" => some .status
  | "lock" => some .lock
  | "unlock" => some .unlock
  | _ => none

namespace Level

/-- Whether a word names a command at a level, `help` among them. -/
def isCommand (l : Level) (word : String) : Bool :=
  match l with
  | root => (Verb.ofName word).isSome || word = "help"
  | command _ => false

def long (l : Level) (name : String) : Option (Setting ⊕ Flag) :=
  match name, l with
  | "kubeconfig", _ => some (.inl .kubeconfig)
  | "log-format", _ => some (.inl .logFormat)
  | "holder-namespace", _ => some (.inl .holderNs)
  | "help", _ => some (.inr .help)
  | "version", root => some (.inr .version)
  | "cluster", command _ => some (.inl .cluster)
  | "namespace", command _ => some (.inl .ns)
  | "cluster-uid", command _ => some (.inl .clusterUid)
  | "machine", command .lock => some (.inl .machine)
  | "json", command .status => some (.inr .json)
  | _, _ => none

def short (l : Level) (letter : Char) : Option (Setting ⊕ Flag) :=
  match letter, l with
  | 'h', _ => some (.inr .help)
  | 'V', root => some (.inr .version)
  | 'n', command _ => some (.inl .ns)
  | _, _ => none

/-- The error of a word that is no option and belongs to none. -/
def stray (l : Level) (afterDashes : Bool) (word : String) : LineError :=
  match l with
  | root => if afterDashes && l.isCommand word then .unknownArgument else .unknownCommand
  | command _ => .unknownArgument

end Level

/-! ## Reading a level -/

/-- What has been read of a level. -/
structure Seen where
  values : List (Setting × String)
  json : Bool
  pending : Option (Setting × Option String)
  deriving DecidableEq, Repr

namespace Seen

def nothing : Seen := ⟨[], false, none⟩

def get? (s : Seen) (x : Setting) : Option String := s.values.lookup x

/-- Whether a setting may have a value: log formats are known ones, paths not empty. -/
def accepts (x : Setting) (v : String) : Except LineError Unit :=
  match x with
  | .logFormat => if (Log.Format.ofName v).isOk then .ok () else .error .valueRefused
  | .kubeconfig => if v = "" then .error .invalidValue else .ok ()
  | _ => .ok ()

/-- Gives a setting its value, once. -/
def set (s : Seen) (x : Setting) (v : String) : Except LineError Seen :=
  if (s.get? x).isSome then .error .conflict
  else (accepts x v).map fun _ => { s with values := s.values ++ [(x, v)] }

def settle (s : Seen) : Except LineError Seen :=
  match s.pending with
  | none => .ok s
  | some (_, none) => .error .invalidValue
  | some (x, some v) => set { s with pending := none } x v

def awaits (s : Seen) : Bool :=
  match s.pending with
  | some (_, none) => true
  | _ => false

def flag (s : Seen) : Flag → Except LineError Seen
  | .help => .error .help
  | .version => .error .version
  | .json => if s.json then .error .conflict else .ok { s with json := true }

def option (s : Seen) (x : Setting) (v : Option String) : Except LineError Seen :=
  match v with
  | some v => s.set x v
  | none => .ok { s with pending := some (x, none) }

def long (s : Seen) (l : Level) (name : String) (v : Option String) : Except LineError Seen :=
  match l.long name with
  | none => .error .unknownArgument
  | some (.inl x) => s.settle.bind fun s => s.option x v
  | some (.inr f) => if v.isSome then .error .tooManyValues else s.settle.bind fun s => s.flag f

/-- The value in the rest of a cluster of letters. -/
def attached : List Char → Option String
  | [] => none
  | '=' :: v => some (String.ofList v)
  | v => some (String.ofList v)

/-- A cluster of letters: options without a value, and at most one with a value, which ends it. -/
def letters (s : Seen) (l : Level) : List Char → Except LineError Seen
  | [] => .ok s
  | c :: cs =>
    match l.short c with
    | none => .error .unknownArgument
    | some (.inl x) => s.settle.bind fun s => s.option x (attached cs)
    | some (.inr f) => (s.settle.bind fun s => s.flag f).bind fun s => letters s l cs

/-- A word that is no option. -/
def value (s : Seen) (l : Level) (word : String) : Except LineError Seen :=
  match s.pending with
  | some (x, none) => .ok { s with pending := some (x, some word) }
  | _ => .error (l.stray false word)

end Seen

inductive Word where
  | dashes
  | long (name : String) (value : Option String)
  | letters (cs : List Char)
  | plain

def splitValue (cs : List Char) : String × Option String :=
  match cs.dropWhile (· ≠ '=') with
  | [] => (String.ofList cs, none)
  | _ :: v => (String.ofList (cs.takeWhile (· ≠ '=')), some (String.ofList v))

/-- What a word looks like. -/
def Word.of (word : String) : Word :=
  match word.toList with
  | ['-', '-'] => dashes
  | '-' :: '-' :: cs => long (splitValue cs).1 (splitValue cs).2
  | '-' :: c :: cs => letters (c :: cs)
  | _ => plain

/-- What `help` answers: the words after it must be commands, one below the other. -/
def helpOn : List String → LineError
  | [] => .help
  | [word] => if Level.root.isCommand word then .help else .unknownCommand
  | _ :: _ :: _ => .unknownCommand

/-- Reads a level up to its end or to a command, which comes with the words after it. -/
def scan (l : Level) (s : Seen) :
    List String → Except LineError (Seen × Option (Verb × List String))
  | [] => .ok (s, none)
  | word :: rest =>
    if !s.awaits && l.isCommand word then
      match Verb.ofName word with
      | some verb => .ok (s, some (verb, rest))
      | none => .error (helpOn rest)
    else
      match Word.of word with
      | .dashes =>
        match rest with
        | [] => .ok (s, none)
        | w :: _ => .error (l.stray true w)
      | .long name v => (s.long l name v).bind fun s => scan l s rest
      | .letters cs => (s.letters l cs).bind fun s => scan l s rest
      | .plain => (s.value l word).bind fun s => scan l s rest

/-! ## Global options -/

/-- Where a value comes from, the stronger source later. -/
inductive Source where
  | environment
  | line
  deriving DecidableEq, Repr

namespace Environment

def get? (env : Environment) : Setting → Option String
  | .kubeconfig => env.kubeconfig
  | .logFormat => env.logFormat
  | .holderNs => env.holderNs
  | _ => none

/-- Whether the variables of the settings a level does not give have values they may have. -/
def check (env : Environment) (s : Seen) : Except LineError Unit :=
  [Setting.kubeconfig, .logFormat, .holderNs].forM fun x =>
    match s.get? x, env.get? x with
    | none, some v => Seen.accepts x v
    | _, _ => .ok ()

end Environment

/-- The value of a global setting at a level, and its source. -/
def valueAt (env : Environment) (s : Seen) (x : Setting) : Option (Source × String) :=
  match s.get? x with
  | some v => some (.line, v)
  | none => (env.get? x).map fun v => (.environment, v)

/-- The value of a global setting, from the level of the command unless the one before it has a
stronger source. -/
def globalValue (env : Environment) (before after : Seen) (x : Setting) : Option String :=
  match valueAt env before x, valueAt env after x with
  | some (.line, v), some (.environment, _) => some v
  | some (_, v), none => some v
  | _, some (_, v) => some v
  | none, none => none

/-! ## Invocations -/

/-- What a command is to do. -/
inductive Action where
  | status (json : Bool)
  | lock (machine : String)
  | unlock
  deriving DecidableEq, Repr

/-- A command line that has been understood. -/
structure Invocation where
  kubeconfig : Option String
  logFormat : Log.Format
  holderNs : String
  action : Action
  clusterName : String
  ns : String
  clusterUid : Option String
  deriving DecidableEq, Repr

namespace Invocation

def cluster (i : Invocation) : Cluster := .named i.ns i.clusterName i.clusterUid

def config (i : Invocation) : Config := Config.default.withHolderNs i.holderNs

end Invocation

/-- A value that a command cannot do without. -/
def required (s : Seen) (x : Setting) : Except LineError String :=
  match s.get? x with
  | some v => .ok v
  | none => .error .missingRequired

/-- What a command does, with the values of its level. -/
def actionOf (verb : Verb) (s : Seen) : Except LineError Action :=
  match verb with
  | .status => .ok (.status s.json)
  | .lock => (required s .machine).map .lock
  | .unlock => .ok .unlock

def readCommand (env : Environment) (verb : Verb) (words : List String) :
    Except LineError (Seen × String × Action) := do
  let (s, _) ← scan (.command verb) .nothing words
  let s ← s.settle
  env.check s
  let cluster ← required s .cluster
  return (s, cluster, ← actionOf verb s)

/-- The log format of a value that has been accepted; the default is text. -/
def formatOf (v : Option String) : Log.Format :=
  match v.map Log.Format.ofName with
  | some (.ok f) => f
  | _ => .text

def parse (env : Environment) (words : List String) : Except LineError Invocation := do
  let (before, found) ← scan .root .nothing words
  match found with
  | none =>
    let before ← before.settle
    env.check before
    if before.values.isEmpty && env = ⟨none, none, none⟩ then throw .helpForMissingCommand
    else throw .missingCommand
  | some (verb, rest) =>
    let (after, cluster, action) ← readCommand env verb rest
    let before ← before.settle
    env.check before
    let global := globalValue env before after
    return {
      kubeconfig := global .kubeconfig
      logFormat := formatOf (global .logFormat)
      holderNs := (global .holderNs).getD Config.defaultHolderNs
      action
      clusterName := cluster
      ns := (after.get? .ns).getD "default"
      clusterUid := after.get? .clusterUid }

end InitLock.Command
