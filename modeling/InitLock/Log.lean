import InitLock.Json.Printer

/-!
# The log

A line has a level, a fixed text and named values. It is written as one JSON
object, or as its level and text followed by its fields.
-/

namespace InitLock.Log

inductive Level where
  | debug
  | info
  | warn
  | error
  deriving DecidableEq, Repr

namespace Level

def name : Level → String
  | debug => "DEBUG"
  | info => "INFO"
  | warn => "WARN"
  | error => "ERROR"

end Level

/-- A line of the log. -/
structure Line where
  level : Level
  text : String
  fields : List (String × String)
  deriving DecidableEq, Repr

/-! ## Formats -/

inductive Format where
  | json
  | text
  deriving DecidableEq, Repr

namespace Format

def name : Format → String
  | json => "json"
  | text => "text"

/-- A letter of the ASCII alphabet in lower case, any other character as it is. -/
def lower (s : String) : String := String.ofList (s.toList.map Char.toLower)

/-- The format of a name, in any case of its letters. -/
def ofName (s : String) : Except String Format :=
  let s := lower s
  if s = "json" then .ok json
  else if s = "text" ∨ s = "plain" then .ok text
  else .error ("unknown log format '" ++ s ++ "' (expected json or text)")

def default : Format := json

end Format

/-! ## Lines in writing -/

def Line.toJson (l : Line) : Json.Value :=
  .record
    [("level", .text l.level.name), ("message", .text l.text),
      ("fields", .record (l.fields.map fun f => (f.1, .text f.2)))]

def Line.render (format : Format) (l : Line) : String :=
  match format with
  | .json => String.ofList (l.toJson.write none)
  | .text => l.level.name ++ " " ++ l.text ++
      String.join (l.fields.map fun f => " " ++ f.1 ++ "=" ++ f.2)

/-! ## Settings -/

/-- The settings of a log. -/
structure Settings where
  format : Format
  filter : String
  deriving DecidableEq, Repr

namespace Settings

def default : Settings := ⟨.default, "info,etcdadm=debug,kube=info,tower=warn,hyper=warn"⟩

end Settings

inductive SetupError where
  | alreadySet
  deriving DecidableEq, Repr

namespace SetupError

def message : SetupError → String
  | alreadySet =>
    "failed to initialize tracing subscriber: " ++
      "a global default trace dispatcher has already been set"

end SetupError

def Settings.install (settings : Settings) (current : Option Settings) :
    Except SetupError Settings :=
  match current with
  | none => .ok settings
  | some _ => .error .alreadySet

end InitLock.Log
