import InitLock.Yaml.Value

/-!
# Shapes

What a value must look like: text, a truth value, one of some names, a list, a
dictionary, a record with named fields, or a value that JSON can hold. Null
stands for an empty list, dictionary or record. Tags do not count, except that
one may be the name of a choice and that JSON has none. Keys that a record does
not name are passed over.
-/

namespace InitLock.Yaml

/-- Whether a field must be there; one that is optional may be null instead. -/
inductive Need where
  | required
  | optional
  | defaulted
  deriving DecidableEq, Repr

/-- The shape of a value. A record has a name and its fields: their keys, whether they must be
there, and their shapes. -/
inductive Shape where
  | text
  | bool
  | choice (names : List String)
  | list (entry : Shape)
  | dict (value : Shape)
  | record (name : String) (fields : List (String × Need × Shape))
  | json

/-- How a value differs from a shape. -/
inductive Misfit where
  | type (found : Value) (expected : String)
  | missing (field : String)
  | twice (field : String)
  | noChoice (name : String) (names : List String)

namespace Misfit

def message : Misfit → String
  | type found expected => "invalid type: " ++ found.describe ++ ", expected " ++ expected
  | missing field => "missing field `" ++ field ++ "`"
  | twice field => "duplicate field `" ++ field ++ "`"
  | noChoice name names =>
    "unknown variant `" ++ name ++ "`, expected one of " ++
      String.intercalate ", " (names.map fun n => "`" ++ n ++ "`")

end Misfit

namespace Shape

/-- Text, where messages expect what is given. -/
def textAs (expected : String) (v : Value) : Except Misfit String :=
  match v.text? with
  | some s => .ok s
  | none => .error (.type v.untagged expected)

/-- Text, which is all a dictionary's key may be. -/
def checkText (v : Value) : Except Misfit Unit := (textAs "a string" v).map fun _ => ()

/-- One of some names: a text, or the tag of null. -/
def checkChoice (names : List String) (v : Value) : Except Misfit Unit :=
  let named (name : String) : Except Misfit Unit :=
    let name := unmarked name
    if name ∈ names then .ok () else .error (.noChoice name names)
  match v with
  | .scalar (.text name) => named name
  | .tagged name v => do
    named name
    match v.untagged with
    | .scalar .null => return ()
    | v => throw (.type v "unit")
  | v => .error (.type v "a Value::Tagged enum")

mutual

/-- A value that JSON can hold: it has no tags, and keys are text. -/
def checkJson : Value → Except Misfit Unit
  | .scalar _ => .ok ()
  | .list vs => checkJsonItems vs
  | .map ms => checkJsonMembers "a string key" ms
  | .tagged tag v => .error (.type (.tagged tag v) "any valid JSON value")

/-- Entries that JSON can hold. -/
def checkJsonItems : List Value → Except Misfit Unit
  | [] => .ok ()
  | v :: vs => do
    checkJson v
    checkJsonItems vs

/-- Members that JSON can hold, the first key being expected as given. -/
def checkJsonMembers (expected : String) : List (Value × Value) → Except Misfit Unit
  | [] => .ok ()
  | (k, v) :: ms => do
    let _ ← textAs expected k
    checkJson v
    checkJsonMembers "a string" ms

end

def checkAll : List (String × Need × Shape) → List (Value × Value) → Except Misfit Unit
  | [], _ => .ok ()
  | (name, need, _) :: fields, ms =>
    if need = .required ∧ !ms.any fun m => m.1.text? = some name then .error (.missing name)
    else checkAll fields ms

/-- Whether a key names a field that one of the earlier members has too. -/
def isTwice (fields : List (String × Need × Shape)) (key : String)
    (earlier : List (Value × Value)) : Bool :=
  fields.any (·.1 = key) && earlier.any fun m => m.1.text? = some key

mutual

/-- Compares a value with a shape, in the order of writing. -/
def check : Shape → Value → Except Misfit Unit
  | text, v => checkText v
  | bool, v => if v.bool?.isSome then .ok () else .error (.type v.untagged "a boolean")
  | choice names, v => checkChoice names v
  | list s, v =>
    match v.untagged with
    | .list vs => vs.forM (check s)
    | .scalar .null => .ok ()
    | v => .error (.type v "a sequence")
  | dict s, v =>
    match v.untagged with
    | .map ms => ms.forM fun m => do
      checkText m.1
      check s m.2
    | .scalar .null => .ok ()
    | v => .error (.type v "a map")
  | record name fields, v =>
    match v.untagged with
    | .map ms => do
      ms.zipIdx.forM fun (m, i) => do
        let key ← textAs "field identifier" m.1
        if isTwice fields key (ms.take i) then throw (.twice key)
        checkField fields key m.2
      checkAll fields ms
    | .scalar .null => checkAll fields []
    | v => .error (.type v ("struct " ++ name))
  | json, v => checkJson v

def checkField : List (String × Need × Shape) → String → Value → Except Misfit Unit
  | [], _, _ => .ok ()
  | (name, need, s) :: fields, key, v =>
    if name = key then
      match need, v with
      | .optional, .scalar .null => .ok ()
      | _, v => check s v
    else checkField fields key v

end

end Shape

end InitLock.Yaml
