import InitLock.Decimal.Notation
import InitLock.Text.Character
import InitLock.Yaml.Tag

/-!
# YAML values

A scalar between quotes or in a block is text. A plain scalar stands for null,
a truth value or a number if it is written like one, and is text otherwise. A
tag of the core schema says which of these a scalar is, however it is written;
a local tag stays with its value. Whole numbers are kept exactly, up to 64 bits
with a sign or without.
-/

namespace InitLock.Yaml

/-- A value that is no collection. -/
inductive Scalar where
  | null
  | bool (b : Bool)
  | whole (n : Int)
  | real (x : Decimal.Real)
  | infinite (negative : Bool)
  | nan
  | text (s : String)
  deriving DecidableEq, Repr

/-- A value. The members of a map are in the order of writing, one for each key. A tag has the name
after its exclamation mark. -/
inductive Value where
  | scalar (s : Scalar)
  | list (items : List Value)
  | map (members : List (Value × Value))
  | tagged (tag : String) (v : Value)
  deriving Repr

/-- A tag's name without a second exclamation mark. -/
def unmarked (tag : String) : String :=
  match tag.toList with
  | '!' :: c :: cs => String.ofList (c :: cs)
  | _ => tag

namespace Value

def null : Value := .scalar .null

def untagged : Value → Value
  | tagged _ v => untagged v
  | v => v

def text? (v : Value) : Option String :=
  match v.untagged with
  | scalar (.text s) => some s
  | _ => none

def bool? (v : Value) : Option Bool :=
  match v.untagged with
  | scalar (.bool b) => some b
  | _ => none

/-- The entries of a list; anything else has none. -/
def items (v : Value) : List Value :=
  match v.untagged with
  | list vs => vs
  | _ => []

def members (v : Value) : List (Value × Value) :=
  match v.untagged with
  | map ms => ms
  | _ => []

def get? (v : Value) (key : String) : Option Value :=
  (v.members.find? fun m => m.1.text? = some key).map (·.2)

def present? (v : Value) (key : String) : Option Value :=
  match v.get? key with
  | some (scalar .null) => none
  | found => found

/-! ## In words -/

/-- How messages write numbers that are not whole: without exponents, the larger of two decimals
that are equally short and near. -/
def found : Decimal.Style := ⟨.up, none⟩

def describe : Value → String
  | scalar .null => "unit value"
  | scalar (.bool b) => "boolean `" ++ toString b ++ "`"
  | scalar (.whole n) => "integer `" ++ toString n ++ "`"
  | scalar (.real x) => "floating point `" ++ String.ofList (x.write found) ++ "`"
  | scalar (.infinite negative) =>
    "floating point `" ++ (if negative then "-inf" else "inf") ++ "`"
  | scalar .nan => "floating point `NaN`"
  | scalar (.text s) => "string " ++ Text.quoted s
  | list _ => "sequence"
  | map _ => "map"
  | tagged _ _ => "enum"

/-- How keys are written that are not whole: with exponents beyond some size, the even one of two
decimals. -/
def key : Decimal.Style := ⟨.even, some []⟩

/-- A key in words, after the word entry. -/
def describeKey : Value → String
  | scalar .null => "with null key"
  | scalar (.bool b) => "with key `" ++ toString b ++ "`"
  | scalar (.whole n) => "with key " ++ toString n
  | scalar (.real x) => "with key " ++ String.ofList (x.write key)
  | scalar (.infinite negative) => "with key " ++ (if negative then "-.inf" else ".inf")
  | scalar .nan => "with key .nan"
  | scalar (.text s) => "with key " ++ Text.quoted s
  | _ => "in YAML map"

end Value

/-! ## Sameness -/

/-- Whether two scalars are the same: zeros are, whatever their signs. -/
def Scalar.same : Scalar → Scalar → Bool
  | .real x, .real y => x = y || (x.magnitude.mantissa = 0 && y.magnitude.mantissa = 0)
  | s, t => s = t

mutual

/-- Whether two values are the same; the order of members does not matter. -/
def Value.same : Value → Value → Bool
  | .scalar s, .scalar t => s.same t
  | .list vs, .list ws => sameItems vs ws
  | .map ms, .map ns => ms.length = ns.length && sameMembers ms ns
  | .tagged a v, .tagged b w => unmarked a = unmarked b && v.same w
  | _, _ => false

def sameItems : List Value → List Value → Bool
  | [], [] => true
  | v :: vs, w :: ws => v.same w && sameItems vs ws
  | _, _ => false

/-- Whether each member of one map is also one of the other. -/
def sameMembers : List (Value × Value) → List (Value × Value) → Bool
  | [], _ => true
  | (k, v) :: ms, ns => ns.any (fun n => k.same n.1 && v.same n.2) && sameMembers ms ns

end

/-! ## Scalars in writing -/

def signOf : List Char → Option Bool × List Char
  | '+' :: cs => (some false, cs)
  | '-' :: cs => (some true, cs)
  | cs => (none, cs)

/-- A number after its sign: hexadecimal, octal, binary or decimal, by its first two characters. -/
def magnitudeOf? : List Char → Option Nat
  | '0' :: 'x' :: cs => Text.number? 16 cs
  | '0' :: 'o' :: cs => Text.number? 8 cs
  | '0' :: 'b' :: cs => Text.number? 2 cs
  | cs => Text.number? 10 cs

/-- Whether a text is digits of which the first of several is zero; it is no number. -/
def isPadded (cs : List Char) : Bool :=
  match (signOf cs).2 with
  | '0' :: d :: ds => (d :: ds).all Char.isDigit
  | _ => false

def wholeOf? (cs : List Char) : Option Int :=
  if isPadded cs then none
  else
    let (sign, rest) := signOf cs
    (magnitudeOf? rest).map fun n => if sign = some true then -(n : Int) else n

/-- The exponent after a number's digits, zero if there is none. -/
def exponentOf? : List Char → Option Int
  | [] => some 0
  | e :: cs =>
    if e = 'e' ∨ e = 'E' then
      let (sign, ds) := signOf cs
      (Text.number? 10 ds).map fun n => if sign = some true then -(n : Int) else n
    else none

/-- `digits · 10^exponent` as a binary64 magnitude, none if it is too large. -/
def magnitude? (digits : Nat) (exponent : Int) : Option Decimal.Magnitude :=
  let leading := exponent + (Decimal.numeral digits).length
  if digits = 0 ∨ leading < -330 then some Decimal.Magnitude.zero
  else if 310 < leading then none
  else Decimal.Magnitude.ofRatio (digits * Decimal.pow10 exponent.toNat)
      (Decimal.pow10 (-exponent).toNat)

def realOf? (cs : List Char) : Option Decimal.Real := do
  let (sign, cs) := signOf cs
  let whole := cs.takeWhile Char.isDigit
  let rest := cs.dropWhile Char.isDigit
  let (fraction, rest) :=
    match rest with
    | '.' :: rest => (rest.takeWhile Char.isDigit, rest.dropWhile Char.isDigit)
    | rest => ([], rest)
  let digits ← Text.number? 10 (whole ++ fraction)
  let m ← magnitude? digits ((← exponentOf? rest) - fraction.length)
  return ⟨sign = some true, m⟩

/-- A number that is not whole, or too large for one. -/
def floatOf? (text : String) : Option Scalar :=
  if text ∈ [".inf", ".Inf", ".INF", "+.inf", "+.Inf", "+.INF"] then some (.infinite false)
  else if text ∈ ["-.inf", "-.Inf", "-.INF"] then some (.infinite true)
  else if text ∈ [".nan", ".NaN", ".NAN"] then some .nan
  else (realOf? text.toList).map .real

def isNull (text : String) : Bool := text ∈ ["null", "Null", "NULL", "~"]

def boolOf? (text : String) : Option Bool :=
  if text ∈ ["true", "True", "TRUE"] then some true
  else if text ∈ ["false", "False", "FALSE"] then some false
  else none

namespace Scalar

/-- The whole number a text stands for; a message, if it has more than 64 bits and not more than
128; none, if it is no such number. -/
def wholeOf (text : String) : Except String (Option Scalar) :=
  let tooLong (n : Int) (type : String) : Except String (Option Scalar) :=
    .error ("invalid type: integer `" ++ toString n ++ "` as " ++ type ++
      ", expected any YAML value")
  match wholeOf? text.toList with
  | none => .ok none
  | some n =>
    if -Decimal.pow2 63 ≤ n ∧ n < Decimal.pow2 64 then .ok (some (.whole n))
    else if 0 ≤ n ∧ n < Decimal.pow2 128 then tooLong n "u128"
    else if -Decimal.pow2 127 ≤ n ∧ n < 0 then tooLong n "i128"
    else .ok none

/-- What a plain scalar stands for, or a message. -/
def ofPlain (text : String) : Except String Scalar := do
  if text = "" ∨ isNull text then return .null
  if let some b := boolOf? text then return .bool b
  if let some s ← wholeOf text then return s
  return ((if isPadded text.toList then none else floatOf? text).getD (.text text))

def ofForm (text : String) (plain : Bool) : Except String Scalar :=
  if plain then ofPlain text else .ok (.text text)

/-- What a scalar with a tag that is not local stands for, or a message. -/
def ofTag (tag : Tag) (text : String) (plain : Bool) : Except String Scalar :=
  let orElse (s : Option Scalar) (expected : String) : Except String Scalar :=
    match s with
    | some s => .ok s
    | none =>
      .error ("invalid value: string " ++ Text.quoted text ++ ", expected " ++ expected)
  if tag = Tag.core "bool" then orElse ((boolOf? text).map .bool) "a boolean"
  else if tag = Tag.core "int" then do orElse (← wholeOf text) "an integer"
  else if tag = Tag.core "float" then orElse (floatOf? text) "a float"
  else if tag = Tag.core "null" then orElse (if isNull text then some .null else none) "null"
  else if tag.isLocal then ofForm text plain
  else .ok (.text text)

end Scalar

end InitLock.Yaml
