import InitLock.Decimal.Notation

/-!
# JSON values

Numbers are whole or binary64. The members of an object are kept in the order
of their keys, one per key.
-/

namespace InitLock.Json

inductive Number where
  | whole (n : Int)
  | real (x : Decimal.Real)
  deriving DecidableEq, Repr

namespace Number

/-- Numbers that are not whole are written with exponents that have a sign. -/
def style : Decimal.Style := ⟨.even, some ['+']⟩

def write : Number → List Char
  | whole n => if n < 0 then '-' :: Decimal.numeral n.natAbs else Decimal.numeral n.natAbs
  | real x => x.write style

end Number

inductive Value where
  | null
  | bool (b : Bool)
  | number (n : Number)
  | text (s : String)
  | list (items : List Value)
  | object (members : List (String × Value))
  deriving Repr

/-- Members, each under its key. -/
abbrev Members := List (String × Value)

namespace Members

/-- Sets a member; a key that is there already gets the new value. -/
def set (key : String) (value : Value) : Members → Members
  | [] => [(key, value)]
  | (k, v) :: rest =>
    match compare key k with
    | .lt => (key, value) :: (k, v) :: rest
    | .eq => (key, value) :: rest
    | .gt => (k, v) :: set key value rest

def get? (key : String) : Members → Option Value
  | [] => none
  | (k, v) :: rest => if k = key then some v else get? key rest

/-- Members in the order of their keys, a later one winning over an earlier one. -/
def ofList (entries : List (String × Value)) : Members :=
  entries.foldl (fun ms e => set e.1 e.2 ms) []

end Members

def Value.record (entries : List (String × Value)) : Value :=
  .object (Members.ofList entries)

end InitLock.Json
