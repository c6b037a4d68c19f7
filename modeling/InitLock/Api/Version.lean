/-!
# Versions

Which of the versions that serve a kind is preferred: a stable one before a
beta before an alpha before one of another form; then the higher major number,
then the higher minor number, none being the lowest. Versions of other forms go
by the alphabet.
-/

namespace InitLock.Api

inductive Version where
  | stable (major : Nat)
  | beta (major : Nat) (minor : Option Nat)
  | alpha (major : Nat) (minor : Option Nat)
  | other (name : String)
  deriving DecidableEq, Repr

namespace Version

/-- A number of 32 bits in decimal digits. -/
def number (cs : List Char) : Option Nat :=
  let n := cs.foldl (fun n c => n * 10 + (c.toNat - 48)) 0
  if cs ≠ [] ∧ cs.all Char.isDigit ∧ n < 0x100000000 then some n else none

/-- A minor number, if there is one; none if it is not of the right form. -/
def minor : List Char → Option (Option Nat)
  | [] => some none
  | '+' :: cs => (number cs).map some
  | cs => (number cs).map some

/-- The version after its leading letter, if it is of one of the three forms. -/
def afterLetter (cs : List Char) : Option Version := do
  let major ← number (cs.takeWhile Char.isDigit)
  match cs.dropWhile Char.isDigit with
  | [] => some (stable major)
  | 'a' :: 'l' :: 'p' :: 'h' :: 'a' :: cs => (minor cs).map (alpha major)
  | 'b' :: 'e' :: 't' :: 'a' :: cs => (minor cs).map (beta major)
  | _ => none

def ofName (name : String) : Version :=
  match name.toList with
  | 'v' :: cs => (afterLetter cs).getD (other name)
  | _ => other name

def stability : Version → Nat
  | stable _ => 3
  | beta .. => 2
  | alpha .. => 1
  | other _ => 0

def major : Version → Nat
  | stable n => n
  | beta n _ => n
  | alpha n _ => n
  | other _ => 0

/-- One more than the minor number, zero if there is none. -/
def minorRank : Version → Nat
  | beta _ (some n) => n + 1
  | alpha _ (some n) => n + 1
  | _ => 0

def otherName : Version → String
  | other name => name
  | _ => ""

/-- The order of preference, the preferred one being greater. -/
def prefer (a b : Version) : Ordering :=
  (compare a.stability b.stability).then <| (compare a.major b.major).then <|
    (compare a.minorRank b.minorRank).then <| compare b.otherName a.otherName

/-- Sorts by version, the preferred first; what is equally preferred stays in order. -/
def sortBy {α : Type} (version : α → String) (as : List α) : List α :=
  as.mergeSort fun a b => prefer (ofName (version a)) (ofName (version b)) != .lt

end Version

end InitLock.Api
