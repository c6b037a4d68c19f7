import InitLock.Json.Lexeme

/-!
# Skipping a value

A member that nobody reads is passed over without being built: its lexemes must
be those of a JSON value, nested to any depth, but escapes are not decoded and
numbers not computed. The containers still open are a stack; each turn passes
one atom or one opening bracket and then leaves every container that closes.
-/

namespace InitLock.Json

/-- A kind of container. -/
inductive Bracket where
  | list
  | object
  deriving DecidableEq, Repr

namespace Bracket

def closer : Bracket → Char
  | list => ']'
  | object => '}'

/-- The text ends inside the container. -/
def atEnd : Bracket → Problem
  | list => .endInList
  | object => .endInObject

/-- Neither a comma nor the closing bracket follows an entry. -/
def expectedEnd : Bracket → Problem
  | list => .expectedListEnd
  | object => .expectedObjectEnd

end Bracket

/-- Passes one character of a string literal; true at its closing quote. -/
def skipLiteralChar : List Char → Parsed Bool
  | [] => .error (.here .endInString [])
  | c :: rest =>
    if c = '"' then .ok (true, rest)
    else if c = '\\' then
      match rest with
      | [] => .error (.here .endInString [])
      | d :: more =>
        if (shortEscape? d).isSome then .ok (false, more)
        else if d = 'u' then (hexUnit more).map fun (_, more) => (false, more)
        else .error (.next .invalidEscape (d :: more))
    else if c.toNat < 0x20 then .error (.here .controlCharacter (c :: rest))
    else .ok (false, rest)

/-- Passes a string literal after its opening quote, at most `fuel` characters of it. -/
def skipLiteralFrom : Nat → List Char → Except Fault (List Char)
  | 0, cs => .error (.here .endInString cs)
  | fuel + 1, cs =>
    match skipLiteralChar cs with
    | .error f => .error f
    | .ok (true, rest) => .ok rest
    | .ok (false, rest) => skipLiteralFrom fuel rest

def skipLiteral (cs : List Char) : Except Fault (List Char) :=
  skipLiteralFrom (cs.length + 1) cs

def skipExponent (cs : List Char) : Except Fault (List Char) :=
  let (_, cs) := exponentSign cs
  if startsWithDigit cs then .ok (skipDigits cs) else .error (.next .invalidNumber cs)

def skipExponent? (cs : List Char) : Except Fault (List Char) :=
  match cs with
  | 'e' :: rest => skipExponent rest
  | 'E' :: rest => skipExponent rest
  | rest => .ok rest

def skipNumber (cs : List Char) : Except Fault (List Char) :=
  match cs with
  | [] => .error (.here .invalidNumber [])
  | c :: rest =>
    if (digit? c).isNone then .error (.next .invalidNumber cs)
    else if c = '0' ∧ startsWithDigit rest then .error (.next .invalidNumber rest)
    else
      match skipDigits cs with
      | '.' :: rest =>
        if startsWithDigit rest then skipExponent? (skipDigits rest)
        else .error (.next .invalidNumber rest)
      | rest => skipExponent? rest

/-- Passes an atom or an opening bracket, which is named. -/
def skipAtom (cs : List Char) : Parsed (Option Bracket) :=
  match cs with
  | [] => .error (.next .endInValue [])
  | c :: rest =>
    if c = '[' then .ok (some .list, rest)
    else if c = '{' then .ok (some .object, rest)
    else if c = 'n' then (word ['u', 'l', 'l'] rest).map fun rest => (none, rest)
    else if c = 't' then (word ['r', 'u', 'e'] rest).map fun rest => (none, rest)
    else if c = 'f' then (word ['a', 'l', 's', 'e'] rest).map fun rest => (none, rest)
    else if c = '"' then (skipLiteral rest).map fun rest => (none, rest)
    else if c = '-' then (skipNumber rest).map fun rest => (none, rest)
    else if (digit? c).isSome then (skipNumber cs).map fun rest => (none, rest)
    else .error (.next .expectedValue cs)

/-- Leaves the containers that close here, and passes the comma before the next entry of the one
that stays open. `afterEntry` is false right after an opening bracket, where no comma may stand. -/
def leave : Bool → List Bracket → List Char → Parsed (List Bracket)
  | _, [], cs => .ok ([], cs)
  | afterEntry, b :: stack, cs =>
    match skipBlanks cs with
    | [] => .error (.next b.atEnd [])
    | c :: rest =>
      if afterEntry ∧ c = ',' then .ok (b :: stack, rest)
      else if c = b.closer then leave true stack rest
      else if afterEntry then .error (.next b.expectedEnd (c :: rest))
      else .ok (b :: stack, c :: rest)

def colon (cs : List Char) : Except Fault (List Char) :=
  match skipBlanks cs with
  | [] => .error (.next .endInObject [])
  | c :: rest => if c = ':' then .ok rest else .error (.next .expectedColon (c :: rest))

def skipKey (cs : List Char) : Except Fault (List Char) :=
  match skipBlanks cs with
  | [] => .error (.next .endInObject [])
  | c :: rest =>
    if c = '"' then (skipLiteral rest).bind colon else .error (.next .keyNotString (c :: rest))

/-- Passes one value inside the containers `stack` and all that follows it in them, in at most
`fuel` turns. -/
def skipFrom : Nat → List Bracket → List Char → Except Fault (List Char)
  | 0, _, cs => .error (.here .endInValue cs)
  | fuel + 1, stack, cs =>
    match skipAtom (skipBlanks cs) with
    | .error f => .error f
    | .ok (opened, rest) =>
      match leave opened.isNone (opened.toList ++ stack) rest with
      | .error f => .error f
      | .ok ([], rest) => .ok rest
      | .ok (.list :: stack, rest) => skipFrom fuel (.list :: stack) rest
      | .ok (.object :: stack, rest) =>
        match skipKey rest with
        | .error f => .error f
        | .ok rest => skipFrom fuel (.object :: stack) rest

def skipValue (cs : List Char) : Except Fault (List Char) :=
  skipFrom (cs.length + 1) [] cs

end InitLock.Json
