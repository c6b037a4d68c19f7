import InitLock.Json.Value

/-!
# JSON texts

A value is written on one line without blanks, or indented by two spaces a
level. In strings the quote, the backslash and the control characters are
escaped; all other characters stand for themselves.
-/

namespace InitLock.Json

def hexDigit (n : Nat) : Char :=
  if n < 10 then Char.ofNat (48 + n) else Char.ofNat (87 + n)

def escapeChar (c : Char) : List Char :=
  if c = '"' then ['\\', '"']
  else if c = '\\' then ['\\', '\\']
  else if c = '\x08' then ['\\', 'b']
  else if c = '\x0c' then ['\\', 'f']
  else if c = '\n' then ['\\', 'n']
  else if c = '\r' then ['\\', 'r']
  else if c = '\t' then ['\\', 't']
  else if c.toNat < 0x20 then
    ['\\', 'u', '0', '0', hexDigit (c.toNat / 16), hexDigit (c.toNat % 16)]
  else [c]

def writeText (s : String) : List Char :=
  '"' :: s.toList.flatMap escapeChar ++ ['"']

def newline : Option Nat → List Char
  | none => []
  | some level => '\n' :: List.replicate (2 * level) ' '

def keyColon : Option Nat → List Char
  | none => [':']
  | some _ => [':', ' ']

namespace Value

mutual

/-- A value in writing: on one line, or indented from the given level on. -/
def write (level : Option Nat) : Value → List Char
  | null => ['n', 'u', 'l', 'l']
  | bool true => ['t', 'r', 'u', 'e']
  | bool false => ['f', 'a', 'l', 's', 'e']
  | number n => n.write
  | text s => writeText s
  | list [] => ['[', ']']
  | list (v :: vs) =>
    let inner := level.map (· + 1)
    '[' :: newline inner ++ write inner v ++ writeItems inner vs ++ newline level ++ [']']
  | object [] => ['{', '}']
  | object ((k, v) :: ms) =>
    let inner := level.map (· + 1)
    '{' :: newline inner ++ writeText k ++ keyColon inner ++ write inner v ++
      writeMembers inner ms ++ newline level ++ ['}']

/-- The items of a list after the first. -/
def writeItems (level : Option Nat) : List Value → List Char
  | [] => []
  | v :: vs => ',' :: newline level ++ write level v ++ writeItems level vs

/-- The members of an object after the first. -/
def writeMembers (level : Option Nat) : List (String × Value) → List Char
  | [] => []
  | (k, v) :: ms =>
    ',' :: newline level ++ writeText k ++ keyColon level ++ write level v ++
      writeMembers level ms

end

def compact (v : Value) : String := String.ofList (v.write none)

def indented (v : Value) : String := String.ofList (v.write (some 0))

end Value

end InitLock.Json
