import InitLock.Text.Character
import InitLock.Text.Utf8
import InitLock.Yaml.Cursor

/-!
# Tags and directives

A tag says what a node is. It is written as a handle and the part of its name
after the text the handle stands for, or in full between angle brackets; an
octet of a name may be written as a percent sign and two hexadecimal digits. A
directive is a line before a document that gives the version of YAML or says
what a handle stands for.
-/

namespace InitLock.Yaml

def isNameChar (c : Char) : Bool := c.isAlphanum || c = '_' || c = '-'

/-- The name of a tag in UTF-8, which is all its octets up to the first that is zero. -/
abbrev Tag := List UInt8

namespace Tag

def ofText (s : String) : Tag := Text.utf8 s.toList

/-- The octets of a name up to the first that is zero. -/
def ofOctets (octets : List UInt8) : Tag := octets.takeWhile (· ≠ 0)

/-- The tag of a node whose kind is to be found from its form. -/
def unspecific : Tag := ofText "!"

def core (name : String) : Tag := ofText ("tag:yaml.org,2002:" ++ name)

/-- Whether a tag has a meaning for the application alone. -/
def isLocal (t : Tag) : Bool := t.head? = some 33

/-- The name of such a tag after its exclamation mark, if it is a text. -/
def localName? : Tag → Option String
  | 33 :: name => (Text.decodeUtf8 name).toOption.map String.ofList
  | _ => none

/-! ## The characters of a name -/

/-- Whether a character may stand in a name; a name written in full may hold more. -/
def isUriChar (full : Bool) (c : Char) : Bool :=
  isNameChar c || ";/?:@&=+$.%!~*'()".toList.contains c ||
    (full && (c = ',' || c = '[' || c = ']'))

/-- The octet that a percent sign and two digits stand for. -/
def octet? : List Char → Option Nat
  | '%' :: a :: b :: _ => Text.number? 16 [a, b]
  | _ => none

/-- How many octets a character has by its first one. -/
def width? (octet : Nat) : Option Nat :=
  if octet < 0x80 then some 1
  else if octet / 0x20 = 0x6 then some 2
  else if octet / 0x10 = 0xe then some 3
  else if octet / 0x08 = 0x1e then some 4
  else none

/-- Reads so many octets that are not the first of a character. -/
def nextOctets : Nat → Cursor → Except (Problem × Mark) (List UInt8 × Cursor)
  | 0, c => .ok ([], c)
  | n + 1, c =>
    match octet? c.rest with
    | none => .error (.octetExpected, c.mark)
    | some octet =>
      if octet / 0x40 = 0x2 then
        (nextOctets n (c.skip 3)).map fun (os, c) => (UInt8.ofNat octet :: os, c)
      else .error (.badNextOctet, c.mark)

def octets (c : Cursor) : Except (Problem × Mark) (List UInt8 × Cursor) :=
  match octet? c.rest with
  | none => .error (.octetExpected, c.mark)
  | some octet =>
    match width? octet with
    | none => .error (.badFirstOctet, c.mark)
    | some n => (nextOctets (n - 1) (c.skip 3)).map fun (os, c) => (UInt8.ofNat octet :: os, c)

def uriFrom (full : Bool) : Nat → Cursor → Except (Problem × Mark) (List UInt8 × Cursor)
  | 0, c => .ok ([], c)
  | fuel + 1, c =>
    match c.peek with
    | none => .ok ([], c)
    | some ch =>
      if !isUriChar full ch then .ok ([], c)
      else do
        let (os, c) ← if ch = '%' then octets c else .ok (Text.utf8 [ch], c.skip 1)
        let (rest, c) ← uriFrom full fuel c
        return (os ++ rest, c)

/-- Reads the octets of a name, which may be empty if `optional` says so. -/
def uri (full optional : Bool) (context : Context) (start : Mark) (c : Cursor) :
    Except Fault (List UInt8 × Cursor) :=
  match uriFrom full c.rest.length c with
  | .error (problem, m) => .error (faultIn context start problem m)
  | .ok ([], c) =>
    if optional then .ok ([], c) else .error (faultIn context start .uriExpected c.mark)
  | .ok r => .ok r

/-- Reads a handle or, if there is no second exclamation mark, the beginning of a name. -/
def handle (c : Cursor) : List Char × Cursor :=
  let name := (c.rest.drop 1).takeWhile isNameChar
  let after := c.skip (name.length + 1)
  if after.peek = some '!' then ('!' :: name ++ ['!'], after.skip 1) else ('!' :: name, after)

/-- Whether what may be a handle has a second exclamation mark. -/
def isNamed (handle : List Char) : Bool := 1 < handle.length && handle.getLast? = some '!'

/-! ## Tags as they are written -/

/-- A tag as it is written: a handle, and what follows it in the name. A tag written in full has
the empty handle, and so has the exclamation mark alone. -/
structure Written where
  handle : String
  rest : Tag
  deriving DecidableEq, Repr

def read (c : Cursor) : Except Fault (Written × Cursor) :=
  match c.rest with
  | '!' :: '<' :: _ => do
    let (os, after) ← uri true false .tagUri c.mark (c.skip 2)
    if after.peek = some '>' then return (⟨"", ofOctets os⟩, after.skip 1)
    else throw (faultIn .tag c.mark .uriEndExpected after.mark)
  | _ => do
    let (head, after) := handle c
    if isNamed head then
      let (os, after) ← uri false false .tagUri c.mark after
      return (⟨String.ofList head, ofOctets os⟩, after)
    else
      let (os, after) ← uri false true .tagUri c.mark after
      let rest := ofOctets (Text.utf8 head.tail ++ os)
      return (if rest.isEmpty then ⟨"", unspecific⟩ else ⟨"!", rest⟩, after)

/-- What handles stand for unless a directive says otherwise. -/
def defaultHandles : List (String × Tag) := [("!", ofText "!"), ("!!", core "")]

/-- The tag that is written so, given the handles of directives; none if its handle is unknown. -/
def Written.resolve? (w : Written) (handles : List (String × Tag)) : Option Tag :=
  if w.handle = "" then some w.rest
  else ((handles ++ defaultHandles).lookup w.handle).map (· ++ w.rest)

end Tag

/-! ## Directives -/

/-- A directive: the version of YAML, or a handle and what it stands for. -/
inductive Directive where
  | version (major minor : Nat)
  | handle (name : String) (meaning : Tag)
  deriving DecidableEq, Repr

namespace Directive

def maxDigits : Nat := 9

def number (start : Mark) (c : Cursor) : Except Fault (Nat × Cursor) :=
  let ds := c.rest.takeWhile Char.isDigit
  if maxDigits < ds.length then
    .error (faultIn .versionDirective start .longVersion (c.skip maxDigits).mark)
  else
    match Text.number? 10 ds with
    | none => .error (faultIn .versionDirective start .versionExpected c.mark)
    | some n => .ok (n, c.skip ds.length)

def readVersion (start : Mark) (c : Cursor) : Except Fault (Directive × Cursor) := do
  let (major, c) ← number start (c.skipWhile isBlank)
  if c.peek ≠ some '.' then throw (faultIn .versionDirective start .dotExpected c.mark)
  let (minor, c) ← number start (c.skip 1)
  return (.version major minor, c)

def readHandle (start : Mark) (c : Cursor) : Except Fault (Directive × Cursor) := do
  let c := c.skipWhile isBlank
  if c.peek ≠ some '!' then throw (faultIn .handle start .bangExpected c.mark)
  let (name, c) := Tag.handle c
  if 1 < name.length ∧ !Tag.isNamed name then
    throw (faultIn .handleName start .bangExpected c.mark)
  if !(c.peek.map isBlank).getD false then
    throw (faultIn .handleDirective start .blankExpected c.mark)
  let (os, c) ← Tag.uri true false .handleUri start (c.skipWhile isBlank)
  if !atWordEnd c.rest then throw (faultIn .handleDirective start .blankOrBreakExpected c.mark)
  return (.handle (String.ofList name) (Tag.ofOctets os), c)

def named (start : Mark) (name : List Char) (c : Cursor) : Except Fault (Directive × Cursor) :=
  if name = ['Y', 'A', 'M', 'L'] then readVersion start c
  else if name = ['T', 'A', 'G'] then readHandle start c
  else .error (faultIn .directive start .unknownDirective c.mark)

/-- Reads a directive from its percent sign to the end of its line. -/
def read (c : Cursor) : Except Fault (Directive × Cursor) := do
  let fail (problem : Problem) (c' : Cursor) : Fault := faultIn .directive c.mark problem c'.mark
  let name := (c.rest.drop 1).takeWhile isNameChar
  let after := c.skip (name.length + 1)
  if name.isEmpty then throw (fail .directiveExpected after)
  if !atWordEnd after.rest then throw (fail .badDirective after)
  let (d, after) ← named c.mark name after
  let after := after.skipWhile isBlank
  let after := if after.peek = some '#' then after.skipLine else after
  if !atLineEnd after.rest then throw (fail .lineEndExpected after)
  return (d, after.skipBreak)

end Directive

end InitLock.Yaml
