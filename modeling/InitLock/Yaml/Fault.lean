import InitLock.Text.Character

/-!
# Faults in YAML texts

What can be wrong with a text that is read as YAML. A fault of its form has a
place and often a context, the construct it was found in, which has a place
too. A fault of its content has the path of the value it is about.
-/

namespace InitLock.Yaml

/-- A place in a text: how many bytes are before it, its line and its column; all counts begin at
zero. -/
structure Mark where
  index : Nat
  line : Nat
  column : Nat
  deriving DecidableEq, Repr

namespace Mark

def start : Mark := ⟨0, 0, 0⟩

def after (m : Mark) (c : Char) : Mark := ⟨m.index + c.utf8Size, m.line, m.column + 1⟩

/-- The beginning of the next line, after a break of so many characters. -/
def newLine (m : Mark) (n : Nat) : Mark := ⟨m.index + n, m.line + 1, 0⟩

def isFirst (m : Mark) : Bool := m.line = 0 && m.column = 0

def describe (m : Mark) : String :=
  if m.isFirst then "position " ++ toString m.index
  else "line " ++ toString (m.line + 1) ++ " column " ++ toString (m.column + 1)

/-- The place in words after a message, nothing at the beginning of a text. -/
def suffix (m : Mark) : String := if m.isFirst then "" else " at " ++ m.describe

end Mark

inductive Problem where
  | noToken
  | colonMissing
  | entryNotAllowed
  | keyNotAllowed
  | valueNotAllowed
  | colonInside
  | tabIndents
  | indicatorInside
  | endInside
  | unknownEscape
  | hexExpected
  | badCodePoint
  | zeroIndent
  | lineEndExpected
  | tabInBlock
  | nameExpected
  | directiveExpected
  | badDirective
  | unknownDirective
  | versionExpected
  | longVersion
  | dotExpected
  | bangExpected
  | blankExpected
  | blankOrBreakExpected
  | uriExpected
  | octetExpected
  | badFirstOctet
  | badNextOctet
  | uriEndExpected
  | secondVersion
  | badVersion
  | secondHandle
  | unknownHandle
  | documentExpected
  | nodeExpected
  | dashExpected
  | keyExpected
  | listEndExpected
  | mapEndExpected
  deriving DecidableEq, Repr

namespace Problem

def message : Problem → String
  | noToken => "found character that cannot start any token"
  | colonMissing => "could not find expected ':'"
  | entryNotAllowed => "block sequence entries are not allowed in this context"
  | keyNotAllowed => "mapping keys are not allowed in this context"
  | valueNotAllowed => "mapping values are not allowed in this context"
  | colonInside => "found unexpected ':'"
  | tabIndents => "found a tab character that violates indentation"
  | indicatorInside => "found unexpected document indicator"
  | endInside => "found unexpected end of stream"
  | unknownEscape => "found unknown escape character"
  | hexExpected => "did not find expected hexadecimal number"
  | badCodePoint => "found invalid Unicode character escape code"
  | zeroIndent => "found an indentation indicator equal to 0"
  | lineEndExpected => "did not find expected comment or line break"
  | tabInBlock => "found a tab character where an indentation space is expected"
  | nameExpected => "did not find expected alphabetic or numeric character"
  | directiveExpected => "could not find expected directive name"
  | badDirective => "found unexpected non-alphabetical character"
  | unknownDirective => "found unknown directive name"
  | versionExpected => "did not find expected version number"
  | longVersion => "found extremely long version number"
  | dotExpected => "did not find expected digit or '.' character"
  | bangExpected => "did not find expected '!'"
  | blankExpected => "did not find expected whitespace"
  | blankOrBreakExpected => "did not find expected whitespace or line break"
  | uriExpected => "did not find expected tag URI"
  | octetExpected => "did not find URI escaped octet"
  | badFirstOctet => "found an incorrect leading UTF-8 octet"
  | badNextOctet => "found an incorrect trailing UTF-8 octet"
  | uriEndExpected => "did not find the expected '>'"
  | secondVersion => "found duplicate %YAML directive"
  | badVersion => "found incompatible YAML document"
  | secondHandle => "found duplicate %TAG directive"
  | unknownHandle => "found undefined tag handle"
  | documentExpected => "did not find expected <document start>"
  | nodeExpected => "did not find expected node content"
  | dashExpected => "did not find expected '-' indicator"
  | keyExpected => "did not find expected key"
  | listEndExpected => "did not find expected ',' or ']'"
  | mapEndExpected => "did not find expected ',' or '\x7d'"

end Problem

inductive Context where
  | nextToken
  | simpleKey
  | plainScalar
  | quotedScalar
  | escape
  | blockScalar
  | anchor
  | reference
  | tag
  | tagUri
  | directive
  | versionDirective
  | handleDirective
  | handle
  | handleName
  | handleUri
  | node
  | blockNode
  | flowNode
  | blockList
  | blockMap
  | flowList
  | flowMap
  deriving DecidableEq, Repr

namespace Context

def message : Context → String
  | nextToken => "while scanning for the next token"
  | simpleKey => "while scanning a simple key"
  | plainScalar => "while scanning a plain scalar"
  | quotedScalar => "while scanning a quoted scalar"
  | escape => "while parsing a quoted scalar"
  | blockScalar => "while scanning a block scalar"
  | anchor => "while scanning an anchor"
  | reference => "while scanning an alias"
  | tag => "while scanning a tag"
  | tagUri => "while parsing a tag"
  | directive => "while scanning a directive"
  | versionDirective => "while scanning a %YAML directive"
  | handleDirective => "while scanning a %TAG directive"
  | handle => "while scanning a tag directive"
  | handleName => "while parsing a tag directive"
  | handleUri => "while parsing a %TAG directive"
  | node => "while parsing a node"
  | blockNode => "while parsing a block node"
  | flowNode => "while parsing a flow node"
  | blockList => "while parsing a block collection"
  | blockMap => "while parsing a block mapping"
  | flowList => "while parsing a flow sequence"
  | flowMap => "while parsing a flow mapping"

end Context

/-! ## Paths -/

/-- Where a value stands in a document: at its root, or under the path written out. -/
abbrev Path := Option String

namespace Path

/-- The path in front of a member's name. -/
def stem : Path → String
  | none => ""
  | some p => p ++ "."

/-- The path of a member; a key that is no scalar has no name. -/
def member (p : Path) : Option String → Path
  | some key => some (stem p ++ key)
  | none => some (stem p ++ "?")

def entry (p : Path) (i : Nat) : Path := some (p.getD "." ++ "[" ++ toString i ++ "]")

/-- The path in front of a message. -/
def label : Path → String
  | none => ""
  | some p => p ++ ": "

end Path

/-! ## Faults -/

inductive Fault where
  | form (problem : Problem) (place : Mark) (context : Option (Context × Mark))
  | control (offset : Nat)
  | unknownAnchor (place : Mark)
  | tooDeep (place : Mark)
  | tooOften
  | content (path : Path) (message : String) (place : Mark)
  deriving DecidableEq, Repr

namespace Fault

/-- The context of a fault in words; its place is left out where the fault has the same. -/
def contextSuffix (place : Mark) : Option (Context × Mark) → String
  | none => ""
  | some (context, m) =>
    ", " ++ context.message ++
      (if m.line = place.line ∧ m.column = place.column then "" else m.suffix)

def message : Fault → String
  | form problem place context => problem.message ++ place.suffix ++ contextSuffix place context
  | control offset =>
    "control characters are not allowed" ++
      (if offset = 0 then "" else " at position " ++ toString offset)
  | unknownAnchor place => "unknown anchor" ++ place.suffix
  | tooDeep place => "recursion limit exceeded" ++ place.suffix
  | tooOften => "repetition limit exceeded"
  | content path text place => Path.label path ++ text ++ place.suffix

end Fault

/-- A fault at a place, in a construct that began at another. -/
def faultIn (context : Context) (start : Mark) (problem : Problem) (place : Mark) : Fault :=
  .form problem place (some (context, start))

end InitLock.Yaml
