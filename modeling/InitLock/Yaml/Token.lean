import InitLock.Yaml.Scalar
import InitLock.Yaml.Tag

/-!
# Tokens

The tokens of a YAML text. Indentation becomes tokens that begin and end block
collections. Whether a scalar is a key is known only at the colon after it, so
its place is kept while a colon may still follow: at most one such place for
each level of brackets. A token at such a place is not handed out yet, so a
fault that is met first hides it and all after it.
-/

namespace InitLock.Yaml

/-- What a token is. -/
inductive Token.Kind where
  | documentStart
  | documentEnd
  | streamEnd
  | blockList
  | blockMap
  | blockEnd
  | flowList
  | flowListEnd
  | flowMap
  | flowMapEnd
  | dash
  | comma
  | key
  | value
  | anchor (name : String)
  | reference (name : String)
  | tag (tag : Tag.Written)
  | directive (directive : Directive)
  | scalar (text : String) (plain : Bool)
  deriving DecidableEq, Repr

/-- A token and where it begins. -/
structure Token where
  kind : Token.Kind
  mark : Mark
  deriving DecidableEq, Repr

/-- A place where a key may have begun: the number of the next token there, and whether nothing but
a key may stand there. -/
structure PossibleKey where
  number : Nat
  required : Bool
  mark : Mark
  deriving DecidableEq, Repr

/-- What has been read of a text, and how many of its tokens have been handed out. The levels of
brackets have one entry each in `keys`, the innermost first, and so has the text outside them. -/
structure Scanner where
  cursor : Cursor
  tokens : Array Token
  taken : Nat
  indent : Int
  outer : List Int
  keys : List (Option PossibleKey)
  keyAllowed : Bool
  ended : Bool

namespace Scanner

/-- A text of which nothing has been read. -/
def of (text : List Char) : Scanner where
  cursor := .of text
  tokens := #[]
  taken := 0
  indent := -1
  outer := []
  keys := [none]
  keyAllowed := true
  ended := false

def mark (s : Scanner) : Mark := s.cursor.mark

def inFlow (s : Scanner) : Bool := 1 < s.keys.length

def push (s : Scanner) (kind : Token.Kind) (mark : Mark) : Scanner :=
  { s with tokens := s.tokens.push ⟨kind, mark⟩ }

def insert (s : Scanner) (number : Nat) (kind : Token.Kind) (mark : Mark) : Scanner :=
  { s with tokens := s.tokens.insertIdxIfInBounds number ⟨kind, mark⟩ }

def take (s : Scanner) (kind : Token.Kind) (n : Nat) : Scanner :=
  { s.push kind s.mark with cursor := s.cursor.skip n }

def allowKey (s : Scanner) (b : Bool) : Scanner := { s with keyAllowed := b }

/-! ## Possible keys -/

def colonMissing (s : Scanner) (k : PossibleKey) : Fault :=
  faultIn .simpleKey k.mark .colonMissing s.mark

def maxKeyLength : Nat := 1024

/-- Whether a colon would come too late here: on another line, or too far away. -/
def isStale (s : Scanner) (k : PossibleKey) : Bool :=
  k.mark.line < s.mark.line || k.mark.index + maxKeyLength < s.mark.index

def giveUp (s : Scanner) : Option PossibleKey → Except Fault (Option PossibleKey)
  | none => .ok none
  | some k => if k.required then .error (s.colonMissing k) else .ok none

def hasStale (s : Scanner) (k : Option PossibleKey) : Bool :=
  match k with
  | some k => s.isStale k
  | none => false

/-- Gives up the possible keys that are stale, the outermost first. -/
def dropStale (s : Scanner) : Except Fault Scanner :=
  if s.keys.any s.hasStale then
    let check (k : Option PossibleKey) : Except Fault (Option PossibleKey) :=
      if s.hasStale k then s.giveUp k else .ok k
    (s.keys.reverse.mapM check).map fun keys => { s with keys := keys.reverse }
  else .ok s

def setKey (s : Scanner) (k : Option PossibleKey) : Scanner :=
  { s with keys := k :: s.keys.tail }

def dropKey (s : Scanner) : Except Fault Scanner :=
  (s.giveUp (s.keys.headD none)).map s.setKey

/-- Notes that a key may begin here. -/
def noteKey (s : Scanner) : Except Fault Scanner :=
  if s.keyAllowed then
    let required := !s.inFlow && s.indent = s.mark.column
    let k : PossibleKey := ⟨s.tokens.size, required, s.mark⟩
    s.dropKey.map fun s => s.setKey (some k)
  else .ok s

/-! ## Indentation -/

/-- Goes in to a column, if it is further in: a collection begins, before the token `number`. -/
def indentTo (s : Scanner) (column number : Nat) (kind : Token.Kind) (mark : Mark) : Scanner :=
  if !s.inFlow ∧ s.indent < column then
    { s.insert number kind mark with indent := column, outer := s.indent :: s.outer }
  else s

def indentHere (s : Scanner) (kind : Token.Kind) : Scanner :=
  s.indentTo s.mark.column s.tokens.size kind s.mark

/-- Goes out to a column through the given indentations; each collection left ends. -/
def outThrough (column : Int) : List Int → Scanner → Scanner
  | [], s => s
  | i :: outer, s =>
    if column < s.indent then
      outThrough column outer { s.push .blockEnd s.mark with indent := i, outer }
    else s

/-- Goes out to a column; inside brackets columns do not count. -/
def outTo (s : Scanner) (column : Int) : Scanner :=
  if s.inFlow then s else outThrough column s.outer s

/-! ## One token -/

/-- Passes blanks, comments and line breaks, at most one line for each character of `bound`. A tab
may not stand where a key may begin, but inside brackets. A mark of the byte order at the beginning
of a line is passed. -/
def toTokenFrom : List Char → Scanner → Scanner
  | [], s => s
  | _ :: bound, s =>
    let tabs := s.inFlow || !s.keyAllowed
    let marked := s.mark.column = 0 && s.cursor.peek = some '\ufeff'
    let c := if marked then s.cursor.skip 1 else s.cursor
    let c := c.skipWhile fun ch => ch = ' ' || (tabs && ch = '\t')
    let c := if c.peek = some '#' then c.skipLine else c
    if (lineBreak? c.rest).isSome then
      toTokenFrom bound { s with cursor := c.skipBreak, keyAllowed := s.keyAllowed || !s.inFlow }
    else { s with cursor := c }

def toToken (s : Scanner) : Scanner := toTokenFrom s.cursor.rest s

/-- The end of the text, which counts as the end of a line. -/
def atEnd (s : Scanner) : Except Fault Scanner :=
  let m := s.mark
  let c := if m.column = 0 then s.cursor else { s.cursor with mark := m.newLine 0 }
  (outTo { s with cursor := c } (-1)).dropKey.map fun s =>
    { s.push .streamEnd s.mark with keyAllowed := false, ended := true }

def atDocument (s : Scanner) (kind : Token.Kind) : Except Fault Scanner :=
  (s.outTo (-1)).dropKey.map fun s => (s.take kind 3).allowKey false

def directive (s : Scanner) : Except Fault Scanner :=
  (s.outTo (-1)).dropKey.bind fun s =>
    (Directive.read s.cursor).map fun (d, after) =>
      { s.push (.directive d) s.mark with cursor := after, keyAllowed := false }

def opening (s : Scanner) (kind : Token.Kind) : Except Fault Scanner :=
  s.noteKey.map fun s => { s.take kind 1 with keys := none :: s.keys, keyAllowed := true }

def closing (s : Scanner) (kind : Token.Kind) : Except Fault Scanner :=
  s.dropKey.map fun s =>
    { s.take kind 1 with keys := if s.inFlow then s.keys.tail else s.keys, keyAllowed := false }

def comma (s : Scanner) : Except Fault Scanner :=
  s.dropKey.map fun s => (s.take .comma 1).allowKey true

def dash (s : Scanner) : Except Fault Scanner :=
  if !s.inFlow ∧ !s.keyAllowed then .error (.form .entryNotAllowed s.mark none)
  else (s.indentHere .blockList).dropKey.map fun s => (s.take .dash 1).allowKey true

def question (s : Scanner) : Except Fault Scanner :=
  if !s.inFlow ∧ !s.keyAllowed then .error (.form .keyNotAllowed s.mark none)
  else (s.indentHere .blockMap).dropKey.map fun s => (s.take .key 1).allowKey !s.inFlow

/-- The colon before a value. If a key began at the place kept, it gets its token there. -/
def colon (s : Scanner) : Except Fault Scanner :=
  match s.keys.headD none with
  | some k =>
    let s := (s.insert k.number .key k.mark).indentTo k.mark.column k.number .blockMap k.mark
    .ok (((s.setKey none).allowKey false).take .value 1)
  | none =>
    if !s.inFlow ∧ !s.keyAllowed then .error (.form .valueNotAllowed s.mark none)
    else .ok (((s.indentHere .blockMap).allowKey !s.inFlow).take .value 1)

/-- A character that may follow an anchor's name directly. -/
def endsName (c : Char) : Bool :=
  isBlank c || isBreak c || "?:,]\x7d%@\x60".toList.contains c

def name (s : Scanner) (context : Context) (kind : String → Token.Kind) :
    Except Fault Scanner :=
  s.noteKey.bind fun s =>
    let cs := (s.cursor.rest.drop 1).takeWhile isNameChar
    let after := s.cursor.skip (cs.length + 1)
    if cs.isEmpty ∨ !(after.peek.map endsName).getD true then
      .error (faultIn context s.mark .nameExpected after.mark)
    else .ok { s.push (kind (String.ofList cs)) s.mark with cursor := after, keyAllowed := false }

/-- A tag. Inside brackets a comma may follow directly. -/
def tag (s : Scanner) : Except Fault Scanner :=
  s.noteKey.bind fun s =>
    (Tag.read s.cursor).bind fun (t, after) =>
      if (s.inFlow ∧ after.peek = some ',') ∨ atWordEnd after.rest then
        .ok { s.push (.tag t) s.mark with cursor := after, keyAllowed := false }
      else .error (faultIn .tag s.mark .blankOrBreakExpected after.mark)

/-- A scalar that has been read, with the cursor after it. -/
def scalar (s : Scanner) (text : List Char) (plain : Bool) (after : Cursor) (keyAllowed : Bool) :
    Scanner :=
  { s.push (.scalar (String.ofList text) plain) s.mark with cursor := after, keyAllowed }

def block (s : Scanner) (folded : Bool) : Except Fault Scanner :=
  s.dropKey.bind fun s =>
    (Block.read folded s.indent s.cursor).map fun (text, after) => s.scalar text false after true

def quoted (s : Scanner) (double : Bool) : Except Fault Scanner :=
  s.noteKey.bind fun s =>
    (Quoted.read double s.cursor).map fun (text, after) => s.scalar text false after false

def plain (s : Scanner) : Except Fault Scanner :=
  s.noteKey.bind fun s =>
    (Plain.read s.inFlow (s.indent + 1).toNat s.cursor).map fun p =>
      s.scalar p.text true p.after p.broken

/-- Whether a plain scalar may begin with a character, given what follows it. -/
def startsPlain (flow : Bool) (c : Char) (rest : List Char) : Bool :=
  if c = '-' then !((rest.head?.map isBlank).getD false)
  else if c = '?' ∨ c = ':' then !flow && !atWordEnd rest
  else !isBlank c && !"-?:,[]\x7b\x7d#&*!|>'\"%@\x60".toList.contains c

def dispatch (s : Scanner) (c : Char) (rest : List Char) : Except Fault Scanner :=
  if c = '%' ∧ s.mark.column = 0 then s.directive
  else if atIndicator s.cursor then s.atDocument (if c = '-' then .documentStart else .documentEnd)
  else if c = '[' then s.opening .flowList
  else if c = '{' then s.opening .flowMap
  else if c = ']' then s.closing .flowListEnd
  else if c = '}' then s.closing .flowMapEnd
  else if c = ',' then s.comma
  else if c = '-' ∧ atWordEnd rest then s.dash
  else if c = '?' ∧ (s.inFlow ∨ atWordEnd rest) then s.question
  else if c = ':' ∧ (s.inFlow ∨ atWordEnd rest) then s.colon
  else if c = '*' then s.name .reference .reference
  else if c = '&' then s.name .anchor .anchor
  else if c = '!' then s.tag
  else if c = '|' ∧ !s.inFlow then s.block false
  else if c = '>' ∧ !s.inFlow then s.block true
  else if c = '\'' then s.quoted false
  else if c = '"' then s.quoted true
  else if startsPlain s.inFlow c rest then s.plain
  else .error (faultIn .nextToken s.mark .noToken s.mark)

def next (s : Scanner) : Except Fault Scanner :=
  s.toToken.dropStale.bind fun s =>
    let s := s.outTo s.mark.column
    match s.cursor.rest with
    | [] => s.atEnd
    | c :: rest => s.dispatch c rest

/-! ## All tokens -/

/-- Whether a key may still turn out to begin at the next token to hand out. -/
def isOpen (s : Scanner) : Bool :=
  s.keys.any fun
    | some k => k.number = s.taken
    | none => false

/-- Hands out the next token if it is settled, and reads on otherwise. -/
def step (s : Scanner) : Except Fault (Option Token × Scanner) :=
  let read (s : Scanner) : Except Fault (Option Token × Scanner) := s.next.map fun s => (none, s)
  if s.tokens.size ≤ s.taken then read s
  else
    s.dropStale.bind fun s =>
      if s.isOpen then read s else .ok (s.tokens[s.taken]?, { s with taken := s.taken + 1 })

/-- Reads on to the end of the text, at most `fuel` steps. The tokens handed out before are given
with the last one first. -/
def scan : Nat → List Token → Scanner → List Token × Option Fault
  | 0, taken, _ => (taken.reverse, none)
  | fuel + 1, taken, s =>
    if s.ended ∧ s.tokens.size ≤ s.taken then (taken.reverse, none)
    else
      match s.step with
      | .ok (t, s) => scan fuel (t.toList ++ taken) s
      | .error f => (taken.reverse, some f)

end Scanner

def isAllowed (c : Char) : Bool :=
  let n := c.toNat
  decide (n = 0x09 ∨ n = 0x0a ∨ n = 0x0d ∨ (0x20 ≤ n ∧ n ≤ 0x7e) ∨ n = 0x85 ∨
    (0xa0 ≤ n ∧ n ≤ 0xfffd) ∨ 0x10000 ≤ n)

/-- The place in bytes of the first character that may not stand in a text. -/
def firstRefused : Nat → List Char → Option Nat
  | _, [] => none
  | offset, c :: rest =>
    if isAllowed c then firstRefused (offset + c.utf8Size) rest else some offset

/-- The tokens of a text, up to a fault if there is one. Each token begins or ends at a character,
and at most four of them at one. -/
def tokens (text : List Char) : List Token × Option Fault :=
  match firstRefused 0 text with
  | some offset => ([], some (.control offset))
  | none => Scanner.scan (8 * (text.length + 2)) [] (.of text)

end InitLock.Yaml
