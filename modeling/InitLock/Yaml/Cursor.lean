import InitLock.Yaml.Fault

/-!
# Cursors

A cursor is the unread text and the place it begins at. Lines end at a line
feed, at a carriage return with or without one, and at three separators beyond
ASCII. A gap is a run of blanks and line breaks inside a scalar; what it leaves
in the scalar's text depends on the breaks in it.
-/

namespace InitLock.Yaml

/-- The unread text and where it begins. -/
structure Cursor where
  rest : List Char
  mark : Mark
  deriving DecidableEq, Repr

/-- A space or a tab. -/
def isBlank (c : Char) : Bool := c = ' ' || c = '\t'

def isBreak (c : Char) : Bool :=
  c = '\n' || c = '\r' || c = '\u0085' || c = '\u2028' || c = '\u2029'

/-- Whether a text begins with a line break or is empty. -/
def atLineEnd : List Char → Bool
  | [] => true
  | c :: _ => isBreak c

/-- Whether a text begins with a blank or a line break or is empty. -/
def atWordEnd : List Char → Bool
  | [] => true
  | c :: _ => isBlank c || isBreak c

/-- The first line break of a text as it counts, its length, and what follows it. -/
def lineBreak? : List Char → Option (Char × Nat × List Char)
  | '\r' :: '\n' :: rest => some ('\n', 2, rest)
  | c :: rest =>
    if c = '\u2028' ∨ c = '\u2029' then some (c, 1, rest)
    else if isBreak c then some ('\n', 1, rest)
    else none
  | [] => none

/-- Whether a line begins here that starts or ends a document. -/
def atIndicator (c : Cursor) : Bool :=
  c.mark.column = 0 &&
    match c.rest with
    | '-' :: '-' :: '-' :: rest => atWordEnd rest
    | '.' :: '.' :: '.' :: rest => atWordEnd rest
    | _ => false

namespace Cursor

def of (text : List Char) : Cursor := ⟨text, .start⟩

def peek (c : Cursor) : Option Char := c.rest.head?

def skip (c : Cursor) (n : Nat) : Cursor :=
  ⟨c.rest.drop n, (c.rest.take n).foldl Mark.after c.mark⟩

/-- The cursor after the characters that satisfy `p`, none of them a line break. -/
def skipWhile (c : Cursor) (p : Char → Bool) : Cursor :=
  c.skip (c.rest.takeWhile p).length

def skipBreak (c : Cursor) : Cursor :=
  match lineBreak? c.rest with
  | some (_, n, rest) => ⟨rest, c.mark.newLine n⟩
  | none => c

def skipLine (c : Cursor) : Cursor := c.skipWhile fun ch => !isBreak ch

end Cursor

/-! ## Gaps -/

/-- Blanks before a line break, that break, and the breaks after it. `broken` says whether a line
has ended; a break that is escaped counts, but is not kept. -/
structure Gap where
  blanks : List Char
  first : List Char
  more : List Char
  broken : Bool
  deriving DecidableEq, Repr

namespace Gap

def empty : Gap := ⟨[], [], [], false⟩

/-- The end of a line whose break is escaped. -/
def escaped : Gap := ⟨[], [], [], true⟩

/-- A gap with a blank more. -/
def blank (g : Gap) (c : Char) : Gap :=
  if g.broken then g else { g with blanks := g.blanks ++ [c] }

/-- A gap with a break more. -/
def line (g : Gap) (c : Char) : Gap :=
  if g.broken then { g with more := g.more ++ [c] }
  else { g with first := [c], broken := true }

/-- What a gap leaves in the text: one break becomes a space, of several all but the first stay. -/
def joined (g : Gap) : List Char :=
  if !g.broken then g.blanks
  else if g.first = ['\n'] then
    if g.more.isEmpty then [' '] else g.more
  else g.first ++ g.more

/-- Reads a gap to its end. In a new line a tab must stand at column `indent` or later; the result
is the place of one that does not. -/
def readFrom (indent : Nat) : List Char → Mark → Gap → Except Mark (Gap × Cursor)
  | [], m, g => .ok (g, ⟨[], m⟩)
  | c :: rest, m, g =>
    if isBlank c then
      if g.broken ∧ m.column < indent ∧ c = '\t' then .error m
      else readFrom indent rest (m.after c) (g.blank c)
    else if c = '\r' then
      match rest with
      | '\n' :: rest => readFrom indent rest (m.newLine 2) (g.line '\n')
      | rest => readFrom indent rest (m.newLine 1) (g.line '\n')
    else if isBreak c then
      readFrom indent rest (m.newLine 1)
        (g.line (if c = '\u2028' ∨ c = '\u2029' then c else '\n'))
    else .ok (g, ⟨c :: rest, m⟩)

def read (g : Gap) (indent : Nat) (c : Cursor) : Except Mark (Gap × Cursor) :=
  readFrom indent c.rest c.mark g

end Gap

end InitLock.Yaml
