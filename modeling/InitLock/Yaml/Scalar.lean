import InitLock.Text.Character
import InitLock.Yaml.Cursor

/-!
# Scalars

The four ways to write a scalar: plain, between single or double quotes, and as
a block of lines. Each reader takes the cursor at the scalar's first character
and gives the text it stands for and the cursor after it.
-/

namespace InitLock.Yaml

/-! ## Plain scalars -/

/-- What a plain scalar stands for. `broken` says whether it was followed by a line break that has
been passed. -/
structure Plain where
  text : List Char
  after : Cursor
  broken : Bool

namespace Plain

/-- A character that ends a plain scalar inside brackets. -/
def isFlowEnd (c : Char) : Bool := c = ',' || c = '[' || c = ']' || c = '{' || c = '}'

/-- Whether a character may not follow a colon directly inside brackets. -/
def refusedAfterColon (c : Option Char) : Bool :=
  match c with
  | some c => isFlowEnd c || c = '?'
  | none => false

/-- A run of characters without blanks, and the cursor after it; or the place of a colon that may
not stand there. -/
def word (flow : Bool) : List Char → Mark → Except Mark (List Char × Cursor)
  | [], m => .ok ([], ⟨[], m⟩)
  | c :: rest, m =>
    if isBlank c ∨ isBreak c then .ok ([], ⟨c :: rest, m⟩)
    else if flow ∧ c = ':' ∧ refusedAfterColon rest.head? then .error m
    else if (c = ':' ∧ atWordEnd rest) ∨ (flow ∧ isFlowEnd c) then .ok ([], ⟨c :: rest, m⟩)
    else (word flow rest (m.after c)).map fun (cs, after) => (c :: cs, after)

def prepend (cs : List Char) (p : Plain) : Plain := { p with text := cs ++ p.text }

/-- Reads on after a gap, at most one word for each character of `bound`. -/
def readFrom (start : Mark) (flow : Bool) (indent : Nat) :
    List Char → Gap → Cursor → Except Fault Plain
  | [], gap, c => .ok ⟨[], c, gap.broken⟩
  | _ :: bound, gap, c =>
    if atIndicator c ∨ c.peek = some '#' then .ok ⟨[], c, gap.broken⟩
    else
      match word flow c.rest c.mark with
      | .error m => .error (faultIn .plainScalar start .colonInside m)
      | .ok ([], _) => .ok ⟨[], c, gap.broken⟩
      | .ok (cs, c) =>
        match Gap.empty.read indent c with
        | .error m => .error (faultIn .plainScalar start .tabIndents m)
        | .ok (next, c) =>
          let rest :=
            if !flow ∧ c.mark.column < indent then .ok ⟨[], c, next.broken⟩
            else readFrom start flow indent bound next c
          rest.map (·.prepend (gap.joined ++ cs))

/-- Reads a plain scalar. Outside brackets its lines begin at column `indent` or later. -/
def read (flow : Bool) (indent : Nat) (c : Cursor) : Except Fault Plain :=
  readFrom c.mark flow indent c.rest .empty c

end Plain

/-! ## Quoted scalars -/

def letterEscape? : Char → Option Char
  | '0' => some '\x00'
  | 'a' => some '\x07'
  | 'b' => some '\x08'
  | 't' => some '\t'
  | '\t' => some '\t'
  | 'n' => some '\n'
  | 'v' => some '\x0b'
  | 'f' => some '\x0c'
  | 'r' => some '\r'
  | 'e' => some '\x1b'
  | ' ' => some ' '
  | '"' => some '"'
  | '/' => some '/'
  | '\\' => some '\\'
  | 'N' => some '\u0085'
  | '_' => some '\u00a0'
  | 'L' => some '\u2028'
  | 'P' => some '\u2029'
  | _ => none

/-- The number of hexadecimal digits after the letter of an escape. -/
def escapeDigits? : Char → Option Nat
  | 'x' => some 2
  | 'u' => some 4
  | 'U' => some 8
  | _ => none

/-- The character of an escape after its backslash, and the number of characters in the escape
after the backslash; or what is wrong and how many characters after the backslash. -/
def escape? : List Char → Except (Problem × Nat) (Char × Nat)
  | [] => .error (.unknownEscape, 0)
  | c :: rest =>
    match letterEscape? c, escapeDigits? c with
    | some d, _ => .ok (d, 1)
    | none, none => .error (.unknownEscape, 0)
    | none, some n =>
      let digits := rest.take n
      match if digits.length < n then none else Text.number? 16 digits with
      | none => .error (.hexExpected, 2)
      | some v => if v.isValidChar then .ok (Char.ofNat v, n + 1) else .error (.badCodePoint, 2)

namespace Quoted

/-- How a run of characters inside quotes ends: at a blank, a line break, the closing quote or the
end of the text, or after a line break that is escaped. -/
structure Stretch where
  text : List Char
  after : Cursor
  escapedBreak : Bool

def Stretch.cons (c : Char) (s : Stretch) : Stretch := { s with text := c :: s.text }

/-- Reads a run of characters inside quotes, at most as many as `bound` has. -/
def stretch (double : Bool) (start : Mark) : List Char → Cursor → Except Fault Stretch
  | [], c => .ok ⟨[], c, false⟩
  | _ :: bound, c =>
    match c.rest with
    | [] => .ok ⟨[], c, false⟩
    | ch :: rest =>
      if isBlank ch ∨ isBreak ch then .ok ⟨[], c, false⟩
      else if !double ∧ ch = '\'' ∧ rest.head? = some '\'' then
        (stretch double start bound (c.skip 2)).map (·.cons '\'')
      else if ch = (if double then '"' else '\'') then .ok ⟨[], c, false⟩
      else if double ∧ ch = '\\' then
        if rest ≠ [] ∧ atLineEnd rest then .ok ⟨[], (c.skip 1).skipBreak, true⟩
        else
          match escape? rest with
          | .error (problem, n) => .error (faultIn .escape start problem (c.skip n).mark)
          | .ok (d, n) => (stretch double start bound (c.skip (n + 1))).map (·.cons d)
      else (stretch double start bound (c.skip 1)).map (·.cons ch)

/-- Reads on up to the closing quote, at most one run for each character of `bound`. -/
def readFrom (double : Bool) (start : Mark) :
    List Char → Cursor → Except Fault (List Char × Cursor)
  | [], c => .error (faultIn .quotedScalar start .endInside c.mark)
  | _ :: bound, c =>
    if atIndicator c then .error (faultIn .quotedScalar start .indicatorInside c.mark)
    else if c.rest.isEmpty then .error (faultIn .quotedScalar start .endInside c.mark)
    else
      match stretch double start bound c with
      | .error f => .error f
      | .ok s =>
        if s.after.peek = some (if double then '"' else '\'') then .ok (s.text, s.after.skip 1)
        else
          match (if s.escapedBreak then Gap.escaped else Gap.empty).read 0 s.after with
          | .error m => .error (faultIn .quotedScalar start .tabIndents m)
          | .ok (gap, c) =>
            (readFrom double start bound c).map fun (text, after) =>
              (s.text ++ gap.joined ++ text, after)

def read (double : Bool) (c : Cursor) : Except Fault (List Char × Cursor) :=
  readFrom double c.mark c.rest (c.skip 1)

end Quoted

/-! ## Block scalars -/

namespace Block

/-- What happens to the line breaks at the end of a block. -/
inductive Chomp where
  | strip
  | clip
  | keep
  deriving DecidableEq, Repr

/-- The first line of a block: how it ends and how far it is indented, if that is said. -/
structure Header where
  chomp : Chomp
  indent : Option Nat

/-- The way a block ends, by its sign. -/
def Chomp.ofSign : Char → Option Chomp
  | '+' => some .keep
  | '-' => some .strip
  | _ => none

/-- Reads the sign and digit after a block's indicator, in either order. The digit is not zero. -/
def signs (c : Cursor) : Except Mark (Header × Cursor) :=
  let sign (c : Cursor) := c.peek.bind Chomp.ofSign
  let digit (c : Cursor) := c.peek.bind (Text.digit? 10)
  match sign c, digit c with
  | none, none => .ok (⟨.clip, none⟩, c)
  | none, some 0 => .error c.mark
  | none, some n =>
    match sign (c.skip 1) with
    | some chomp => .ok (⟨chomp, some n⟩, c.skip 2)
    | none => .ok (⟨.clip, some n⟩, c.skip 1)
  | some chomp, _ =>
    match digit (c.skip 1) with
    | some 0 => .error (c.skip 1).mark
    | some n => .ok (⟨chomp, some n⟩, c.skip 2)
    | none => .ok (⟨chomp, none⟩, c.skip 1)

def header (c : Cursor) : Except Fault (Header × Cursor) :=
  match signs (c.skip 1) with
  | .error m => .error (faultIn .blockScalar c.mark .zeroIndent m)
  | .ok (h, after) =>
    let after := after.skipWhile isBlank
    let after := if after.peek = some '#' then after.skipLine else after
    if atLineEnd after.rest then .ok (h, after.skipBreak)
    else .error (faultIn .blockScalar c.mark .lineEndExpected after.mark)

/-- The empty lines before a line of a block. -/
structure Space where
  breaks : List Char
  widest : Nat
  after : Cursor

/-- Reads empty lines and the indentation of the line after them, at most one line for each
character of `bound`. Without an indentation given, all spaces are passed. -/
def spaceFrom (start : Mark) (indent : Option Nat) :
    List Char → List Char → Nat → Cursor → Except Fault Space
  | [], breaks, widest, c => .ok ⟨breaks, widest, c⟩
  | _ :: bound, breaks, widest, c =>
    let spaces := (c.rest.takeWhile (· = ' ')).length
    let c := c.skip ((indent.map fun n => min spaces (n - c.mark.column)).getD spaces)
    let widest := max widest c.mark.column
    let inside := (indent.map fun n => decide (c.mark.column < n)).getD true
    if inside ∧ c.peek = some '\t' then
      .error (faultIn .blockScalar start .tabInBlock c.mark)
    else
      match lineBreak? c.rest with
      | none => .ok ⟨breaks, widest, c⟩
      | some (b, n, rest) =>
        spaceFrom start indent bound (breaks ++ [b]) widest ⟨rest, c.mark.newLine n⟩

def space (start : Mark) (indent : Option Nat) (c : Cursor) : Except Fault Space :=
  spaceFrom start indent c.rest [] 0 c

/-- How a block that has been read in part ends: the break of its last line, the breaks after that,
and whether its last line began with a blank. -/
structure Ending where
  last : List Char
  more : List Char
  blank : Bool

/-- What stands between the last line and the next: a single break of two lines that begin with no
blank becomes a space when lines are folded. -/
def Ending.between (folded : Bool) (e : Ending) (blank : Bool) : List Char :=
  if folded ∧ e.last = ['\n'] ∧ !e.blank ∧ !blank then
    if e.more.isEmpty then [' '] else e.more
  else e.last ++ e.more

/-- The lines of a block: their text but for how it ends, its ending, and the cursor after it. -/
structure Lines where
  text : List Char
  ending : Ending
  after : Cursor

def Lines.prepend (cs : List Char) (l : Lines) : Lines := { l with text := cs ++ l.text }

/-- Reads the lines of a block after an ending, at most one for each character of `bound`. -/
def linesFrom (folded : Bool) (start : Mark) (indent : Nat) :
    List Char → Ending → Cursor → Except Fault Lines
  | [], e, c => .ok ⟨[], e, c⟩
  | _ :: bound, e, c =>
    if c.mark.column = indent ∧ !c.rest.isEmpty then
      let blank := (c.peek.map isBlank).getD false
      let line := c.rest.takeWhile fun ch => !isBreak ch
      let c := c.skipLine
      let last := (lineBreak? c.rest).map (·.1) |>.toList
      match space start (some indent) c.skipBreak with
      | .error f => .error f
      | .ok s =>
        (linesFrom folded start indent bound ⟨last, s.breaks, blank⟩ s.after).map
          (·.prepend (e.between folded blank ++ line))
    else .ok ⟨[], e, c⟩

/-- Reads a block from its indicator on, inside a node indented by `outer`. -/
def read (folded : Bool) (outer : Int) (c : Cursor) : Except Fault (List Char × Cursor) := do
  let (h, after) ← header c
  let given := h.indent.map fun n => if outer < 0 then n else outer.toNat + n
  let s ← space c.mark given after
  let indent := given.getD (max (max s.widest (outer + 1).toNat) 1)
  let l ← linesFrom folded c.mark indent after.rest ⟨[], s.breaks, false⟩ s.after
  let kept :=
    match h.chomp with
    | .strip => []
    | .clip => l.ending.last
    | .keep => l.ending.last ++ l.ending.more
  return (l.text ++ kept, l.after)

end Block

end InitLock.Yaml
