import InitLock.Json.Skip

/-!
# The grammar of JSON

Which texts are lexemes and values of JSON, written down without the readers,
so that a reader can be compared with it. A value is `Written` if its lexemes
are right: escapes are then checked but not decoded, and containers nest to any
depth. Where a string counts for what it says, `Literal` gives the string as
well, and `Object` the key and the text of each member.
-/

namespace InitLock.Json.Grammar

def Blank (cs : List Char) : Prop := ∀ c ∈ cs, c = ' ' ∨ c = '\n' ∨ c = '\t' ∨ c = '\r'

/-! ## Strings -/

/-- A hexadecimal digit and its value. -/
inductive HexDigit : Char → Nat → Prop
  | decimal {c : Char} (h : '0' ≤ c ∧ c ≤ '9') : HexDigit c (c.toNat - 48)
  | lower {c : Char} (h : 'a' ≤ c ∧ c ≤ 'f') : HexDigit c (c.toNat - 97 + 10)
  | upper {c : Char} (h : 'A' ≤ c ∧ c ≤ 'F') : HexDigit c (c.toNat - 65 + 10)

/-- Four hexadecimal digits and the 16-bit unit they write. -/
inductive Unit16 : List Char → Nat → Prop
  | digits {a b c d : Char} {i j k l : Nat} (ha : HexDigit a i) (hb : HexDigit b j)
    (hc : HexDigit c k) (hd : HexDigit d l) :
    Unit16 [a, b, c, d] (0x1000 * i + 0x100 * j + 0x10 * k + l)

/-- The letters that may follow a backslash by themselves, and what they stand for. -/
def shortEscapes : List (Char × Char) :=
  [('"', '"'), ('\\', '\\'), ('/', '/'), ('b', '\x08'), ('f', '\x0c'), ('n', '\n'), ('r', '\r'),
    ('t', '\t')]

/-- One character of a string, as it may be written where nobody decodes it. -/
inductive Glyph : List Char → Prop
  | plain {c : Char} (h : 0x20 ≤ c.toNat) (hquote : c ≠ '"') (hslash : c ≠ '\\') : Glyph [c]
  | short {c x : Char} (h : (c, x) ∈ shortEscapes) : Glyph ['\\', c]
  | unit {cs : List Char} {n : Nat} (h : Unit16 cs n) : Glyph ('\\' :: 'u' :: cs)

/-- One character of a string, as it may be written where it is decoded: surrogates come in
pairs. -/
inductive Spells : List Char → Char → Prop
  | plain {c : Char} (h : 0x20 ≤ c.toNat) (hquote : c ≠ '"') (hslash : c ≠ '\\') : Spells [c] c
  | short {c x : Char} (h : (c, x) ∈ shortEscapes) : Spells ['\\', c] x
  | unit {cs : List Char} {x : Char} (h : Unit16 cs x.toNat) : Spells ('\\' :: 'u' :: cs) x
  | pair {cs ds : List Char} {high low : Nat} {x : Char} (h : Unit16 cs high) (h' : Unit16 ds low)
    (hhigh : 0xd800 ≤ high ∧ high ≤ 0xdbff) (hlow : 0xdc00 ≤ low ∧ low ≤ 0xdfff)
    (hx : x.toNat = 0x10000 + (high - 0xd800) * 0x400 + (low - 0xdc00)) :
    Spells ('\\' :: 'u' :: (cs ++ '\\' :: 'u' :: ds)) x

/-- Characters one after the other, not decoded. -/
inductive Glyphs : List Char → Prop
  | nil : Glyphs []
  | cons {g gs : List Char} (h : Glyph g) (hs : Glyphs gs) : Glyphs (g ++ gs)

/-- Characters one after the other, and what they spell. -/
inductive Spelling : List Char → List Char → Prop
  | nil : Spelling [] []
  | cons {g gs xs : List Char} {x : Char} (h : Spells g x) (hs : Spelling gs xs) :
    Spelling (g ++ gs) (x :: xs)

/-- A string in quotes, not decoded. -/
def Quoted (text : List Char) : Prop := ∃ gs, Glyphs gs ∧ text = '"' :: (gs ++ ['"'])

/-- A string in quotes that says `s`. -/
def Literal (text : List Char) (s : String) : Prop :=
  ∃ gs, Spelling gs s.toList ∧ text = '"' :: (gs ++ ['"'])

/-! ## Numbers -/

def Digit (c : Char) : Prop := '0' ≤ c ∧ c ≤ '9'

instance : DecidablePred Digit := fun c => inferInstanceAs (Decidable ('0' ≤ c ∧ c ≤ '9'))

def Digits (ds : List Char) : Prop := ds ≠ [] ∧ ∀ d ∈ ds, Digit d

/-- The whole part of a number: no digit follows a leading zero. -/
inductive Whole : List Char → Prop
  | zero : Whole ['0']
  | nonzero {d : Char} {ds : List Char} (hd : Digit d) (h : d ≠ '0') (hds : ∀ d ∈ ds, Digit d) :
    Whole (d :: ds)

/-- The digits behind the point, if there is one. -/
inductive Fraction : List Char → Prop
  | none : Fraction []
  | some {ds : List Char} (h : Digits ds) : Fraction ('.' :: ds)

/-- The exponent, if there is one. -/
inductive Exponent : List Char → Prop
  | none : Exponent []
  | some {e : Char} {sign ds : List Char} (he : e = 'e' ∨ e = 'E')
    (hsign : sign ∈ [[], ['+'], ['-']]) (h : Digits ds) : Exponent (e :: (sign ++ ds))

/-- A number without its sign. -/
inductive Unsigned : List Char → Prop
  | parts {w f e : List Char} (hw : Whole w) (hf : Fraction f) (he : Exponent e) :
    Unsigned (w ++ (f ++ e))

/-! ## Values -/

/-- A value that is no container. -/
inductive Atom : List Char → Prop
  | null : Atom ['n', 'u', 'l', 'l']
  | true : Atom ['t', 'r', 'u', 'e']
  | false : Atom ['f', 'a', 'l', 's', 'e']
  | string {cs : List Char} (h : Quoted cs) : Atom cs
  | number {cs : List Char} (h : Unsigned cs) : Atom cs
  | negative {cs : List Char} (h : Unsigned cs) : Atom ('-' :: cs)

def opener : Bracket → Char
  | .list => '['
  | .object => '{'

/-- What a text may be part of: a value, an entry of a container, or all that follows an entry
up to the end of the container. -/
inductive Part where
  | value
  | entry (b : Bracket)
  | tail (b : Bracket)

/-- The texts of each kind. -/
inductive Written : Part → List Char → Prop
  | atom {cs : List Char} (h : Atom cs) : Written .value cs
  | empty (b : Bracket) {ws : List Char} (hw : Blank ws) :
    Written .value (opener b :: (ws ++ [b.closer]))
  | container {b : Bracket} {e t : List Char} (he : Written (.entry b) e)
    (ht : Written (.tail b) t) : Written .value (opener b :: (e ++ t))
  | item {ws v : List Char} (hw : Blank ws) (hv : Written .value v) :
    Written (.entry .list) (ws ++ v)
  | member {ws k ws' ws'' v : List Char} (hw : Blank ws) (hk : Quoted k) (hw' : Blank ws')
    (hw'' : Blank ws'') (hv : Written .value v) :
    Written (.entry .object) (ws ++ (k ++ (ws' ++ ':' :: (ws'' ++ v))))
  | close {b : Bracket} {ws : List Char} (hw : Blank ws) : Written (.tail b) (ws ++ [b.closer])
  | more {b : Bracket} {ws e t : List Char} (hw : Blank ws) (he : Written (.entry b) e)
    (ht : Written (.tail b) t) : Written (.tail b) (ws ++ ',' :: (e ++ t))

/-! ## Objects with their keys -/

/-- A member: its key, and the text of its value. -/
abbrev Entry := String × List Char

/-- A member of an object, written out. -/
inductive Member : Entry → List Char → Prop
  | mk {ws k ws' ws'' v : List Char} {key : String} (hw : Blank ws) (hk : Literal k key)
    (hw' : Blank ws') (hw'' : Blank ws'') :
    Member (key, v) (ws ++ (k ++ (ws' ++ ':' :: (ws'' ++ v))))

/-- What follows a member, up to the end of the object: the members that are left. -/
inductive Tail : List Entry → List Char → Prop
  | close {ws : List Char} (hw : Blank ws) : Tail [] (ws ++ ['}'])
  | more {ws e t : List Char} {m : Entry} {ms : List Entry} (hw : Blank ws) (hm : Member m e)
    (ht : Tail ms t) : Tail (m :: ms) (ws ++ ',' :: (e ++ t))

/-- An object and its members. -/
inductive Object : List Entry → List Char → Prop
  | empty {ws : List Char} (hw : Blank ws) : Object [] ('{' :: (ws ++ ['}']))
  | members {e t : List Char} {m : Entry} {ms : List Entry} (hm : Member m e) (ht : Tail ms t) :
    Object (m :: ms) ('{' :: (e ++ t))

end InitLock.Json.Grammar
