import InitLock.Json.Skip

/-!
# Typed readers

A reader takes one value of a known shape from the unread text. It is told how
deep containers may still nest, itself included; a whole text is read with 128.
Readers are built from the ones here: atoms, lists, dictionaries, and objects
of which some members are read, some refused and the others passed over.
-/

namespace InitLock.Json

/-- A reader of one value: the nesting still allowed, then the unread text. -/
abbrev Reader (α : Type) := Nat → List Char → Parsed α

/-- The fault of a value that is not of the wanted type. Atoms are read first, so that their own
faults come before this one. -/
def mismatch (expected : String) (cs : List Char) : Fault :=
  let found (what : Found) (rest : List Char) : Fault := .here (.wrongType what expected) rest
  match cs with
  | [] => .next .endInValue []
  | c :: rest =>
    if c = '[' then found .list cs
    else if c = '{' then found .object cs
    else if c = 'n' then
      match word ['u', 'l', 'l'] rest with
      | .error f => f
      | .ok rest => found .null rest
    else if c = 't' then
      match word ['r', 'u', 'e'] rest with
      | .error f => f
      | .ok rest => found (.bool true) rest
    else if c = 'f' then
      match word ['a', 'l', 's', 'e'] rest with
      | .error f => f
      | .ok rest => found (.bool false) rest
    else if c = '"' then
      match literal rest with
      | .error f => f
      | .ok (s, rest) => found (.text s) rest
    else if c = '-' ∨ (digit? c).isSome then
      match number cs with
      | .error f => f
      | .ok (n, rest) => found (.number n) rest
    else .next .expectedValue cs

namespace Reader

variable {α β σ : Type}

def map (f : α → β) (r : Reader α) : Reader β := fun depth cs =>
  (r depth cs).map fun (a, rest) => (f a, rest)

/-! ## Atoms -/

def text : Reader String := fun _ cs =>
  match skipBlanks cs with
  | '"' :: rest => literal rest
  | cs => .error (mismatch "a string" cs)

/-- A string that `accept` turns into a value or refuses with a message. -/
def textOf (expected : String) (accept : String → Except String α) : Reader α := fun _ cs =>
  match skipBlanks cs with
  | '"' :: rest =>
    match literal rest with
    | .error f => .error f
    | .ok (s, rest) =>
      match accept s with
      | .ok a => .ok (a, rest)
      | .error message => .error (.here (.other message) rest)
  | cs => .error (mismatch expected cs)

def exactly (wanted : String) : Reader Unit := fun _ cs =>
  match skipBlanks cs with
  | '"' :: rest =>
    match literal rest with
    | .error f => .error f
    | .ok (s, rest) =>
      if s = wanted then .ok ((), rest)
      else .error (.unplaced (.wrongValue (.text s) wanted) rest)
  | cs => .error (mismatch "a string" cs)

def boolean : Reader Bool := fun _ cs =>
  match skipBlanks cs with
  | 't' :: rest => (word ['r', 'u', 'e'] rest).map fun rest => (true, rest)
  | 'f' :: rest => (word ['a', 'l', 's', 'e'] rest).map fun rest => (false, rest)
  | cs => .error (mismatch "a boolean" cs)

def integer (expected : String) (lo hi : Int) : Reader Int := fun _ cs =>
  let cs := skipBlanks cs
  if cs.head? = some '-' ∨ startsWithDigit cs then
    match number cs with
    | .error f => .error f
    | .ok (.whole n, rest) =>
      if lo ≤ n ∧ n ≤ hi then .ok (n, rest)
      else .error (.here (.wrongValue (.number (.whole n)) expected) rest)
    | .ok (.real x, rest) => .error (.here (.wrongType (.number (.real x)) expected) rest)
  else .error (mismatch expected cs)

/-- Null or what `r` reads. -/
def nullable (r : Reader α) : Reader (Option α) := fun depth cs =>
  match skipBlanks cs with
  | 'n' :: rest => (word ['u', 'l', 'l'] rest).map fun rest => (none, rest)
  | cs => (r depth cs).map fun (a, rest) => (some a, rest)

/-! ## Lists -/

/-- The closing bracket of a list whose entries have been read. -/
def endList (cs : List Char) : Except Fault (List Char) :=
  match skipBlanks cs with
  | [] => .error (.next .endInList [])
  | ']' :: rest => .ok rest
  | ',' :: rest =>
    let rest := skipBlanks rest
    .error (.next (if rest.head? = some ']' then .trailingComma else .trailingCharacters) rest)
  | cs => .error (.next .trailingCharacters cs)

/-- What is left of a list whose reader failed: its end if it is right here. -/
def closeList (cs : List Char) : List Char :=
  match skipBlanks cs with
  | ']' :: rest => rest
  | ',' :: rest => skipBlanks rest
  | cs => cs

/-- Goes to the next entry of a list, false at the closing bracket, which stays unread. -/
def nextItem (first : Bool) (cs : List Char) : Parsed Bool :=
  match skipBlanks cs with
  | [] => .error (.next .endInList [])
  | c :: rest =>
    if c = ']' then .ok (false, c :: rest)
    else if first then .ok (true, c :: rest)
    else if c = ',' then
      match skipBlanks rest with
      | [] => .error (.next .endInValue [])
      | d :: rest =>
        if d = ']' then .error (.next .trailingComma (d :: rest)) else .ok (true, d :: rest)
    else .error (.next .expectedListEnd (c :: rest))

def items (r : List Char → Parsed α) : Nat → Bool → List Char → Parsed (List α)
  | 0, _, cs => .error (.here .endInList cs)
  | fuel + 1, first, cs =>
    match nextItem first cs with
    | .error f => .error f
    | .ok (false, rest) => .ok ([], rest)
    | .ok (true, rest) =>
      match r rest with
      | .error f => .error f
      | .ok (a, rest) => (items r fuel false rest).map fun (as, rest) => (a :: as, rest)

def listBody (r : List Char → Parsed α) (cs : List Char) : Parsed (List α) :=
  match items r (cs.length + 1) true cs with
  | .error f => .error (f.settle closeList)
  | .ok (as, rest) => (endList rest).map fun rest => (as, rest)

def list (r : Reader α) : Reader (List α) := fun depth cs =>
  match skipBlanks cs with
  | '[' :: rest =>
    if depth ≤ 1 then .error (.next .tooDeep ('[' :: rest)) else listBody (r (depth - 1)) rest
  | cs => .error (mismatch "a sequence" cs)

/-! ## Objects -/

/-- What an object's reader does with a member. -/
inductive Member (σ : Type) where
  | skip
  | take (reader : Reader σ)
  | refuse (problem : Problem)

/-- What is left of an object whose reader is done or failed: its end if it is right here. -/
def closeObject (cs : List Char) : List Char :=
  match skipBlanks cs with
  | '}' :: rest => rest
  | cs => cs

/-- A key, of which the first character is given. -/
def key : List Char → Parsed (Option String)
  | [] => .error (.next .endInValue [])
  | c :: rest =>
    if c = '"' then (literal rest).map fun (s, rest) => (some s, rest)
    else if c = '}' then .error (.next .trailingComma (c :: rest))
    else .error (.next .keyNotString (c :: rest))

/-- The next key of an object, none at the closing brace, which stays unread. -/
def nextKey (first : Bool) (cs : List Char) : Parsed (Option String) :=
  match skipBlanks cs with
  | [] => .error (.next .endInObject [])
  | c :: rest =>
    if c = '}' then .ok (none, c :: rest)
    else if first then key (c :: rest)
    else if c = ',' then key (skipBlanks rest)
    else .error (.next .expectedObjectEnd (c :: rest))

def members (member : String → σ → Member σ) (depth : Nat) :
    Nat → Bool → σ → List Char → Parsed σ
  | 0, _, _, cs => .error (.here .endInObject cs)
  | fuel + 1, first, s, cs =>
    match nextKey first cs with
    | .error f => .error f
    | .ok (none, rest) => .ok (s, rest)
    | .ok (some name, rest) =>
      match member name s with
      | .refuse problem => .error (.unplaced problem rest)
      | .skip =>
        match (colon rest).bind skipValue with
        | .error f => .error f
        | .ok rest => members member depth fuel false s rest
      | .take r =>
        match (colon rest).bind (r depth) with
        | .error f => .error f
        | .ok (s, rest) => members member depth fuel false s rest

def objectBody (member : String → σ → Member σ) (finish : σ → Except Problem α) (start : σ)
    (depth : Nat) (cs : List Char) : Parsed α :=
  match members member depth (cs.length + 1) true start cs with
  | .error f => .error (f.settle closeObject)
  | .ok (s, rest) =>
    match finish s with
    | .error problem => .error (.here problem (closeObject rest))
    | .ok a => .ok (a, closeObject rest)

/-- A list in place of an object: what follows its opening bracket up to the closing one. -/
def inList (body : List Char → Parsed α) (cs : List Char) : Parsed α :=
  match body cs with
  | .error f => .error (f.settle closeList)
  | .ok (a, rest) => (endList rest).map fun rest => (a, rest)

/-- An object, or what `onList` makes of a list in its place. -/
def objectOr (expected : String) (onList : Option (Nat → List Char → Parsed α))
    (member : String → σ → Member σ) (finish : σ → Except Problem α) (start : σ) : Reader α :=
  fun depth cs =>
    match skipBlanks cs with
    | '{' :: rest =>
      if depth ≤ 1 then .error (.next .tooDeep ('{' :: rest))
      else objectBody member finish start (depth - 1) rest
    | '[' :: rest =>
      match onList with
      | none => .error (mismatch expected ('[' :: rest))
      | some body =>
        if depth ≤ 1 then .error (.next .tooDeep ('[' :: rest)) else inList (body (depth - 1)) rest
    | cs => .error (mismatch expected cs)

/-- A list where an object is wanted, refused once its end has been looked for. -/
def refuseList (expected : String) : Nat → List Char → Parsed α := fun _ cs =>
  .error (.unplaced (.wrongType .list expected) cs)

/-- An object of which every member is optional and a later one replaces an earlier one. -/
def object (expected : String) (member : String → σ → Member σ) (start : σ) : Reader σ :=
  objectOr expected (some (refuseList expected)) member .ok start

/-- An object of keys and values of one type, as a list in the order of writing. -/
def dict (r : Reader α) : Reader (List (String × α)) :=
  map List.reverse <| objectOr "a map" none
    (fun name entries => .take (map (fun a => (name, a) :: entries) r)) .ok []

/-! ## Any value -/

/-- A value that is no container. -/
def atom (cs : List Char) : Parsed Value :=
  match cs with
  | [] => .error (.next .endInValue [])
  | c :: rest =>
    if c = 'n' then (word ['u', 'l', 'l'] rest).map fun rest => (.null, rest)
    else if c = 't' then (word ['r', 'u', 'e'] rest).map fun rest => (.bool true, rest)
    else if c = 'f' then (word ['a', 'l', 's', 'e'] rest).map fun rest => (.bool false, rest)
    else if c = '"' then (literal rest).map fun (s, rest) => (.text s, rest)
    else if c = '-' ∨ (digit? c).isSome then (number cs).map fun (n, rest) => (.number n, rest)
    else .error (.next .expectedValue cs)

/-- Any value. Of members with one key the last counts. -/
def any : Reader Value
  | 0, cs => atom (skipBlanks cs)
  | depth + 1, cs =>
    match skipBlanks cs with
    | '[' :: rest =>
      if depth = 0 then .error (.next .tooDeep ('[' :: rest))
      else (listBody (any depth) rest).map fun (vs, rest) => (.list vs, rest)
    | '{' :: rest =>
      if depth = 0 then .error (.next .tooDeep ('{' :: rest))
      else
        (objectBody
          (fun name ms => .take fun _ cs =>
            (any depth cs).map fun (v, rest) => (Members.set name v ms, rest))
          .ok ([] : Members) depth rest).map fun (ms, rest) => (.object ms, rest)
    | cs => atom cs

/-! ## Whole texts -/

/-- How deep the containers of a text may nest, itself counted. -/
def depthLimit : Nat := 128

/-- Reads a whole text. -/
def document (r : Reader α) (cs : List Char) : Except Fault α :=
  match r depthLimit cs with
  | .error f => .error f
  | .ok (a, rest) =>
    match skipBlanks rest with
    | [] => .ok a
    | rest => .error (.next .trailingCharacters rest)

end Reader

def parse (text : String) : Except Fault Value := Reader.any.document text.toList

end InitLock.Json
