import InitLock.Yaml.Token

/-!
# Events

The nodes of a document in the order of writing: a scalar is one event, and a
collection is the events of what it contains between its own two. A node that
is left out is an empty plain scalar. What may come next is a stack, so that
the events before a fault are known.
-/

namespace InitLock.Yaml

/-- What an event is. A reference holds the number of the name it refers to. -/
inductive Event.Kind where
  | scalar (tag : Option Tag) (text : String) (plain : Bool)
  | listStart (tag : Option Tag)
  | listEnd
  | mapStart (tag : Option Tag)
  | mapEnd
  | reference (number : Nat)
  deriving DecidableEq, Repr

/-- An event and where its node begins. -/
structure Event where
  kind : Event.Kind
  mark : Mark
  deriving DecidableEq, Repr

/-- A node that is left out. -/
def Event.absent (mark : Mark) : Event := ⟨.scalar none "" true, mark⟩

/-- A document: its events, where the nodes are that numbers refer to, and the fault that ended it,
if there is one. -/
structure Document where
  events : Array Event
  targets : List (Nat × Nat)
  fault : Option Fault
  deriving Repr

/-- What may come next. Collections keep the place of their opening token. -/
inductive Expected where
  | root
  | node (block flat : Bool)
  | blockEntry (opening : Mark)
  | flatEntry
  | blockKey (opening : Mark)
  | blockValue (opening : Mark)
  | flowEntry (opening : Mark) (first : Bool)
  | pairKey
  | pairValue
  | pairEnd
  | flowKey (opening : Mark) (first : Bool)
  | flowValue (opening : Mark)
  | noFlowValue (opening : Mark)
  deriving DecidableEq, Repr

/-- What is left to read, tokens and the fault after them; what handles stand for; what is expected
next; and what the document holds up to here. -/
structure Reader where
  tokens : List Token
  fault : Option Fault
  handles : List (String × Tag)
  expected : List Expected
  events : Array Event
  names : List (String × Nat)
  targets : List (Nat × Nat)

/-- What reads from a text; a fault leaves what has been read. -/
abbrev Reading := ExceptT Fault (StateM Reader)

namespace Reading

def peek : Reading Token := do
  let r ← get
  match r.tokens, r.fault with
  | t :: _, _ => return t
  | [], some f => throw f
  | [], none => throw (.form .endInside .start none)

def peekKind : Reading Token.Kind := (·.kind) <$> peek

def advance : Reading Unit := modify fun r => { r with tokens := r.tokens.tail }

def expect (e : Expected) : Reading Unit := modify fun r => { r with expected := e :: r.expected }

def add (kind : Event.Kind) (mark : Mark) : Reading Unit :=
  modify fun r => { r with events := r.events.push ⟨kind, mark⟩ }

/-- Gives the next event a name. Its number is how many names are known already; where a name is
given again, two names may have one number, and it stands for the node that got it last. -/
def addName (name : String) : Reading Unit :=
  modify fun r =>
    let number := r.names.length
    { r with
      names := (name, number) :: r.names.filter (·.1 ≠ name)
      targets := (number, r.events.size) :: r.targets }

def addAbsent (mark : Mark) : Reading Unit := add (.scalar none "" true) mark

end Reading

open Reading

/-! ## Nodes -/

def anchor? : Reading (Option String) := do
  match ← peekKind with
  | .anchor name =>
    advance
    return some name
  | _ => return none

def tag? : Reading (Option (Tag.Written × Mark)) := do
  let t ← peek
  match t.kind with
  | .tag tag =>
    advance
    return some (tag, t.mark)
  | _ => return none

/-- An anchor and a tag in either order, each if it is there. -/
def properties : Reading (Option String × Option (Tag.Written × Mark)) := do
  match ← anchor? with
  | some name => return (some name, ← tag?)
  | none =>
    match ← tag? with
    | some tag => return (← anchor?, some tag)
    | none => return (none, none)

/-- The tag that is written in a node. -/
def resolveTag (start : Mark) : Option (Tag.Written × Mark) → Reading (Option Tag)
  | none => return none
  | some (tag, mark) => do
    match tag.resolve? (← get).handles with
    | some t => return some t
    | none => throw (faultIn .node start .unknownHandle mark)

/-- A node; `block` and `flat` say whether it may be a collection by indentation and a list that is
not indented. -/
def node (block flat : Bool) : Reading Unit := do
  let start := (← peek).mark
  if let .reference name ← peekKind then
    advance
    match (← get).names.lookup name with
    | some number => add (.reference number) start
    | none => throw (.unknownAnchor start)
  else
    let (anchor, written) ← properties
    let tag ← resolveTag start written
    let t ← peek
    let begin (kind : Event.Kind) : Reading Unit := do
      anchor.forM addName
      add kind start
    let opening (kind : Event.Kind) (next : Expected) : Reading Unit := do
      advance
      expect next
      begin kind
    let other : Reading Unit :=
      if anchor.isSome ∨ tag.isSome then begin (.scalar tag "" true)
      else throw (faultIn (if block then .blockNode else .flowNode) start .nodeExpected t.mark)
    match t.kind with
    | .scalar text plain =>
      advance
      begin (.scalar (tag.filter (· ≠ Tag.unspecific)) text plain)
    | .flowList => opening (.listStart tag) (.flowEntry t.mark true)
    | .flowMap => opening (.mapStart tag) (.flowKey t.mark true)
    | .blockList => if block then opening (.listStart tag) (.blockEntry t.mark) else other
    | .blockMap => if block then opening (.mapStart tag) (.blockKey t.mark) else other
    | .dash =>
      if flat then
        expect .flatEntry
        begin (.listStart tag)
      else other
    | _ => other

/-- A node, unless a token of the given kinds stands in its place. -/
def nodeUnless (stops : List Token.Kind) (block flat : Bool) : Reading Unit := do
  let t ← peek
  if t.kind ∈ stops then addAbsent t.mark else node block flat

/-! ## Collections -/

def blockEntry (opening : Mark) : Reading Unit := do
  let t ← peek
  match t.kind with
  | .dash =>
    advance
    expect (.blockEntry opening)
    nodeUnless [.dash, .blockEnd] true false
  | .blockEnd =>
    advance
    add .listEnd t.mark
  | _ => throw (faultIn .blockList opening .dashExpected t.mark)

/-- An entry of a list that is not indented, or its end. -/
def flatEntry : Reading Unit := do
  let t ← peek
  if t.kind = .dash then
    advance
    expect .flatEntry
    nodeUnless [.dash, .key, .value, .blockEnd] true false
  else add .listEnd t.mark

def blockKey (opening : Mark) : Reading Unit := do
  let t ← peek
  match t.kind with
  | .key =>
    advance
    expect (.blockValue opening)
    nodeUnless [.key, .value, .blockEnd] true true
  | .blockEnd =>
    advance
    add .mapEnd t.mark
  | _ => throw (faultIn .blockMap opening .keyExpected t.mark)

/-- A value after its colon; without a colon it is left out. -/
def valueUnless (stops : List Token.Kind) (block flat : Bool) : Reading Unit := do
  let t ← peek
  if t.kind = .value then
    advance
    nodeUnless stops block flat
  else addAbsent t.mark

/-- Passes what stands between the entries of a collection in brackets; the result says whether
there is another entry. -/
def nextEntry (opening : Mark) (first : Bool) (context : Context)
    (closing : Token.Kind) (problem : Problem) : Reading Bool := do
  let t ← peek
  if t.kind = closing then return false
  if first then return true
  if t.kind = .comma then
    advance
    return (← peekKind) ≠ closing
  throw (faultIn context opening problem t.mark)

/-- An entry of a list in brackets, or its end. A key there begins a map of one pair. -/
def flowEntry (opening : Mark) (first : Bool) : Reading Unit := do
  let more ← nextEntry opening first .flowList .flowListEnd .listEndExpected
  let t ← peek
  if !more then
    advance
    add .listEnd t.mark
  else
    expect (.flowEntry opening false)
    if t.kind = .key then
      advance
      expect .pairKey
      add (.mapStart none) t.mark
    else node false false

/-- The key of a pair in a list. A key that is left out takes the token in its place with it. -/
def pairKey : Reading Unit := do
  let t ← peek
  expect .pairValue
  if t.kind ∈ [.value, .comma, .flowListEnd] then
    advance
    addAbsent t.mark
  else node false false

def pairValue : Reading Unit := do
  expect .pairEnd
  valueUnless [.comma, .flowListEnd] false false

/-- A key of a map in brackets, or its end. What stands alone is a key without a value. -/
def flowKey (opening : Mark) (first : Bool) : Reading Unit := do
  let more ← nextEntry opening first .flowMap .flowMapEnd .mapEndExpected
  let t ← peek
  if !more then
    advance
    add .mapEnd t.mark
  else if t.kind = .key then
    advance
    expect (.flowValue opening)
    nodeUnless [.value, .comma, .flowMapEnd] false false
  else
    expect (.noFlowValue opening)
    node false false

/-- Whether a document that begins with a token has a line of its own before it. -/
def isMarked : Token.Kind → Bool
  | .documentStart | .directive _ => true
  | _ => false

/-- What a document contains after the line that starts it. -/
def root : Reading Unit := do
  let t ← peek
  if isMarked t.kind ∨ t.kind = .documentEnd ∨ t.kind = .streamEnd then addAbsent t.mark
  else node true false

def Expected.read : Expected → Reading Unit
  | root => Yaml.root
  | node block flat => Yaml.node block flat
  | blockEntry opening => Yaml.blockEntry opening
  | flatEntry => Yaml.flatEntry
  | blockKey opening => Yaml.blockKey opening
  | blockValue opening => do
    expect (.blockKey opening)
    valueUnless [.key, .value, .blockEnd] true true
  | flowEntry opening first => Yaml.flowEntry opening first
  | pairKey => Yaml.pairKey
  | pairValue => Yaml.pairValue
  | pairEnd => do add .mapEnd (← peek).mark
  | flowKey opening first => Yaml.flowKey opening first
  | flowValue opening => do
    expect (.flowKey opening false)
    valueUnless [.comma, .flowMapEnd] false false
  | noFlowValue opening => do
    expect (.flowKey opening false)
    addAbsent (← peek).mark

/-- Reads until nothing more is expected, at most `fuel` events. -/
def readExpected : Nat → Reading Unit
  | 0 => return ()
  | fuel + 1 => do
    match (← get).expected with
    | [] => return ()
    | e :: expected =>
      modify fun r => { r with expected }
      e.read
      readExpected fuel

/-! ## Documents -/

def skipEnds : Nat → Reading Unit
  | 0 => return ()
  | fuel + 1 => do
    if (← peekKind) = .documentEnd then
      advance
      skipEnds fuel

/-- Reads directives, at most `fuel`; the version may be given once, and it is 1.1 or 1.2. -/
def directives : Nat → Bool → Reading Unit
  | 0, _ => return ()
  | fuel + 1, versioned => do
    let t ← peek
    match t.kind with
    | .directive (.version major minor) =>
      if versioned then throw (.form .secondVersion t.mark none)
      if major ≠ 1 ∨ (minor ≠ 1 ∧ minor ≠ 2) then throw (.form .badVersion t.mark none)
      advance
      directives fuel true
    | .directive (.handle name meaning) =>
      if ((← get).handles.lookup name).isSome then throw (.form .secondHandle t.mark none)
      modify fun r => { r with handles := (name, meaning) :: r.handles }
      advance
      directives fuel versioned
    | _ => return ()

/-- Reads the next document; the result says whether there is one. The first of a text needs no line
that starts it. -/
def document (first : Bool) : Reading Bool := do
  let fuel := (← get).tokens.length + 1
  if !first then skipEnds fuel
  let t ← peek
  if t.kind = .streamEnd then return false
  if first ∧ !isMarked t.kind then expect (.node true false)
  else
    directives fuel false
    let t ← peek
    if t.kind ≠ .documentStart then throw (.form .documentExpected t.mark none)
    advance
    expect .root
  readExpected (4 * fuel)
  if (← peekKind) = .documentEnd then advance
  return true

def Document.void : Document := ⟨#[.absent .start], [], none⟩

/-- The documents left to read, at most `fuel`. A text without any has one. -/
def documentsFrom : Nat → Bool → Reader → List Document
  | 0, _, _ => []
  | fuel + 1, first, r =>
    let fresh := { r with handles := [], expected := [], events := #[], names := [], targets := [] }
    let (result, r) := StateT.run (ExceptT.run (document first)) fresh
    match result with
    | .error f => [⟨r.events, r.targets, some f⟩]
    | .ok false => if first then [.void] else []
    | .ok true => ⟨r.events, r.targets, none⟩ :: documentsFrom fuel false r

/-- The documents of a text; only the last may have a fault. -/
def documents (text : String) : List Document :=
  let (tokens, fault) := tokens text.toList
  documentsFrom (tokens.length + 2) true ⟨tokens, fault, [], [], #[], [], []⟩

end InitLock.Yaml
