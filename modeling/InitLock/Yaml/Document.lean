import InitLock.Yaml.Event
import InitLock.Yaml.Value

/-!
# The value of a document

The events of a document make a value. Collections nest 128 deep at most, what
a reference stands for included, and the references followed are at most 100
for each event, so every document has a value or a fault. A map has each key
once. A fault of the content comes before one that ended the document.
-/

namespace InitLock.Yaml

/-- How far a document has been read: the number of the next event, and how many references have
been followed. -/
structure Progress where
  position : Nat
  followed : Nat

/-- What makes a value of events. -/
abbrev Building := StateT Progress (Except Fault)

/-- How a node is built at a level of nesting: given whether the tags of its own scalar or keys do
not count, and its path. -/
abbrev Level := Bool → Path → Building Value

def depthLimit : Nat := 128

/-- How many references may be followed for each event. -/
def followLimit : Nat := 100

namespace Document

def peek (d : Document) : Building Event := do
  match d.events[(← get).position]? with
  | some e => return e
  | none => throw (d.fault.getD (.form .endInside .start none))

def advance : Building Unit := modify fun p => { p with position := p.position + 1 }

/-! ## Collections -/

def entries (d : Document) (level : Level) (path : Path) : Nat → Nat → Building (List Value)
  | 0, _ => return []
  | fuel + 1, i => do
    if (← d.peek).kind = .listEnd then
      advance
      return []
    else
      let v ← level false (path.entry i)
      return v :: (← entries d level path fuel (i + 1))

def keyName : Event.Kind → Option String
  | .scalar _ text _ => some text
  | _ => none

/-- The members of a map that begins at `start`, at most `fuel`, after those already read. A key
that is there already is shown as it is there. -/
def members (d : Document) (level : Level) (path : Path) (start : Mark) (tagged : Bool) :
    Nat → List (Value × Value) → Building (List (Value × Value))
  | 0, ms => return ms
  | fuel + 1, ms => do
    let e ← d.peek
    if e.kind = .mapEnd then
      advance
      return ms
    else
      let k ← level tagged path
      if let some m := ms.find? fun m => k.same m.1 then
        throw (.content path ("duplicate entry " ++ m.1.describeKey) start)
      let v ← level false (path.member (keyName e.kind))
      members d level path start tagged fuel (ms ++ [(k, v)])

/-! ## Nodes -/

/-- A scalar, or the fault of one that is not written as its tag says. -/
def scalar (path : Path) (mark : Mark) (s : Except String Scalar) : Building Value :=
  match s with
  | .ok s => return .scalar s
  | .error message => throw (.content path message mark)

/-- A node with its tag, if that is local; the tag has a name. -/
def withTag (path : Path) (mark : Mark) (tag : Option String) (v : Building Value) :
    Building Value :=
  match tag with
  | none => v
  | some "" => throw (.content path "empty YAML tag is not allowed" mark)
  | some tag => .tagged tag <$> v

/-- A collection, if one may still nest here. -/
def nested (inner : Option Level) (mark : Mark) (f : Level → Building Value) : Building Value :=
  match inner with
  | none => throw (.tooDeep mark)
  | some level => f level

/-- A node that begins with an event already passed and is no reference. -/
def content (d : Document) (inner : Option Level) (tagged : Bool) (path : Path) (e : Event) :
    Building Value :=
  let localName (tag : Option Tag) : Option String :=
    if tagged then none else tag.bind Tag.localName?
  match e.kind with
  | .scalar tag text plain =>
    let name := localName tag
    let form :=
      match tag with
      | some tag => if tagged ∨ name.isSome then Scalar.ofForm text plain
        else Scalar.ofTag tag text plain
      | none => Scalar.ofForm text plain
    withTag path e.mark name (scalar path e.mark form)
  | .listStart tag =>
    withTag path e.mark (localName tag) <| nested inner e.mark fun level =>
      .list <$> d.entries level path d.events.size 0
  | .mapStart tag =>
    let name := localName tag
    withTag path e.mark name <| nested inner e.mark fun level =>
      .map <$> d.members level path e.mark (tagged || name.isSome) d.events.size []
  | _ => return .null

/-- What a number stands for; the reading goes on after the reference. -/
def follow (d : Document) (inner : Option Level) (path : Path) (number : Nat) :
    Building Value := do
  let p ← get
  if followLimit * d.events.size ≤ p.followed then throw .tooOften
  let target := (d.targets.lookup number).getD d.events.size
  set (⟨target, p.followed + 1⟩ : Progress)
  let e ← d.peek
  advance
  let v ← d.content inner false path e
  modify fun q => { q with position := p.position }
  return v

/-- A node; `inner` is the level of what it contains. -/
def node (d : Document) (inner : Option Level) : Level := fun tagged path => do
  let e ← d.peek
  advance
  match e.kind with
  | .reference number => d.follow inner path number
  | _ => d.content inner tagged path e

/-- The level at which collections may nest so many deep. -/
def level (d : Document) : Nat → Level
  | 0 => d.node none
  | n + 1 => d.node (some (d.level n))

def value (d : Document) : Except Fault Value := do
  let (v, _) ← (d.level depthLimit false none).run ⟨0, 0⟩
  match d.fault with
  | none => return v
  | some f => throw f

end Document

end InitLock.Yaml
