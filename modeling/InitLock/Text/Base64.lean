import InitLock.Text.Utf8

/-!
# Base64

Groups of four symbols stand for three bytes each; the last group may be filled
up with `=`, of which there are two at most, and no bits are set beyond the last
byte. A text whose last group has one symbol is refused for that symbol first,
if it is none; the flaws of groups come in the order of writing.
-/

namespace InitLock.Text

def base64Digit? (b : UInt8) : Option Nat :=
  if 0x41 ≤ b ∧ b ≤ 0x5a then some (b.toNat - 0x41)
  else if 0x61 ≤ b ∧ b ≤ 0x7a then some (b.toNat - 0x61 + 26)
  else if 0x30 ≤ b ∧ b ≤ 0x39 then some (b.toNat - 0x30 + 52)
  else if b = 0x2b then some 62
  else if b = 0x2f then some 63
  else none

inductive Base64Flaw where
  | symbol (byte : UInt8) (index : Nat)
  | lastSymbol (byte : UInt8) (index : Nat)
  | length (symbols : Nat)
  | padding
  deriving DecidableEq, Repr

namespace Base64Flaw

def message : Base64Flaw → String
  | symbol b i => "Invalid symbol " ++ toString b.toNat ++ ", offset " ++ toString i ++ "."
  | lastSymbol b i =>
    "Invalid last symbol " ++ toString b.toNat ++ ", offset " ++ toString i ++ "."
  | length n => "Invalid input length: " ++ toString n
  | padding => "Invalid padding"

end Base64Flaw

namespace Base64

/-- The sign that fills up the last group. -/
def filler : UInt8 := 0x3d

/-- The values of symbols of which the first has index `i`. -/
def digits (i : Nat) : List UInt8 → Except Base64Flaw (List Nat)
  | [] => .ok []
  | b :: bs =>
    match base64Digit? b with
    | none => .error (.symbol b i)
    | some d => (digits (i + 1) bs).map (d :: ·)

/-- The bytes that up to four symbols stand for; bits beyond the last byte are dropped. -/
def bytes : List Nat → List UInt8
  | [a, b] => [UInt8.ofNat (a * 4 + b / 16)]
  | [a, b, c] => [UInt8.ofNat (a * 4 + b / 16), UInt8.ofNat (b % 16 * 16 + c / 4)]
  | a :: b :: c :: d :: _ =>
    [UInt8.ofNat (a * 4 + b / 16), UInt8.ofNat (b % 16 * 16 + c / 4), UInt8.ofNat (c % 4 * 64 + d)]
  | _ => []

/-- Whether the bits beyond the last byte of a group are unset. -/
def isCanonical : List Nat → Bool
  | [_, b] => b % 16 = 0
  | [_, _, c] => c % 4 = 0
  | _ => true

/-- The symbols of the last group, which begins at index `i`: those before its fillers. A filler
stands after two symbols at least and has no symbol after it. -/
def lastSymbols (i : Nat) (group : List UInt8) : Except Base64Flaw (List UInt8) :=
  let symbols := group.takeWhile (· ≠ filler)
  let rest := group.dropWhile (· ≠ filler)
  match digits i symbols with
  | .error f => .error f
  | .ok _ =>
    if rest.isEmpty then .ok symbols
    else if symbols.length < 2 ∨ rest.any (· ≠ filler) then
      .error (.symbol filler (i + symbols.length))
    else .ok symbols

/-- The bytes of the last group, of up to four symbols and fillers. -/
def last (i : Nat) (group : List UInt8) : Except Base64Flaw (List UInt8) := do
  let symbols ← lastSymbols i group
  let ds ← digits i symbols
  if ds.length < 2 then throw (.length (i + ds.length))
  if group.length ≠ 4 then throw .padding
  if isCanonical ds then return bytes ds
  throw (.lastSymbol (symbols.getLastD filler) (i + ds.length - 1))

def groups (i : Nat) : List UInt8 → Except Base64Flaw (List UInt8)
  | a :: b :: c :: d :: e :: rest => do
    let ds ← digits i [a, b, c, d]
    return bytes ds ++ (← groups (i + 4) (e :: rest))
  | group => last i group

def decode (s : String) : Except Base64Flaw (List UInt8) :=
  let bs := utf8 s.toList
  match bs.getLast? with
  | none => .ok []
  | some b =>
    if bs.length % 4 = 1 ∧ b ≠ filler ∧ (base64Digit? b).isNone then
      .error (.symbol b (bs.length - 1))
    else groups 0 bs

end Base64

def checkBase64 (s : String) : Except String Unit :=
  match Base64.decode s with
  | .error f => .error f.message
  | .ok _ => .ok ()

end InitLock.Text
