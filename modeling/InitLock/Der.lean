/-!
# DER values

A value is a tag, the length of its content, and the content. Lengths have the
shortest form, and tags are one byte. Values are at most as long as a
certificate may be.
-/

namespace InitLock.Der

def number (bytes : List UInt8) : Nat := bytes.foldl (fun n b => n * 256 + b.toNat) 0

/-- Contents are shorter than this. -/
def maxLength : Nat := 65535

/-- A length that is the number in so many bytes, and what follows it. -/
def longLength? (count : Nat) (bytes : List UInt8) : Option (Nat × List UInt8) :=
  let n := number (bytes.take count)
  let least := if count = 1 then 128 else Nat.pow 256 (count - 1)
  if bytes.length < count ∨ n < least then none else some (n, bytes.drop count)

/-- The length at the beginning of bytes, and what follows it. -/
def length? : List UInt8 → Option (Nat × List UInt8)
  | [] => none
  | b :: bytes =>
    if b < 0x80 then some (b.toNat, bytes)
    else if 0x81 ≤ b ∧ b ≤ 0x84 then longLength? (b.toNat - 0x80) bytes
    else none

/-- What reads values from bytes, if they have the right form. -/
abbrev Reading := StateT (List UInt8) Option

def value : Reading (UInt8 × List UInt8) := fun bytes => do
  let tag :: bytes := bytes | none
  let (n, bytes) ← length? bytes
  if tag % 32 = 31 ∨ maxLength ≤ n ∨ bytes.length < n then none
  else some ((tag, bytes.take n), bytes.drop n)

def tagged (tag : UInt8) : Reading (List UInt8) := do
  let (t, content) ← value
  if t = tag then return content else failure

def nextTag? : Reading (Option UInt8) := do return (← get).head?

def all? {α : Type} (r : Reading α) (bytes : List UInt8) : Option α :=
  match r.run bytes with
  | some (a, []) => some a
  | _ => none

/-- Reads a value with a tag whose content is read by `r`. -/
def inside {α : Type} (tag : UInt8) (r : Reading α) : Reading α := do
  let content ← tagged tag
  (all? r content : Option α)

def many {α : Type} (r : Reading α) : Nat → Reading (List α)
  | 0 => failure
  | fuel + 1 => do
    if (← get).isEmpty then return []
    let a ← r
    return a :: (← many r fuel)

/-! ## Tags -/

def boolean : UInt8 := 0x01
def integer : UInt8 := 0x02
def bitString : UInt8 := 0x03
def octetString : UInt8 := 0x04
def objectIdentifier : UInt8 := 0x06
def sequence : UInt8 := 0x30

/-- The tag of a member of a sequence that is known by its number. -/
def member (n : UInt8) : UInt8 := 0xa0 + n

end InitLock.Der
