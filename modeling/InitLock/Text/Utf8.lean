/-!
# Text as bytes

`utf8` is the UTF-8 form of a text. `decodeUtf8` reads it back and says where
it cannot: a flaw is the index of the first byte that belongs to no character,
and how many bytes there are wrong, or that the bytes end inside a character.
-/

namespace InitLock.Text

/-- The UTF-8 form of a list of characters. -/
def utf8 (cs : List Char) : List UInt8 :=
  cs.flatMap String.utf8EncodeChar

/-- How many bytes the UTF-8 form of a list of characters has. -/
def byteLength : List Char → Nat
  | [] => 0
  | c :: cs => c.utf8Size + byteLength cs

inductive Utf8Flaw where
  | invalid (length index : Nat)
  | incomplete (index : Nat)
  deriving DecidableEq, Repr

namespace Utf8Flaw

def message : Utf8Flaw → String
  | invalid length index =>
    "invalid utf-8 sequence of " ++ toString length ++ " bytes from index " ++ toString index
  | incomplete index => "incomplete utf-8 byte sequence from index " ++ toString index

end Utf8Flaw

/-- What a first byte above `0x7f` announces: the bytes in all, and the range of the second. -/
def leadByte (a : UInt8) : Option (Nat × UInt8 × UInt8) :=
  if 0xc2 ≤ a ∧ a ≤ 0xdf then some (2, 0x80, 0xbf)
  else if a = 0xe0 then some (3, 0xa0, 0xbf)
  else if a = 0xed then some (3, 0x80, 0x9f)
  else if 0xe1 ≤ a ∧ a ≤ 0xef then some (3, 0x80, 0xbf)
  else if a = 0xf0 then some (4, 0x90, 0xbf)
  else if 0xf1 ≤ a ∧ a ≤ 0xf3 then some (4, 0x80, 0xbf)
  else if a = 0xf4 then some (4, 0x80, 0x8f)
  else none

/-- Whether a byte continues a character. -/
def isTail (b : UInt8) : Bool := decide (0x80 ≤ b ∧ b ≤ 0xbf)

/-- The character of a first byte cut to its payload and the bytes that follow it. -/
def joinTails (high : Nat) (tails : List UInt8) : Char :=
  Char.ofNat (tails.foldl (fun n b => n * 64 + b.toNat % 64) high)

/-- Reads characters from bytes of which the first has index `i`. -/
def decodeUtf8From (i : Nat) : List UInt8 → Except Utf8Flaw (List Char)
  | [] => .ok []
  | a :: rest =>
    if a < 0x80 then (decodeUtf8From (i + 1) rest).map (Char.ofNat a.toNat :: ·)
    else
      match leadByte a with
      | none => .error (.invalid 1 i)
      | some (n, lo, hi) =>
        match rest with
        | [] => .error (.incomplete i)
        | b :: rest =>
          if b < lo ∨ hi < b then .error (.invalid 1 i)
          else if n = 2 then
            (decodeUtf8From (i + 2) rest).map (joinTails (a.toNat % 32) [b] :: ·)
          else
            match rest with
            | [] => .error (.incomplete i)
            | c :: rest =>
              if !isTail c then .error (.invalid 2 i)
              else if n = 3 then
                (decodeUtf8From (i + 3) rest).map (joinTails (a.toNat % 16) [b, c] :: ·)
              else
                match rest with
                | [] => .error (.incomplete i)
                | d :: rest =>
                  if !isTail d then .error (.invalid 3 i)
                  else (decodeUtf8From (i + 4) rest).map (joinTails (a.toNat % 8) [b, c, d] :: ·)

def decodeUtf8 (bytes : List UInt8) : Except Utf8Flaw (List Char) :=
  decodeUtf8From 0 bytes

/-! ## Form encoding

Letters, digits and `*-._` stand for themselves in the query of a request, a
space becomes `+`, and every other byte of the UTF-8 form is written `%XX`.
-/

def upperHexDigit (n : Nat) : Char :=
  if n < 10 then Char.ofNat (48 + n) else Char.ofNat (55 + n)

/-- Whether form encoding leaves a byte as it is. -/
def formSafe (b : UInt8) : Bool :=
  decide ((0x30 ≤ b ∧ b ≤ 0x39) ∨ (0x41 ≤ b ∧ b ≤ 0x5a) ∨ (0x61 ≤ b ∧ b ≤ 0x7a) ∨
    b = 0x2a ∨ b = 0x2d ∨ b = 0x2e ∨ b = 0x5f)

def formByte (b : UInt8) : List Char :=
  if formSafe b then [Char.ofNat b.toNat]
  else if b = 0x20 then ['+']
  else ['%', upperHexDigit (b.toNat / 16), upperHexDigit (b.toNat % 16)]

def formEncode (s : String) : String :=
  String.ofList ((utf8 s.toList).flatMap formByte)

end InitLock.Text
