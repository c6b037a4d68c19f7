import InitLock.Api.Request

/-!
# Addresses of servers

An address is `scheme://authority/path?query`, an authority alone, or a path
alone. The authority is `user@host:port`, of which the host may be an IPv6
address in brackets. Only its characters and the number and order of its
delimiters are checked.
-/

namespace InitLock.Api

/-- The address of a server. -/
structure Address where
  scheme : Option String
  authority : String
  target : String
  deriving DecidableEq, Repr

/-! ## Schemes -/

def isSchemeChar (c : Char) : Bool := c.isAlphanum || "+-.~".toList.contains c

def maxSchemeLength : Nat := 64

/-- A scheme, in small letters if it is one of the two for the web, and the text after it. -/
def splitScheme (cs : List Char) : Except UriFlaw (Option (List Char) × List Char) :=
  let name := cs.takeWhile isSchemeChar
  match cs.dropWhile isSchemeChar with
  | ':' :: '/' :: '/' :: rest =>
    let small := name.map Char.toLower
    if small = "http".toList ∨ small = "https".toList then .ok (some small, rest)
    else if maxSchemeLength < name.length then .error .scheme
    else .ok (some name, rest)
  | _ => .ok (none, cs)

/-! ## Authorities -/

/-- A character that may stand in an authority, delimiters included. -/
def isAuthorityChar (c : Char) : Bool :=
  c.isAlphanum || "!$&'()*+,-.:;=@[]_~".toList.contains c

def endsAuthority (c : Char) : Bool := c = '/' || c = '?' || c = '#'

/-- How many colons an authority may have before its brackets close or its host begins. -/
def maxColons : Nat := 8

/-- What has been seen of an authority. -/
structure AuthoritySeen where
  colons : Nat
  opened : Bool
  closed : Bool
  percent : Bool
  userOnly : Bool
  deriving DecidableEq, Repr

namespace AuthoritySeen

def nothing : AuthoritySeen := ⟨0, false, false, false, false⟩

/-- Sees a character. Colons and percent signs of the user or in brackets do not count. -/
def see (a : AuthoritySeen) (c : Char) : Except UriFlaw AuthoritySeen :=
  let a := { a with userOnly := c = '@' }
  if c = ':' then
    if maxColons ≤ a.colons then .error .authority else .ok { a with colons := a.colons + 1 }
  else if c = '[' then
    if a.percent ∨ a.opened then .error .authority else .ok { a with opened := true }
  else if c = ']' then
    if !a.opened ∨ a.closed then .error .authority
    else .ok { a with closed := true, colons := 0, percent := false }
  else if c = '@' then .ok { a with colons := 0, percent := false }
  else if c = '%' then .ok { a with percent := true }
  else if isAuthorityChar c then .ok a
  else .error .character

/-- Whether an authority may end here: brackets are closed, there is one port at most, a host
follows the user, and the host has no percent sign. -/
def isComplete (a : AuthoritySeen) : Bool :=
  a.opened = a.closed && decide (a.colons ≤ 1) && !a.userOnly && !a.percent

end AuthoritySeen

/-- An authority and the text after it; one of them is not empty. -/
def splitAuthority (cs : List Char) : Except UriFlaw (List Char × List Char) :=
  if cs.isEmpty then .error .empty else
  let name := cs.takeWhile fun c => !endsAuthority c
  (name.foldlM AuthoritySeen.see .nothing).bind fun a =>
    if a.isComplete then .ok (name, cs.dropWhile fun c => !endsAuthority c)
    else .error .authority

/-! ## Addresses -/

namespace Address

/-- An address without a scheme and a path. -/
def ofAuthority (cs : List Char) (flaw : UriFlaw) : Except UriFlaw Address :=
  (splitAuthority cs).bind fun (name, rest) =>
    if rest.isEmpty then .ok ⟨none, String.ofList name, ""⟩ else .error flaw

def parse (text : String) : Except UriFlaw Address :=
  if maxUriLength < text.utf8ByteSize then .error .length
  else
    match text.toList with
    | [] => .error .empty
    | ['*'] => .ok ⟨none, "", "*"⟩
    | '/' :: cs => (pathPart ('/' :: cs)).map fun path => ⟨none, "", String.ofList path⟩
    | [c] => ofAuthority [c] .character
    | cs => do
      let (scheme, rest) ← splitScheme cs
      match scheme with
      | none => ofAuthority rest .format
      | some scheme =>
        let (authority, rest) ← splitAuthority rest
        if authority.isEmpty then throw .format
        let path ← pathPart rest
        return ⟨some (String.ofList scheme), String.ofList authority, String.ofList path⟩

/-- Whether requests can be made to an address: it has a scheme, and so an authority. -/
def isAbsolute (a : Address) : Bool := a.scheme.isSome

/-- An address in writing; with a scheme it has a path. -/
def render (a : Address) : String :=
  match a.scheme with
  | some scheme =>
    let path := if a.target.startsWith "/" then a.target else "/" ++ a.target
    scheme ++ "://" ++ a.authority ++ path
  | none => a.authority ++ a.target

end Address

end InitLock.Api
