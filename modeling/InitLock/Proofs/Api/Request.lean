import InitLock.Api.Link

/-!
# Addresses of requests

Segments of a path that need no escape make an address that is sent as it is
(`getRequest_ok`), and different segments make different addresses.
-/

namespace InitLock

/-- Whether a character stands for itself in every part of an address. -/
def isUnreserved (c : Char) : Bool :=
  c.isAlphanum || c = '-' || c = '.' || c = '_' || c = '~'

/-- Whether a text may stand as a segment of a path. -/
def UrlSafe (s : String) : Prop := s ≠ "" ∧ s.toList.all isUnreserved = true

instance (s : String) : Decidable (UrlSafe s) := inferInstanceAs (Decidable (_ ∧ _))

namespace Api

theorem isPathChar_of_isUnreserved {c : Char} (h : isUnreserved c = true) :
    isPathChar c = true := by
  have : 'A'.val.toNat = 0x41 ∧ 'Z'.val.toNat = 0x5a ∧ 'a'.val.toNat = 0x61 ∧
    'z'.val.toNat = 0x7a ∧ '0'.val.toNat = 0x30 ∧ '9'.val.toNat = 0x39 := by decide
  have : c.toNat = c.val.toNat := rfl
  have hletter : c.isAlpha = (c.isUpper || c.isLower) := rfl
  have hupper : c.isUpper = decide (c.val ≥ 'A'.val ∧ c.val ≤ 'Z'.val) := rfl
  have hlower : c.isLower = (decide (c.val ≥ 'a'.val) && decide (c.val ≤ 'z'.val)) := rfl
  simp only [isUnreserved, Char.isAlphanum, hletter, hupper, hlower, Char.isDigit,
    Bool.or_eq_true, Bool.and_eq_true, decide_eq_true_eq, UInt32.le_iff_toNat_le, ge_iff_le] at h
  rcases h with (((h | rfl) | rfl) | rfl) | rfl
  · simp only [isPathChar, decide_eq_true_eq]
    omega
  all_goals decide

theorem not_mem_of_urlSafe {s : String} {c : Char} (h : UrlSafe s) (hc : isUnreserved c = false) :
    c ∉ s.toList := fun hm => by
  have := List.all_eq_true.1 h.2 c hm
  rw [hc] at this
  cases this

theorem slash_not_mem {s : String} (h : UrlSafe s) : '/' ∉ s.toList :=
  not_mem_of_urlSafe h (by decide)

/-- Whether a text is made of characters that may stand in a path. -/
def pathText (s : String) : Bool := s.toList.all isPathChar

@[simp] theorem pathText_append (s t : String) :
    pathText (s ++ t) = (pathText s && pathText t) := by
  simp [pathText]

theorem pathText_of_urlSafe {s : String} (h : UrlSafe s) : pathText s = true :=
  List.all_eq_true.2 fun c hc => isPathChar_of_isUnreserved (List.all_eq_true.1 h.2 c hc)

/-- Whether a text is made of characters that may stand in a query. -/
def queryText (s : String) : Bool := s.toList.all isQueryChar

theorem queryPart_of_all {cs : List Char} (h : cs.all isQueryChar = true) :
    queryPart cs = .ok cs := by
  induction cs with
  | nil => rfl
  | cons c cs ih =>
    rw [List.all_cons, Bool.and_eq_true] at h
    have hash : c ≠ '#' := fun hc => by rw [hc] at h; exact absurd h.1 (by decide)
    rw [queryPart, if_neg hash, if_pos h.1, ih h.2]
    rfl

theorem pathPart_append {cs ds : List Char} (h : cs.all isPathChar = true) :
    pathPart (cs ++ ds) = (pathPart ds).map (cs ++ ·) := by
  induction cs with
  | nil => cases hd : pathPart ds <;> simp [Except.map, hd]
  | cons c cs ih =>
    rw [List.all_cons, Bool.and_eq_true] at h
    have hash : c ≠ '#' := fun hc => by rw [hc] at h; exact absurd h.1 (by decide)
    have query : c ≠ '?' := fun hc => by rw [hc] at h; exact absurd h.1 (by decide)
    rw [List.cons_append, pathPart, if_neg hash, if_neg query, if_pos h.1, ih h.2]
    cases pathPart ds <;> rfl

theorem uriOf_of_pathText {s : String} (h : pathText s = true)
    (hlen : s.utf8ByteSize ≤ maxUriLength) : uriOf s = .ok s := by
  have hpart := @pathPart_append s.toList [] h
  rw [List.append_nil] at hpart
  rw [uriOf, if_neg (Nat.not_lt.2 hlen), hpart]
  simp [Except.map, pathPart]

/-- A path and a query are an address as they stand. -/
theorem uriOf_of_query {path query : String} (hp : pathText path = true)
    (hq : queryText query = true) (hlen : (path ++ "?" ++ query).utf8ByteSize ≤ maxUriLength) :
    uriOf (path ++ "?" ++ query) = .ok (path ++ "?" ++ query) := by
  have hpart : pathPart ('?' :: query.toList) = .ok ('?' :: query.toList) := by
    rw [pathPart, if_neg (by decide), if_pos rfl, queryPart_of_all hq]
    rfl
  have hlist : (path ++ "?" ++ query).toList = path.toList ++ '?' :: query.toList := by
    simp [String.toList_append]
  rw [uriOf, if_neg (Nat.not_lt.2 hlen), hlist, pathPart_append hp, hpart]
  simp only [Except.map]
  rw [← hlist, String.ofList_toList]

theorem uriOf_of_long {s : String} (h : maxUriLength < s.utf8ByteSize) :
    uriOf s = .error .length := by
  rw [uriOf, if_pos h]

theorem size_le_of_uriOf {s uri : String} (h : uriOf s = .ok uri) :
    s.utf8ByteSize ≤ maxUriLength :=
  Nat.le_of_not_lt fun hlen => by
    rw [uriOf_of_long hlen] at h
    cases h

theorem Request.to_ok {target : String} {method : Method} {body : Option Json.Value}
    (h : pathText target = true) (hlen : target.utf8ByteSize ≤ maxUriLength) :
    Request.to method target body = .ok ⟨method, target, body⟩ := by
  rw [Request.to, uriOf_of_pathText h hlen]
  rfl

theorem Request.to_query {path query : String} {method : Method} {body : Option Json.Value}
    (hp : pathText path = true) (hq : queryText query = true)
    (hlen : (path ++ "?" ++ query).utf8ByteSize ≤ maxUriLength) :
    Request.to method (path ++ "?" ++ query) body = .ok ⟨method, path ++ "?" ++ query, body⟩ := by
  rw [Request.to, uriOf_of_query hp hq hlen]
  rfl

theorem Request.of_to {target : String} {method : Method} {body : Option Json.Value}
    {q : Request} (h : Request.to method target body = .ok q) :
    ∃ uri, uriOf target = .ok uri ∧ q = ⟨method, uri, body⟩ := by
  unfold Request.to at h
  cases hu : uriOf target with
  | error e => rw [hu] at h; cases h
  | ok uri => rw [hu] at h; cases h; exact ⟨uri, rfl, rfl⟩

theorem Request.to_of_long {target : String} {method : Method} {body : Option Json.Value}
    (h : maxUriLength < target.utf8ByteSize) :
    Request.to method target body = .error (.uri .length) := by
  rw [Request.to, uriOf_of_long h]
  rfl

theorem getRequest_of_ne {place name : String} (hname : name ≠ "") :
    getRequest place name = Request.to .get (place ++ "/" ++ name) none := by
  rw [getRequest, member, if_neg hname]
  rfl

/-- The request for an object is sent to the address that its place and its name make. -/
theorem getRequest_ok {place name : String} (hname : UrlSafe name) (hplace : pathText place = true)
    (hlen : (place ++ "/" ++ name).utf8ByteSize ≤ maxUriLength) :
    getRequest place name = .ok ⟨.get, place ++ "/" ++ name, none⟩ := by
  rw [getRequest_of_ne hname.1]
  refine Request.to_ok ?_ hlen
  simp only [pathText_append, hplace, pathText_of_urlSafe hname, Bool.and_true, Bool.true_and]
  decide

/-! ## Slashes -/

theorem takeWhile_slash {s t : String} (h : '/' ∉ s.toList) :
    (s ++ "/" ++ t).toList.takeWhile (· ≠ '/') = s.toList := by
  have hs : ∀ c ∈ s.toList, decide (c ≠ '/') = true := fun c hc =>
    decide_eq_true fun he => h (he ▸ hc)
  rw [String.append_assoc, String.toList_append, String.toList_append,
    List.takeWhile_append_of_pos hs]
  simp

theorem dropWhile_slash {s t : String} (h : '/' ∉ s.toList) :
    (s ++ "/" ++ t).toList.dropWhile (· ≠ '/') = '/' :: t.toList := by
  have hs : ∀ c ∈ s.toList, decide (c ≠ '/') = true := fun c hc =>
    decide_eq_true fun he => h (he ▸ hc)
  rw [String.append_assoc, String.toList_append, String.toList_append,
    List.dropWhile_append_of_pos hs]
  simp

/-- What stands in front of the first slash and behind it is read off a text. -/
theorem append_slash_inj {s t s' t' : String} (h : '/' ∉ s.toList) (h' : '/' ∉ s'.toList)
    (heq : s ++ "/" ++ t = s' ++ "/" ++ t') : s = s' ∧ t = t' := by
  have hs := takeWhile_slash (t := t) h
  have ht := dropWhile_slash (t := t) h
  rw [heq, takeWhile_slash h'] at hs
  rw [heq, dropWhile_slash h', List.cons.injEq] at ht
  exact ⟨String.toList_injective hs.symm, String.toList_injective ht.2.symm⟩

/-! ## Long names -/

def longName (n : Nat) : String := String.ofList (List.replicate n 'a')

theorem size_longName (n : Nat) : (longName n).utf8ByteSize = n := by
  induction n with
  | zero => rfl
  | succ n ih =>
    have hone : (String.ofList ['a']).utf8ByteSize = 1 := by decide
    rw [longName] at ih ⊢
    rw [List.replicate_succ, ← List.singleton_append, String.ofList_append,
      String.utf8ByteSize_append, ih, hone, Nat.add_comm]

theorem urlSafe_longName {n : Nat} (hn : 0 < n) : UrlSafe (longName n) := by
  refine ⟨fun h => ?_, ?_⟩
  · have hsize := size_longName n
    rw [h] at hsize
    exact absurd hsize (Nat.ne_of_lt hn)
  · rw [longName, String.toList_ofList, List.all_replicate]
    simp +decide

end Api

end InitLock
