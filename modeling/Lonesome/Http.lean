import Lonesome.Text
import Mathlib.Data.List.Basic

/-!
# HTTP requests

The parts of the `http` crate that the proxy works on: header values as bytes, the header map as a
multimap, and URIs. What the crate accepts as a scheme, an authority or a path is a parameter
(`HttpCrate`), with the few documented facts the program rests on. A parsed part carries the proof
that it was accepted, so a URI with an illegal authority cannot be built.
-/

namespace Lonesome

/-- The codes of visible ASCII, space and tab. -/
def visibleCode (n : Nat) : Bool :=
  (32 ≤ n && n < 127) || n == 9

def isVisibleAscii (c : Char) : Bool :=
  visibleCode c.toNat

/-- The codes a header value may hold: no control character but tab. -/
def headerCode (n : Nat) : Bool :=
  (32 ≤ n && n != 127) || n == 9

theorem headerCode_of_visibleCode {n : Nat} (h : visibleCode n = true) : headerCode n = true := by
  simp only [visibleCode, headerCode, Bool.or_eq_true, Bool.and_eq_true, decide_eq_true_eq,
    beq_iff_eq, bne_iff_ne] at h ⊢
  omega

theorem lt_of_visibleCode {n : Nat} (h : visibleCode n = true) : n < 256 := by
  simp only [visibleCode, Bool.or_eq_true, Bool.and_eq_true, decide_eq_true_eq, beq_iff_eq] at h
  omega

/-- What the `http` crate accepts in the parts of a URI. -/
structure HttpCrate where
  schemeOk : Str → Bool
  authorityOk : Str → Bool
  /-- `Authority::host` -/
  authorityHost : Str → Str
  pathAndQueryOk : Str → Bool
  schemeOk_https : schemeOk "https".toList = true
  pathAndQueryOk_slash : pathAndQueryOk "/".toList = true
  visible_of_authorityOk : ∀ {a : Str}, authorityOk a = true → a.all isVisibleAscii = true

/-! ## Header values -/

/-- `HeaderValue`: bytes without control characters. -/
structure HeaderValue where
  bytes : List UInt8
  legal : bytes.all (fun b => headerCode b.toNat) = true
  deriving DecidableEq

namespace HeaderValue

/-- `HeaderValue::to_str`: the text of a value of visible ASCII. -/
def toStr (v : HeaderValue) : Option Str :=
  if v.bytes.all (fun b => visibleCode b.toNat) then
    some (v.bytes.map fun b => Char.ofNat b.toNat)
  else none

/-- The bytes of a text. -/
def utf8Bytes (s : Str) : List UInt8 :=
  s.flatMap String.utf8EncodeChar

/-- `HeaderValue::from_str`, and `try_from` on an owned string: any text without control characters but
tab. -/
def fromStr (s : Str) : Option HeaderValue :=
  if h : (utf8Bytes s).all (fun b => headerCode b.toNat) = true then some ⟨utf8Bytes s, h⟩ else none

/-- The text that a value spells: visible ASCII, or else UTF-8. -/
def text (v : HeaderValue) : Option Str :=
  match v.toStr with
  | some s => some s
  | none => (String.fromUTF8? v.bytes.toByteArray).map String.toList

theorem text_of_toStr {v : HeaderValue} {s : Str} (h : v.toStr = some s) : v.text = some s := by
  simp [text, h]

/-- The bytes of a text of visible ASCII. -/
def asciiBytes (s : Str) : List UInt8 :=
  s.map fun c => UInt8.ofNat c.toNat

theorem asciiBytes_visible {s : Str} (h : s.all isVisibleAscii = true) :
    (asciiBytes s).all (fun b => visibleCode b.toNat) = true := by
  rw [asciiBytes, List.all_map, List.all_eq_true]
  intro c hc
  have hv : visibleCode c.toNat = true := List.all_eq_true.1 h c hc
  have hlt := lt_of_visibleCode hv
  simpa [Nat.mod_eq_of_lt hlt] using hv

theorem utf8EncodeChar_of_lt {c : Char} (h : c.toNat < 128) :
    String.utf8EncodeChar c = [UInt8.ofNat c.toNat] := by
  have hsize : c.utf8Size = 1 :=
    Char.utf8Size_eq_one_iff.2 (UInt32.le_iff_toNat_le.2 (Nat.le_of_lt_succ h))
  rw [String.utf8EncodeChar_eq_singleton hsize]
  rfl

theorem utf8Bytes_of_visible {s : Str} (h : s.all isVisibleAscii = true) :
    utf8Bytes s = asciiBytes s := by
  induction s with
  | nil => rfl
  | cons c s ih =>
    rw [List.all_cons, Bool.and_eq_true] at h
    have hc : c.toNat < 128 := by
      have hv : visibleCode c.toNat = true := h.1
      simp only [visibleCode, Bool.or_eq_true, Bool.and_eq_true, decide_eq_true_eq, beq_iff_eq] at hv
      omega
    show String.utf8EncodeChar c ++ utf8Bytes s = _
    rw [utf8EncodeChar_of_lt hc, ih h.2]
    rfl

/-- A text of visible ASCII is accepted, and read back by `to_str`. -/
theorem exists_fromStr {s : Str} (h : s.all isVisibleAscii = true) :
    ∃ v, fromStr s = some v ∧ v.toStr = some s := by
  have hvisible : (utf8Bytes s).all (fun b => visibleCode b.toNat) = true := by
    rw [utf8Bytes_of_visible h]
    exact asciiBytes_visible h
  have hlegal : (utf8Bytes s).all (fun b => headerCode b.toNat) = true := by
    rw [List.all_eq_true] at hvisible ⊢
    exact fun b hb => headerCode_of_visibleCode (hvisible b hb)
  refine ⟨⟨utf8Bytes s, hlegal⟩, dif_pos hlegal, ?_⟩
  have hback : ∀ c ∈ s, Char.ofNat (UInt8.ofNat c.toNat).toNat = c := by
    intro c hc
    have hlt := lt_of_visibleCode (List.all_eq_true.1 h c hc)
    rw [UInt8.toNat_ofNat', Nat.mod_eq_of_lt hlt, Char.ofNat_toNat]
  simp only [toStr, hvisible, ↓reduceIte, Option.some.injEq]
  rw [utf8Bytes_of_visible h, asciiBytes, List.map_map]
  conv => rhs; rw [← List.map_id s]
  exact List.map_congr_left hback

/-- A text that spells out a byte above ASCII is accepted too, and `to_str` does not read it. -/
example : (fromStr "é".toList).map (·.bytes) = some [0xC3, 0xA9] ∧
    (fromStr "é".toList).bind (·.toStr) = none := by decide

end HeaderValue

/-! ## The header map -/

/-- `HeaderMap`: the fields in order, names in lower case. -/
abbrev HeaderMap := List (String × HeaderValue)

namespace HeaderMap

/-- `HeaderMap::get_all` -/
def getAll (m : HeaderMap) (name : String) : List HeaderValue :=
  (m.filter (·.1 == name)).map (·.2)

/-- `HeaderMap::get`: the first value of the field. -/
def get (m : HeaderMap) (name : String) : Option HeaderValue :=
  (m.getAll name).head?

/-- A lookup by a text in any case. -/
def getStr (m : HeaderMap) (name : Str) : Option HeaderValue :=
  m.get (String.ofList name.toAsciiLowercase)

/-- `HeaderMap::append` -/
def append (m : HeaderMap) (name : String) (v : HeaderValue) : HeaderMap :=
  List.append m [(name, v)]

/-- `HeaderMap::remove`, of every value of the field. -/
def remove (m : HeaderMap) (name : String) : HeaderMap :=
  m.filter (·.1 != name)

/-- `HeaderMap::insert`: replaces every value of the field. -/
def insert (m : HeaderMap) (name : String) (v : HeaderValue) : HeaderMap :=
  (m.remove name).append name v

theorem getAll_remove (m : HeaderMap) (name : String) : (m.remove name).getAll name = [] := by
  simp [getAll, remove, List.filter_filter]

theorem getAll_append (m : HeaderMap) (name : String) (v : HeaderValue) :
    (m.append name v).getAll name = m.getAll name ++ [v] := by
  show ((m ++ [(name, v)]).filter _).map _ = _
  simp [getAll]

theorem getAll_insert (m : HeaderMap) (name : String) (v : HeaderValue) :
    (m.insert name v).getAll name = [v] := by
  rw [insert, getAll_append, getAll_remove, List.nil_append]

end HeaderMap

/-! ## URIs -/

variable {H : HttpCrate}

structure Scheme (H : HttpCrate) where
  text : Str
  ok : H.schemeOk text = true
  deriving DecidableEq

structure Authority (H : HttpCrate) where
  text : Str
  ok : H.authorityOk text = true
  deriving DecidableEq

/-- `Authority::host` -/
def Authority.host (a : Authority H) : Str :=
  H.authorityHost a.text

structure PathAndQuery (H : HttpCrate) where
  text : Str
  ok : H.pathAndQueryOk text = true
  deriving DecidableEq

/-- `http::Uri` -/
structure Uri (H : HttpCrate) where
  scheme : Option (Scheme H)
  authority : Option (Authority H)
  pathAndQuery : Option (PathAndQuery H)
  deriving DecidableEq

namespace Uri

/-- `path_and_query().map(as_str).unwrap_or("/")`, the way the program reads the path. -/
def pathText (u : Uri H) : Str :=
  (u.pathAndQuery.map (·.text)).getD "/".toList

/-- `Uri::path` -/
def path (u : Uri H) : Str :=
  match u.pathAndQuery with
  | none => []
  | some p =>
    let path := p.text.beforeFirst '?'
    if path.isEmpty then "/".toList else path

/-- `Uri::query` -/
def query (u : Uri H) : Option Str :=
  (u.pathAndQuery.bind fun p => p.text.splitOnce '?').map (·.2)

/-- `Uri::builder()` with a scheme, an authority and a path: fails when one of them is illegal. -/
def build (scheme authority pathAndQuery : Str) : Option (Uri H) :=
  if hs : H.schemeOk scheme = true then
    if ha : H.authorityOk authority = true then
      if hp : H.pathAndQueryOk pathAndQuery = true then
        some { scheme := some ⟨scheme, hs⟩, authority := some ⟨authority, ha⟩,
               pathAndQuery := some ⟨pathAndQuery, hp⟩ }
      else none
    else none
  else none

/-- `Uri::builder()` with the scheme and the authority of another URI, if it has them, and a path. The
builder drops a fragment, and wants both of them or none. -/
def withPath (u : Uri H) (path : Str) : Except String (Uri H) :=
  if hp : H.pathAndQueryOk (path.beforeFirst '#') = true then
    if u.scheme.isSome = u.authority.isSome then
      .ok { u with pathAndQuery := some ⟨path.beforeFirst '#', hp⟩ }
    else if u.scheme.isSome then .error "authority missing"
    else .error "scheme missing"
  else .error "invalid uri character"

theorem pathText_ok (u : Uri H) : H.pathAndQueryOk u.pathText = true := by
  unfold pathText
  cases u.pathAndQuery with
  | none => exact H.pathAndQueryOk_slash
  | some p => exact p.ok

end Uri

/-- `RequestHeader` of pingora. -/
structure RequestHeader (H : HttpCrate) where
  method : String
  uri : Uri H
  headers : HeaderMap
  deriving DecidableEq

/-- `RequestHeader::insert_header`, `append_header` and `remove_header` -/
def RequestHeader.insertHeader (r : RequestHeader H) (name : String) (v : HeaderValue) :
    RequestHeader H :=
  { r with headers := r.headers.insert name v }

def RequestHeader.appendHeader (r : RequestHeader H) (name : String) (v : HeaderValue) :
    RequestHeader H :=
  { r with headers := r.headers.append name v }

def RequestHeader.removeHeader (r : RequestHeader H) (name : String) : RequestHeader H :=
  { r with headers := r.headers.remove name }

/-- `ResponseHeader` of pingora. -/
structure ResponseHeader where
  status : Nat
  headers : HeaderMap
  deriving DecidableEq

namespace ResponseHeader

/-- `ResponseHeader::build`: the status is a code of three digits. -/
def build (status : Nat) : Except String ResponseHeader :=
  if 100 ≤ status ∧ status ≤ 999 then .ok ⟨status, []⟩ else .error "invalid status code"

/-- The value that `insert_header` and `append_header` are given, or their error. -/
def value (v : Option HeaderValue) : Except String HeaderValue :=
  match v with
  | some v => .ok v
  | none => .error "failed to parse header value"

def insertHeader (r : ResponseHeader) (name : String) (v : Option HeaderValue) :
    Except String ResponseHeader := do
  return { r with headers := r.headers.insert name (← value v) }

def appendHeader (r : ResponseHeader) (name : String) (v : Option HeaderValue) :
    Except String ResponseHeader := do
  return { r with headers := r.headers.append name (← value v) }

def removeHeader (r : ResponseHeader) (name : String) : ResponseHeader :=
  { r with headers := r.headers.remove name }

end ResponseHeader

/-! ## Errors of pingora -/

/-- `pingora::ErrorType`, as far as the program tells the kinds apart. -/
inductive ErrorType where
  | httpStatus (code : Nat)
  | internalError
  | other (name : String)
  deriving DecidableEq, Repr

/-- `pingora::Error` -/
structure ProxyError where
  etype : ErrorType
  context : String
  cause : String
  retry : Bool
  deriving DecidableEq, Repr

/-- `Error::because(..)`: an error that is not to be retried. -/
def ProxyError.because (etype : ErrorType) (context cause : String) : ProxyError :=
  { etype, context, cause, retry := false }

/-- `Error::explain(..)` -/
def ProxyError.explain (etype : ErrorType) (context : String) : ProxyError :=
  { etype, context, cause := "", retry := false }

/-- `middleware_internal_error` -/
def middlewareInternalError (context message : String) : ProxyError :=
  .because .internalError context message

/-! ## A concrete crate -/

/-- The checks of the crate on the characters of each part. The finer rules (brackets, percent
signs, the length limits) are left out. -/
def HttpCrate.byCharacter : HttpCrate where
  schemeOk s := s == "https".toList || s == "http".toList
  authorityOk s := !s.isEmpty &&
    s.all fun c => visibleCode c.toNat && (c.isAlphanum || "-._~!$&'()*+,;=:@[]%".toList.contains c)
  authorityHost s :=
    let hostPort : Str := ((s.reverse).takeWhile (· != '@')).reverse
    if hostPort.head? = some '[' then hostPort.takeWhile (· != ']') ++ [']']
    else hostPort.beforeFirst ':'
  pathAndQueryOk s := s == "*".toList || (s.head? == some '/' &&
    s.all fun c => 33 ≤ c.toNat && c.toNat < 127 && c != '#')
  schemeOk_https := by decide
  pathAndQueryOk_slash := by decide
  visible_of_authorityOk := by
    intro a h
    rw [Bool.and_eq_true, List.all_eq_true] at h
    rw [List.all_eq_true]
    intro c hc
    exact (Bool.and_eq_true_iff.1 (h.2 c hc)).1

end Lonesome
