import Bop.Json.Scan

/-!
# URLs

`net/url` of Go: a URL is cut into its parts, each part is decoded, and printing
it encodes the parts again. The fragment is cut off first, then scheme and query,
then the authority and in it, at its last `@`, the user. The query is kept as it
is.

Of an error only the fact that there is one is kept.

## Main definitions

* `Encoding`, `shouldEscape`, `escape`, `unescape`: Percent encoding by parts.
* `Userinfo`, `URL`: A URL in parts.
* `parse`: `Parse`.
* `URL.string`: `URL.String`.
* `queryKey`: The key of a parameter as `Query` reads it.

## Theorems

* `string_query_iff`: URLs that differ in their query are printed alike only if
  they do not.
* `user_of_not_authority`: A text without an authority has no user.
* `getSchemeFrom_of_invalid`: A text that goes wrong before its first colon has
  no scheme.
-/

namespace Bop

namespace Url

/-! ### Percent encoding -/

/-- The parts of a URL that are encoded in their own ways. -/
inductive Encoding
  | path
  | host
  | zone
  | userPassword
  | queryComponent
  | fragment
deriving DecidableEq

/-- A letter or a digit. -/
def isAlnum (c : UInt8) : Bool := (97 ≤ c ∧ c ≤ 122) ∨ (65 ≤ c ∧ c ≤ 90) ∨ (48 ≤ c ∧ c ≤ 57)

/-- `shouldEscape`. -/
def shouldEscape (c : UInt8) (mode : Encoding) : Bool :=
  if isAlnum c then false
  -- What a host may hold beside letters and digits, the brackets of an address among it.
  else if (mode = .host ∨ mode = .zone) ∧ c ∈ ("!$&'()*+,;=:[]<>\"" : Bytes) then false
  else if c ∈ ("-_.~" : Bytes) then false
  -- The reserved bytes, each as its part has them.
  else if c ∈ ("$&+,/:;=?@" : Bytes) then match mode with
    | .path => c = 63
    | .userPassword => c ∈ ("@/?:" : Bytes)
    | .queryComponent => true
    | .fragment => false
    | .host | .zone => true
  else if mode = .fragment ∧ c ∈ ("!()*" : Bytes) then false
  else true

/-- A byte of the upper half of the hexadecimal digits. -/
def upperHex (n : Nat) : UInt8 := if n < 10 then UInt8.ofNat (48 + n) else UInt8.ofNat (55 + n)

/-- `escape`. -/
def escape (mode : Encoding) (s : Bytes) : Bytes :=
  s.flatMap fun c =>
    if shouldEscape c mode = false then [c]
    else if c = 32 ∧ mode = .queryComponent then [43]
    else [37, upperHex (c.toNat / 16), upperHex (c.toNat % 16)]

/-- `unescape`. In a host only bytes beyond ASCII may be encoded, and the
    percent sign; in a zone what a host may hold, and a blank. -/
def unescape (mode : Encoding) : Bytes → Option Bytes
  | [] => some []
  | b :: rest =>
      if b = 37 then match rest with
        | h :: l :: rest => do
            let high ← Json.hexValue h
            let low ← Json.hexValue l
            let v := UInt8.ofNat (16 * high + low)
            if mode = .host ∧ high < 8 ∧ v ≠ 37 then none
            else if mode = .zone ∧ v ≠ 37 ∧ v ≠ 32 ∧ shouldEscape v .host = true then none
            else (unescape mode rest).map (v :: ·)
        | _ => none
      -- A byte that a host may not hold is an error, not data.
      else if (mode = .host ∨ mode = .zone) ∧ b < 0x80 ∧ shouldEscape b mode = true then none
      else if b = 43 ∧ mode = .queryComponent then (unescape mode rest).map (32 :: ·)
      else (unescape mode rest).map (b :: ·)

/-- `validEncoded`. -/
def validEncoded (s : Bytes) (mode : Encoding) : Bool :=
  s.all fun c => c ∈ ("!$&'()*+,;=:@[]%" : Bytes) || !shouldEscape c mode

/-- What is kept of an encoded part: the part decoded, and as it was, if encoding
    it again does not give it back. -/
def decodePart (mode : Encoding) (p : Bytes) : Option (Bytes × Bytes) :=
  (unescape mode p).map fun decoded => (decoded, if p = escape mode decoded then [] else p)

/-- `EscapedPath` and `EscapedFragment`. -/
def encodePart (mode : Encoding) (part : Bytes × Bytes) : Bytes :=
  -- The encoding that was read is kept if it is still one of the decoded part.
  if part.2 ≠ [] ∧ validEncoded part.2 mode = true ∧ unescape mode part.2 = some part.1 then part.2
  else if mode = .path ∧ part.1 = "*" then "*"
  else escape mode part.1

/-! ### Parts -/

/-- `strings.Cut` at a byte. -/
def cut (c : UInt8) (s : Bytes) : Bytes × Bytes := (s.takeWhile (· ≠ c), (s.dropWhile (· ≠ c)).tail)

/-- The text before the last such byte, and the text after it. -/
def cutLast (c : UInt8) (s : Bytes) : Option (Bytes × Bytes) :=
  if c ∈ s then
    some ((s.reverse.dropWhile (· ≠ c)).tail.reverse, (s.reverse.takeWhile (· ≠ c)).reverse)
  else none

/-- `strings.Index`. -/
def index (sub : Bytes) : Bytes → Option Nat
  | [] => if sub = [] then some 0 else none
  | b :: rest => if sub.isPrefixOf (b :: rest) then some 0 else (index sub rest).map (· + 1)

/-- `Userinfo`. -/
structure Userinfo where
  username : Bytes
  password : Option Bytes
deriving DecidableEq

/-- `Userinfo.String`. -/
def Userinfo.string (u : Userinfo) : Bytes :=
  if u.username ≠ [] ∨ u.password.getD [] ≠ [] then
    escape .userPassword u.username ++ match u.password with
      | none => []
      | some password => ":" ++ escape .userPassword password
  else []

/-- `URL`. A path and a fragment are kept decoded and as they were. -/
structure URL where
  scheme : Bytes
  opaqueData : Bytes
  user : Option Userinfo
  host : Bytes
  path : Bytes × Bytes
  omitHost : Bool
  forceQuery : Bool
  rawQuery : Bytes
  fragment : Bytes × Bytes
deriving DecidableEq

/-- `getScheme`, with `read` already read of the scheme. -/
def getSchemeFrom (read : Bytes) : Bytes → Option (Bytes × Bytes)
  | [] => some ([], read)
  | c :: rest =>
      if (97 ≤ c ∧ c ≤ 122) ∨ (65 ≤ c ∧ c ≤ 90) then getSchemeFrom (read ++ [c]) rest
      -- A scheme begins with a letter.
      else if (48 ≤ c ∧ c ≤ 57) ∨ c ∈ ("+-." : Bytes) then
        if read = [] then some ([], c :: rest) else getSchemeFrom (read ++ [c]) rest
      -- With nothing in front of the colon the URL is an error, and not one without a scheme.
      else if c = 58 then if read = [] then none else some (read, rest)
      else some ([], read ++ c :: rest)

/-- `getScheme`. -/
def getScheme (rawURL : Bytes) : Option (Bytes × Bytes) := getSchemeFrom [] rawURL

/-- `strings.ToLower` of a scheme. -/
def toLower (s : Bytes) : Bytes := s.map fun c => if 65 ≤ c ∧ c ≤ 90 then c + 32 else c

/-- `validOptionalPort`. -/
def validOptionalPort (port : Bytes) : Bool :=
  port = [] ∨ port.head? = some 58 ∧ port.tail.all Json.isDigit = true

/-- `parseHost`. -/
def parseHost (host : Bytes) : Option Bytes :=
  if host.head? = some 91 then (cutLast 93 host).bind fun h =>
    if validOptionalPort h.2 = false then none
    -- A zone is encoded in its own way, behind its percent sign.
    else match index "%25" h.1 with
      | none => unescape .host host
      | some zone => do
          let host₁ ← unescape .host (h.1.take zone)
          let host₂ ← unescape .zone (h.1.drop zone)
          let host₃ ← unescape .host (93 :: h.2)
          return host₁ ++ host₂ ++ host₃
  else match cutLast 58 host with
    | none => unescape .host host
    | some h => if validOptionalPort (58 :: h.2) then unescape .host host else none

/-- `validUserinfo`. -/
def validUserinfo (s : Bytes) : Bool :=
  s.all fun c => isAlnum c || c ∈ ("-._:~!$&'()*+,;=%@" : Bytes)

/-- The user and the password of an authority. -/
def parseUserinfo (userinfo : Bytes) : Option Userinfo :=
  if validUserinfo userinfo = false then none
  else if (58 : UInt8) ∉ userinfo then
    (unescape .userPassword userinfo).map fun username => ⟨username, none⟩
  else do
    let username ← unescape .userPassword (cut 58 userinfo).1
    let password ← unescape .userPassword (cut 58 userinfo).2
    return ⟨username, some password⟩

/-- `parseAuthority`. -/
def parseAuthority (authority : Bytes) : Option (Option Userinfo × Bytes) :=
  match cutLast 64 authority with
  | none => (parseHost authority).map fun host => (none, host)
  | some a => do
      let host ← parseHost a.2
      let user ← parseUserinfo a.1
      return (some user, host)

/-- The query of what follows the scheme: what is before it, whether its mark
    is to be kept without it, and the query. -/
def splitQuery (rest : Bytes) : Bytes × Bool × Bytes :=
  if rest.getLast? = some 63 ∧ rest.count 63 = 1 then (rest.dropLast, true, [])
  else ((cut 63 rest).1, false, (cut 63 rest).2)

/-- `parse`: a URL without its fragment. -/
def parseUnfragmented (rawURL : Bytes) : Option URL :=
  if rawURL.any (fun b => b < 32 ∨ b = 127) then none
  else if rawURL = "*" then some ⟨[], [], none, [], ("*", []), false, false, [], ([], [])⟩
  else (getScheme rawURL).bind fun s =>
    let scheme := toLower s.1
    let (rest, forceQuery, rawQuery) := splitQuery s.2
    -- What follows a scheme without a slash is not taken apart.
    if rest.head? ≠ some 47 ∧ scheme ≠ [] then
      some ⟨scheme, rest, none, [], ([], []), false, forceQuery, rawQuery, ([], [])⟩
    -- A colon in the first element would look like a scheme.
    else if rest.head? ≠ some 47 ∧ (58 : UInt8) ∈ (cut 47 rest).1 then none
    else if (scheme ≠ [] ∨ ¬ ("///" : Bytes) <+: rest) ∧ ("//" : Bytes) <+: rest then do
      -- The authority ends at the next slash.
      let authority := (rest.drop 2).takeWhile (· ≠ 47)
      let (user, host) ← parseAuthority authority
      let path ← decodePart .path ((rest.drop 2).dropWhile (· ≠ 47))
      return ⟨scheme, [], user, host, path, false, forceQuery, rawQuery, ([], [])⟩
    else do
      let path ← decodePart .path rest
      -- One slash behind a scheme is not printed as three.
      let omitHost := scheme ≠ [] ∧ rest.head? = some 47
      return ⟨scheme, [], none, [], path, omitHost, forceQuery, rawQuery, ([], [])⟩

/-- `Parse`. -/
def parse (rawURL : Bytes) : Option URL := do
  let url ← parseUnfragmented (cut 35 rawURL).1
  if (cut 35 rawURL).2 = [] then return url
  else
    let fragment ← decodePart .fragment (cut 35 rawURL).2
    return { url with fragment := fragment }

/-! ### Printing -/

/-- What is printed between the scheme and the path. -/
def URL.authority (u : URL) : Bytes :=
  if (u.scheme ≠ [] ∨ u.host ≠ [] ∨ u.user ≠ none) ∧
      ¬ (u.omitHost = true ∧ u.host = [] ∧ u.user = none) then
    (if u.host ≠ [] ∨ u.path.1 ≠ [] ∨ u.user ≠ none then ("//" : Bytes) else []) ++
      (match u.user with
        | none => []
        | some user => user.string ++ "@") ++
      escape .host u.host
  else []

/-- What is printed before the query. -/
def URL.front (u : URL) : Bytes :=
  let scheme := if u.scheme ≠ [] then u.scheme ++ ":" else []
  if u.opaqueData ≠ [] then scheme ++ u.opaqueData
  else
    let path := encodePart .path u.path
    let slash := if path ≠ [] ∧ path.head? ≠ some 47 ∧ u.host ≠ [] then ("/" : Bytes) else []
    -- A path that would read as a scheme gets a dot in front.
    let dot := if scheme ++ u.authority ++ slash = [] ∧ (58 : UInt8) ∈ (cut 47 path).1 then
      ("./" : Bytes) else []
    scheme ++ u.authority ++ slash ++ dot ++ path

/-- What is printed of the query. -/
def URL.query (u : URL) : Bytes :=
  if u.forceQuery = true ∨ u.rawQuery ≠ [] then "?" ++ u.rawQuery else []

/-- What is printed of the fragment. -/
def URL.back (u : URL) : Bytes :=
  if u.fragment.1 ≠ [] then "#" ++ encodePart .fragment u.fragment else []

/-- `URL.String`. -/
def URL.string (u : URL) : Bytes := u.front ++ u.query ++ u.back

/-- The key of a parameter of the query, as `Query` reads it. -/
def queryKey (param : Bytes) : Option Bytes := unescape .queryComponent (cut 61 param).1

/-- A URL with another query is printed alike only if it is the same query. -/
theorem string_query_iff (u : URL) (q : Bytes) :
    { u with rawQuery := q }.string = u.string ↔ q = u.rawQuery := by
  refine ⟨fun h => ?_, fun h => by rw [h]⟩
  have hquery : { u with rawQuery := q }.query = u.query :=
    List.append_cancel_left (List.append_cancel_right h)
  -- The query is between the rest, with its mark or without.
  unfold URL.query at hquery
  dsimp only at hquery
  split at hquery
  · split at hquery
    · exact List.append_cancel_left hquery
    · cases hquery
  · next hempty =>
    split at hquery
    · cases hquery
    · next hempty' =>
      rw [not_or, not_not] at hempty hempty'
      rw [hempty.2, hempty'.2]

/-! ### Texts without an authority -/

/-- A text that goes wrong before its first colon has no scheme. -/
theorem getSchemeFrom_of_invalid (read p s : Bytes) (c : UInt8) (hp : (58 : UInt8) ∉ p)
    (hc : isAlnum c = false ∧ c ∉ ("+-.:" : Bytes)) :
    getSchemeFrom read (p ++ c :: s) = some ([], read ++ (p ++ c :: s)) := by
  induction p generalizing read with
  | nil =>
      have hc' := hc.1
      unfold isAlnum at hc'
      rw [decide_eq_false_iff_not, not_or, not_or] at hc'
      -- The byte itself is neither part of a scheme nor its end.
      have hmark : c ∉ ("+-." : Bytes) := fun h => hc.2 (List.mem_append_left [58] h)
      have hcolon : c ≠ 58 := fun h => hc.2 (h ▸ by decide)
      rw [List.nil_append, getSchemeFrom, if_neg (not_or.mpr ⟨hc'.1, hc'.2.1⟩),
        if_neg (not_or.mpr ⟨hc'.2.2, hmark⟩), if_neg hcolon]
  | cons b p ih =>
      have hb : b ≠ 58 := fun h => hp (h ▸ List.mem_cons_self)
      -- A byte before it is read on, or the text has no scheme at once.
      have hmore := ih (read ++ [b]) fun h => hp (List.mem_cons_of_mem b h)
      rw [List.append_assoc, List.singleton_append, ← List.cons_append] at hmore
      rw [List.cons_append, getSchemeFrom]
      split
      · exact hmore
      · split
        · split
          · next hread =>
            rw [hread]
            rfl
          · exact hmore
        · rfl

theorem splitQuery_isPrefix (rest : Bytes) : (splitQuery rest).1 <+: rest := by
  unfold splitQuery
  split
  · exact List.dropLast_prefix rest
  · exact List.takeWhile_prefix _

/-- A text without a scheme that does not begin with two slashes has no user. -/
theorem user_of_not_authority (rawURL : Bytes) (u : URL) (h : parse rawURL = some u)
    (hscheme : getScheme (cut 35 rawURL).1 = some ([], (cut 35 rawURL).1))
    (hslashes : ¬ ("//" : Bytes) <+: (cut 35 rawURL).1) : u.user = none := by
  -- A fragment changes nothing about the user.
  have huser : ∃ v, parseUnfragmented (cut 35 rawURL).1 = some v ∧ u.user = v.user := by
    rcases Option.bind_eq_some_iff.mp h with ⟨v, hv, h⟩
    refine ⟨v, hv, ?_⟩
    split at h
    · cases h
      rfl
    · rcases Option.bind_eq_some_iff.mp h with ⟨fragment, _, h⟩
      cases h
      rfl
  rcases huser with ⟨v, hv, huser⟩
  rw [huser]
  -- The query is cut off at the end, so the text begins as it did.
  have hrest : ¬ ("//" : Bytes) <+: (splitQuery (cut 35 rawURL).1).1 := fun hbegins =>
    hslashes (hbegins.trans (splitQuery_isPrefix _))
  unfold parseUnfragmented at hv
  split at hv
  · cases hv
  · split at hv
    · cases hv
      rfl
    · rw [hscheme, Option.bind_some] at hv
      dsimp only at hv
      split at hv
      · cases hv
        rfl
      · split at hv
        · cases hv
        · rw [if_neg (fun hboth => hrest hboth.2)] at hv
          rcases Option.bind_eq_some_iff.mp hv with ⟨path, _, hv⟩
          cases hv
          rfl

end Url

end Bop
