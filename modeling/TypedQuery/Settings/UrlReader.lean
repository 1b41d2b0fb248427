import TypedQuery.Number.Rounding
import TypedQuery.Settings.Ipv6
import TypedQuery.Settings.Url

/-!
# Reading URLs

Blanks and control characters around the text do not count, and tabs and line ends not anywhere.
Parts that hold characters which may not stand there are encoded, and dots as segments of the
path are resolved.
-/

namespace TypedQuery

inductive UrlFault where
  | noScheme
  | emptyHost
  | port
  | ipv6
  | hostCharacter
  | hostName
deriving DecidableEq

namespace UrlFault

def text : UrlFault -> String
  | noScheme => "relative URL without a base"
  | emptyHost => "empty host"
  | port => "invalid port number"
  | ipv6 => "invalid IPv6 address"
  | hostCharacter => "invalid domain character"
  | hostName => "invalid international domain name"

end UrlFault

namespace UrlReader

/-!
## Scheme
-/

def isSchemeChar (c : Char) : Bool := c.isAlphanum || c == '+' || c == '-' || c == '.'

def scheme? (cs : List Char) : Option (String × List Char) :=
  match cs.head?, cs.dropWhile isSchemeChar with
  | some c, ':' :: rest =>
      if c.isAlpha then some (String.ofList ((cs.takeWhile isSchemeChar).map Char.toLower), rest)
      else none
  | _, _ => none

/-!
## Authority
-/

def isSlash (kind : SchemeKind) (c : Char) : Bool := c == '/' || (kind.isSpecial && c == '\\')

def endsAuthority (kind : SchemeKind) (c : Char) : Bool := isSlash kind c || c == '?' || c == '#'

/-- Splits a text at the last of a character. -/
def splitAtLast? (c : Char) (cs : List Char) : Option (List Char × List Char) :=
  match cs.reverse.dropWhile (· != c) with
  | _ :: before => some (before.reverse, (cs.reverse.takeWhile (· != c)).reverse)
  | [] => none

/-- The username and the password that stand before a host. -/
def credentials (cs : List Char) : String × Option String :=
  let encoded := Percent.encode .userinfo
  match cs.dropWhile (· != ':') with
  | _ :: password =>
      (encoded (cs.takeWhile (· != ':')),
        if password.isEmpty then none else some (encoded password))
  | [] => (encoded cs, none)

/-- Splits a host from what follows it; colons between brackets belong to the host. -/
def splitHost (inBrackets : Bool) : List Char -> List Char × List Char
  | [] => ([], [])
  | c :: rest =>
      if c = ':' ∧ ¬ inBrackets then ([], c :: rest)
      else
        let inside := if c = '[' then true else if c = ']' then false else inBrackets
        let (host, after) := splitHost inside rest
        (c :: host, after)

def isForbiddenInHost (c : Char) : Bool :=
  c == '\x00' || c == ' ' || "#/:<>?@[\\]^|".toList.contains c

def isForbiddenInDomain (c : Char) : Bool :=
  isForbiddenInHost c || c == '%' || c.toNat < 0x20 || c.toNat = 0x7F

/-- A host: an address between brackets, or a name. -/
def readHost (kind : SchemeKind) (cs : List Char) : Except UrlFault String :=
  match cs with
  | '[' :: inner =>
      match (if inner.getLast? = some ']' then Ipv6.ofText? inner.dropLast else none) with
      | some address => .ok ("[" ++ address.toText ++ "]")
      | none => .error .ipv6
  | _ =>
      if kind.isSpecial then
        match Percent.decode? (String.ofList cs) with
        | some name =>
            if name.toList.any isForbiddenInDomain then .error .hostName
            else .ok (Percent.encode .controls (name.toList.map Char.toLower))
        | none => .error .hostName
      else if cs.any isForbiddenInHost then .error .hostCharacter
      else .ok (Percent.encode .controls cs)

/-- A port of 16 bits, empty for none, and the rest of the text from a backslash on. -/
def readPort (cs : List Char) : Except UrlFault (Option Nat × List Char) :=
  let (digits, rest) := Number.takeDigits cs
  let port := Number.ofDigits digits
  if port ≥ 65536 then .error .port
  else if rest.isEmpty ∨ rest.head? = some '\\' then
    .ok (if digits.isEmpty then none else some port, rest)
  else .error .port

/-- An authority, and the part of its text that belongs to the path already; `more` says whether
anything follows.  A host may be missing only where nothing else speaks of it. -/
def readAuthority (kind : SchemeKind) (more : Bool) (cs : List Char) :
    Except UrlFault (Authority × List Char) := do
  let ((username, password), place) :=
    match splitAtLast? '@' cs with
    | some (info, place) => (credentials info, place)
    | none => (("", none), cs)
  let (hostText, after) := splitHost false place
  let needed := kind.isSpecial || after.head? == some ':' ||
    !username.isEmpty || password.isSome || (cs == ['@'] && more)
  if hostText.isEmpty && needed then throw .emptyHost
  let host <- readHost kind hostText
  let (port, rest) <- match after with
    | ':' :: port => readPort port
    | rest => pure (none, rest)
  let port := if kind = .special (port.getD 0) then none else port
  return ({ username, password, host, port }, rest)

/-- The name of a drive is never a host, and no segment that two dots leave. -/
def isDrive (segment : List Char) : Bool :=
  match segment with
  | [c, d] => c.isAlpha && (d == ':' || d == '|')
  | _ => false

/-- The authority of a file is a host alone; this machine is left out, and a drive belongs to the
path. -/
def readFileHost (cs : List Char) : Except UrlFault (Authority × List Char) := do
  if cs.isEmpty then return ({ host := "" }, [])
  else if isDrive cs then return ({ host := "" }, cs)
  else
    let host <- readHost .file cs
    return ({ host := if host = "localhost" then "" else host }, [])

/-!
## Path
-/

def isSingleDot (segment : String) : Bool := segment == "." || segment.toLower == "%2e"

def isDoubleDot (segment : String) : Bool :=
  ["..", "%2e.", ".%2e", "%2e%2e"].contains segment.toLower

def leave (segments : List String) : List String :=
  match segments.getLast? with
  | some last => if isDrive last.toList then segments else segments.dropLast
  | none => []

/-- Resolves the dots among segments, after those that are settled. -/
def resolve (settled : List String) : List String -> List String
  | [] => settled
  | [last] =>
      if isDoubleDot last then leave settled ++ [""]
      else if isSingleDot last then settled ++ [""]
      else settled ++ [last]
  | segment :: rest =>
      if isDoubleDot segment then resolve (leave settled) rest
      else if isSingleDot segment then resolve settled rest
      else resolve (settled ++ [segment]) rest

/-- The segments of a path after its first slash. -/
def segments (kind : SchemeKind) (cs : List Char) : List String :=
  let slashes := cs.map fun c => if isSlash kind c then '/' else c
  resolve [] ((Text.splitOnChar '/' slashes).map (Percent.encode .path))

/-- The path after an authority; only an ordinary scheme may do without. -/
def hierarchicalPath (kind : SchemeKind) (cs : List Char) : UrlPath :=
  match cs with
  | [] => .segments (if kind.isSpecial then [""] else [])
  | c :: rest => .segments (segments kind (if isSlash kind c then rest else c :: rest))

/-!
## The whole
-/

/-- The query and the fragment of a text that starts with one of them. -/
def queryAndFragment (kind : SchemeKind) (cs : List Char) : Option String × Option String :=
  let set := if kind.isSpecial then Percent.EncodeSet.specialQuery else .query
  let fragment : Option String :=
    match cs.dropWhile (· != '#') with
    | _ :: rest => some (Percent.encode .fragment rest)
    | [] => none
  match cs with
  | '?' :: rest => (some (Percent.encode set (rest.takeWhile (· != '#'))), fragment)
  | _ => (none, fragment)

def isTail (c : Char) : Bool := c == '?' || c == '#'

/-- Reads what follows the two slashes before an authority. -/
def afterSlashes (scheme : String) (kind : SchemeKind) (cs : List Char) : Except UrlFault Url := do
  let after := cs.dropWhile (!endsAuthority kind ·)
  let place := cs.takeWhile (!endsAuthority kind ·)
  let (authority, rest) <-
    if kind = .file then readFileHost place else readAuthority kind (!after.isEmpty) place
  let tail := rest ++ after
  let (query, fragment) := queryAndFragment kind (tail.dropWhile (!isTail ·))
  return { scheme, authority := some authority
           path := hierarchicalPath kind (tail.takeWhile (!isTail ·)), query, fragment }

/-- Reads what follows the colon of a scheme when there is no authority. -/
def withoutAuthority (scheme : String) (kind : SchemeKind) (cs : List Char) : Url :=
  let (query, fragment) := queryAndFragment kind (cs.dropWhile (!isTail ·))
  let path : UrlPath :=
    match cs.takeWhile (!isTail ·) with
    | '/' :: rest => .segments (segments kind rest)
    | text => .opaqueText (Percent.encode .controls text)
  { scheme, authority := none, path, query, fragment }

def afterScheme (scheme : String) (cs : List Char) : Except UrlFault Url :=
  match SchemeKind.ofName scheme, cs with
  | .ordinary, '/' :: '/' :: rest => afterSlashes scheme .ordinary rest
  | .ordinary, rest => .ok (withoutAuthority scheme .ordinary rest)
  | .file, a :: b :: rest =>
      if isSlash .file a ∧ isSlash .file b then afterSlashes scheme .file rest
      else
        afterSlashes scheme .file
          ('/' :: (if isSlash .file a then b :: rest else a :: b :: rest))
  | .file, rest => afterSlashes scheme .file ('/' :: rest.filter (!isSlash .file ·))
  | kind, rest => afterSlashes scheme kind (rest.dropWhile (isSlash kind ·))

def isOuter (c : Char) : Bool := c ≤ ' '

def isIgnored (c : Char) : Bool := c == '\t' || c == '\n' || c == '\r'

end UrlReader

def Url.ofText (text : String) : Except UrlFault Url :=
  let trimmed :=
    ((text.toList.dropWhile UrlReader.isOuter).reverse.dropWhile UrlReader.isOuter).reverse
  match UrlReader.scheme? (trimmed.filter (!UrlReader.isIgnored ·)) with
  | some (scheme, rest) => UrlReader.afterScheme scheme rest
  | none => .error .noScheme

end TypedQuery
