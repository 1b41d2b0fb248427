import TypedQuery.Settings.Percent

/-!
# URLs

A URL has a scheme, maybe an authority, a path, and maybe a query and a fragment.  The parts are
kept encoded, as they are written.  A path is a list of segments, or a text of its own when
nothing marks its start.
-/

namespace TypedQuery

/-- Who is asked, and where; a password is never empty. -/
structure Authority where
  username : String := ""
  password : Option String := none
  host : String
  port : Option Nat := none
deriving DecidableEq

inductive UrlPath where
  | segments (items : List String)
  | opaqueText (text : String)
deriving DecidableEq

structure Url where
  scheme : String
  authority : Option Authority
  path : UrlPath
  query : Option String := none
  fragment : Option String := none
deriving DecidableEq

namespace Authority

def credentials (a : Authority) : String :=
  match a.password with
  | some password => a.username ++ ":" ++ password ++ "@"
  | none => if a.username.isEmpty then "" else a.username ++ "@"

def toText (a : Authority) : String :=
  "//" ++ a.credentials ++ a.host ++
    (match a.port with
    | some port => ":" ++ toString port
    | none => "")

end Authority

namespace UrlPath

def toText : UrlPath -> String
  | segments items => String.join (items.map ("/" ++ ·))
  | opaqueText text => text

end UrlPath

namespace Url

/-- A path that would read as an authority has a dot before it. -/
def pathText (u : Url) : String :=
  match u.authority, u.path with
  | none, .segments ("" :: _ :: _) => "/." ++ u.path.toText
  | _, path => path.toText

def toText (u : Url) : String :=
  u.scheme ++ ":" ++ (match u.authority with | some a => a.toText | none => "") ++ u.pathText ++
    (match u.query with | some query => "?" ++ query | none => "") ++
    (match u.fragment with | some fragment => "#" ++ fragment | none => "")

def host? (u : Url) : Option String :=
  (u.authority.map (·.host)).filter (!·.isEmpty)

def firstSegment? (u : Url) : Option String :=
  match u.path with
  | .segments (first :: _) => if first.isEmpty then none else some first
  | _ => none

/-- The URL with its password replaced, if it has one. -/
def withPassword (u : Url) (password : String) : Url :=
  { u with authority := u.authority.map fun a =>
      { a with password := a.password.map fun _ => password } }

end Url

/-!
## Special schemes

Schemes of the web have a host always, a path that starts with a slash, and maybe a port that is
left out.
-/

/-- How a scheme treats what follows it. -/
inductive SchemeKind where
  | ordinary
  | special (defaultPort : Nat)
  | file
deriving DecidableEq

namespace SchemeKind

def ofName : String -> SchemeKind
  | "http" | "ws" => special 80
  | "https" | "wss" => special 443
  | "ftp" => special 21
  | "file" => file
  | _ => ordinary

def isSpecial (k : SchemeKind) : Bool := k ≠ ordinary

end SchemeKind

end TypedQuery
