import MarketDag.Web.Host

/-!
# Web addresses

An absolute address: a scheme, for most schemes an authority, a path, and perhaps a query and a
fragment.  Reading puts an address into its normal form: it drops dot segments, encodes what a part
cannot hold and leaves out the usual port of a scheme.
-/

namespace MarketDag

/-! ## Parts -/

/-- Who is asked: a host with a port, and a name and a password for it. -/
structure Authority where
  username : List Char
  /-- Without characters if there is no password. -/
  password : List Char
  host : Host
  port : Option Nat
deriving DecidableEq

/-- The path of an address: segments from a root, or a text without a root. -/
inductive UrlPath where
  | rooted (segments : List (List Char))
  | plain (text : List Char)
deriving DecidableEq

/-- An absolute address. -/
structure Url where
  scheme : List Char
  authority : Option Authority
  path : UrlPath
  query : Option (List Char)
  fragment : Option (List Char)
deriving DecidableEq

namespace Url

/-! ## Schemes -/

/-- The usual port of a scheme. -/
def usualPort? (scheme : List Char) : Option Nat :=
  if scheme = "http".toList ∨ scheme = "ws".toList then some 80
  else if scheme = "https".toList ∨ scheme = "wss".toList then some 443
  else if scheme = "ftp".toList then some 21
  else none

/-- Does a scheme name files? -/
def isFile (scheme : List Char) : Bool := scheme = "file".toList

/-- Does a scheme always have a host with a meaning and a path from a root? -/
def isSpecial (scheme : List Char) : Bool := isFile scheme || (usualPort? scheme).isSome

/-- Is a scheme one of HTTP? -/
def isHttp (scheme : List Char) : Bool := scheme = "http".toList ∨ scheme = "https".toList

/-- Does a character part segments? -/
def isSlash (special : Bool) (c : Char) : Bool := c = '/' ∨ (special ∧ c = '\\')

/-- Does a character end an authority? -/
def endsAuthority (special : Bool) (c : Char) : Bool := isSlash special c ∨ c = '?' ∨ c = '#'

/-- The scheme before the first colon, in small letters, and what follows. -/
def splitScheme? (cs : List Char) : Option (List Char × List Char) :=
  let scheme := cs.takeWhile fun c => c.isAlphanum ∨ c = '+' ∨ c = '-' ∨ c = '.'
  match scheme.head?, cs.drop scheme.length with
  | some c, ':' :: rest => if c.isAlpha then some (scheme.map Char.toLower, rest) else none
  | _, _ => none

/-! ## Authorities -/

/-- The part before the last at-sign, if there is one, and the part after it. -/
def splitUserinfo (cs : List Char) : Option (List Char) × List Char :=
  let host := (cs.reverse.takeWhile (· ≠ '@')).reverse
  if host.length = cs.length then (none, cs)
  else (some (cs.take (cs.length - host.length - 1)), host)

/-- A name and the password after the first colon. -/
def splitPassword (cs : List Char) : List Char × List Char :=
  let name := cs.takeWhile (· ≠ ':')
  (name, cs.drop (name.length + 1))

/-- The host before the first colon outside of brackets, and the rest. -/
def splitHost (bracketed : Bool) : List Char → List Char × List Char
  | [] => ([], [])
  | c :: cs =>
    if c = ':' ∧ ¬ bracketed then ([], c :: cs)
    else
      let (host, rest) := splitHost (c = '[' ∨ (bracketed ∧ c ≠ ']')) cs
      (c :: host, rest)

/-- The greatest port. -/
def maxPort : Nat := 65535

/-- The port after a colon, if it is not the usual one, and what follows it. -/
def readPort (scheme cs : List Char) : Except UrlFault (Option Nat × List Char) :=
  let digits := cs.takeWhile Char.isDigit
  let rest := cs.drop digits.length
  let port := digits.foldl (fun n c => n * 10 + (c.toNat - 48)) 0
  if maxPort < port then .error .badPort
  else if rest.isEmpty ∨ rest.head? = some '\\' then
    .ok (if digits.isEmpty ∨ usualPort? scheme = some port then none else some port, rest)
  else .error .badPort

/-- The host of a scheme. -/
def readHost (scheme cs : List Char) : Except UrlFault Host :=
  if ¬ isSpecial scheme then Host.ofPlainChars cs
  else if cs.isEmpty then .error .emptyHost
  else Host.ofChars cs

/-- The authority of a text, and what follows its port in the text; `more` tells whether anything
follows the text itself. -/
def readAuthority (scheme cs : List Char) (more : Bool) :
    Except UrlFault (Authority × List Char) := do
  let (userinfo?, hostAndPort) := splitUserinfo cs
  if userinfo? = some [] ∧ hostAndPort.isEmpty ∧ more then throw .emptyHost
  let (username, password) := splitPassword (userinfo?.getD [])
  let (hostText, portText) := splitHost false hostAndPort
  let host ← readHost scheme hostText
  let isEmpty := host = .domain []
  if isEmpty ∧ ¬ portText.isEmpty then throw .emptyHost
  let (port, rest) ← match portText with
    | ':' :: digits => readPort scheme digits
    | other => pure (none, other)
  if isEmpty ∧ ¬ (username.isEmpty ∧ password.isEmpty) then throw .emptyHost
  let encode := Percent.encode Percent.inUserinfo
  return (⟨encode username, encode password, host, port⟩, rest)

/-! ## Paths -/

/-- Is a segment one dot, perhaps encoded? -/
def isDot (segment : List Char) : Bool :=
  segment.map Char.toLower = ['.'] ∨ segment.map Char.toLower = ['%', '2', 'e']

/-- Is a segment two dots, perhaps encoded? -/
def isDoubleDot (segment : List Char) : Bool :=
  let lower := String.ofList (segment.map Char.toLower)
  ["..", ".%2e", "%2e.", "%2e%2e"].contains lower

/-- Is a segment the letter of a drive? -/
def isDrive : List Char → Bool
  | [c, mark] => c.isAlpha && (mark = ':' || mark = '|')
  | _ => false

/-- Drops the last segment, unless it is the letter of a drive. -/
def dropSegment : List (List Char) → List (List Char)
  | [] => []
  | s :: ss => if isDrive s then s :: ss else ss

/-- The letter of a drive with a colon. -/
def withColon : List Char → List Char
  | c :: _ => [c, ':']
  | [] => []

/-- Adds a segment to the segments so far, of which the last stands first. Dot segments vanish; a
path to a file has no empty segments at its front and may begin with a drive. -/
def addSegment (file last : Bool) (done : List (List Char)) (segment : List Char) :
    List (List Char) :=
  let close (ss : List (List Char)) := if last then [] :: ss else ss
  if isDoubleDot segment then close (dropSegment done)
  else if isDot segment then close done
  else if file ∧ done.isEmpty ∧ isDrive segment then withColon segment :: done
  else if file ∧ done.isEmpty ∧ segment.isEmpty then close done
  else Percent.encode Percent.inPath segment :: done

/-- Adds segments to the segments so far. -/
def addSegments (file : Bool) (done : List (List Char)) : List (List Char) → List (List Char)
  | [] => done
  | [segment] => addSegment file true done segment
  | segment :: segments => addSegments file (addSegment file false done segment) segments

/-- Segments after other segments, in normal form. -/
def appendSegments (scheme : List Char) (front segments : List (List Char)) : List (List Char) :=
  (addSegments (isFile scheme) front.reverse segments).reverse

/-- The segments of a path's text, in normal form. -/
def readSegments (scheme cs : List Char) : List (List Char) :=
  let special := isSpecial scheme
  appendSegments scheme [] (cs.splitOnP (isSlash special))

/-- The path after an authority; only a special scheme has a root without one in the text. -/
def readPath (scheme cs : List Char) : UrlPath :=
  let special := isSpecial scheme
  match cs with
  | [] => .rooted (if special then [[]] else [])
  | c :: rest => .rooted (readSegments scheme (if isSlash special c then rest else c :: rest))

/-! ## Reading -/

/-- The text before a query or a fragment, and the rest. -/
def splitPath (cs : List Char) : List Char × List Char :=
  cs.span fun c => c ≠ '?' ∧ c ≠ '#'

/-- The fragment that follows. -/
def readFragment : List Char → Option (List Char)
  | '#' :: cs => some (Percent.encode Percent.inFragment cs)
  | _ => none

/-- The query and fragment that follow. -/
def readQuery (scheme : List Char) : List Char → Option (List Char) × Option (List Char)
  | '?' :: cs =>
    let (query, rest) := cs.span (· ≠ '#')
    let set := if isSpecial scheme then Percent.inSpecialQuery else Percent.inQuery
    (some (Percent.encode set query), readFragment rest)
  | cs => (none, readFragment cs)

/-- An address whose path is known and whose query and fragment follow. -/
def complete (scheme : List Char) (authority : Option Authority) (path : UrlPath)
    (rest : List Char) : Url :=
  let (query, fragment) := readQuery scheme rest
  ⟨scheme, authority, path, query, fragment⟩

/-- What follows the two slashes before an authority. -/
def readAfterSlashes (scheme cs : List Char) : Except UrlFault Url := do
  let (text, rest) := cs.span fun c => ¬ endsAuthority (isSpecial scheme) c
  let (authority, unread) ← readAuthority scheme text (¬ rest.isEmpty)
  let (path, rest) := splitPath (unread ++ rest)
  return complete scheme (some authority) (readPath scheme path) rest

/-- The authority of a file on this machine. -/
def thisMachine : Authority := ⟨[], [], .domain [], none⟩

/-- The authority of a file's host: the usual name of this machine is none. -/
def fileAuthority (cs : List Char) : Except UrlFault Authority := do
  if cs.isEmpty then return thisMachine
  let host ← Host.ofChars cs
  if host = .domain "localhost".toList then return thisMachine
  return { thisMachine with host := host }

/-- A path to a file is on this machine if it begins with a drive. -/
def fileOn (authority : Authority) (cs : List Char) : Url :=
  let scheme := "file".toList
  let (text, rest) := splitPath cs
  let path := readPath scheme text
  let first? := (text.splitOnP (isSlash true)).find? (· ≠ [])
  let local? := first?.any isDrive
  complete scheme (some (if local? then thisMachine else authority)) path rest

/-- What follows the scheme of a file. -/
def readFile (cs : List Char) : Except UrlFault Url :=
  match cs with
  | a :: b :: rest =>
    if isSlash true a ∧ isSlash true b then do
      let (text, path) := rest.span fun c => ¬ endsAuthority true c
      if isDrive text then return fileOn thisMachine rest
      else return fileOn (← fileAuthority text) path
    else .ok (fileOn thisMachine cs)
  | cs => .ok (fileOn thisMachine cs)

/-- What follows a scheme without special rules. -/
def readPlain (scheme : List Char) : List Char → Except UrlFault Url
  | '/' :: '/' :: cs => readAfterSlashes scheme cs
  | '/' :: cs =>
    let (text, rest) := splitPath cs
    .ok (complete scheme none (.rooted (readSegments scheme text)) rest)
  | cs =>
    let (text, rest) := splitPath cs
    .ok (complete scheme none (.plain (Percent.encode Percent.controls text)) rest)

/-- Is a character left out at both ends of a text? -/
def isOuter (c : Char) : Bool := c.toNat ≤ 0x20

/-- Is a character left out everywhere? -/
def isLeftOut (c : Char) : Bool := c = '\t' ∨ c = '\n' ∨ c = '\x0D'

/-- The characters of a text that count. -/
def relevant (cs : List Char) : List Char :=
  let front := cs.dropWhile isOuter
  (front.reverse.dropWhile isOuter).reverse.filter fun c => ¬ isLeftOut c

/-- Reads an absolute address. -/
def ofChars (cs : List Char) : Except UrlFault Url :=
  match splitScheme? (relevant cs) with
  | none => .error .relative
  | some (scheme, rest) =>
    if isFile scheme then readFile rest
    -- slashes behind a special scheme do not count, however many they are
    else if isSpecial scheme then readAfterSlashes scheme (rest.dropWhile (isSlash true))
    else readPlain scheme rest

/-- Reads an absolute address. -/
def ofText (s : String) : Except UrlFault Url := ofChars s.toList

end Url

/-! ## Writing -/

/-- The text of an authority. -/
def Authority.toChars (a : Authority) : List Char :=
  let password := if a.password.isEmpty then [] else ':' :: a.password
  let userinfo :=
    if a.username.isEmpty ∧ a.password.isEmpty then [] else a.username ++ password ++ ['@']
  let port := match a.port with
    | some n => ':' :: Nat.toDigits 10 n
    | none => []
  userinfo ++ a.host.toChars ++ port

/-- The text of a path. -/
def UrlPath.toChars : UrlPath → List Char
  | .rooted segments => segments.flatMap ('/' :: ·)
  | .plain text => text

namespace Url

/-- Would the path of an address without an authority read as one? -/
def needsGuard (url : Url) : Bool :=
  url.authority.isNone && "//".toList.isPrefixOf url.path.toChars

/-- The text of an address. -/
def toText (url : Url) : String :=
  let authority := match url.authority with
    | some a => '/' :: '/' :: a.toChars
    | none => if url.needsGuard then ['/', '.'] else []
  let query := match url.query with
    | some cs => '?' :: cs
    | none => []
  let fragment := match url.fragment with
    | some cs => '#' :: cs
    | none => []
  String.ofList (url.scheme ++ ':' :: authority ++ url.path.toChars ++ query ++ fragment)

instance : ToString Url := ⟨toText⟩

/-! ## Bases -/

/-- The address with a slash at the end of its path. A path without a root and without any text
stays without a root, for its slash is encoded. -/
def asBase (url : Url) : Url :=
  if url.path.toChars.getLast? = some '/' then url
  else
    match url.path with
    | .rooted segments => { url with path := .rooted (segments ++ [[]]) }
    | .plain [] => { url with path := .plain ['%', '2', 'F'] }
    | .plain text => { url with path := .plain (text ++ ['/']) }

/-- The address that segments lead to from an address. -/
def join (url : Url) (segments : List (List Char)) : Except UrlFault Url :=
  match url.path with
  | .plain _ => .error .noBase
  | .rooted front =>
    let path := appendSegments url.scheme front.dropLast segments
    .ok { url with path := .rooted path, query := none, fragment := none }

end Url

end MarketDag
