import MergedMining.Url.Host

/-!
# URLs

`isUrl` says whether a text is an absolute URL.  Space and control characters at its ends and line breaks
anywhere do not count.  In the schemes of the web any number of slashes in front of the host will do and a host
has to be there; in other schemes two slashes announce a host, and without them the rest is free.
-/

namespace MergedMining

namespace Url

/-- The schemes of the web, whose hosts are names or addresses. -/
def webSchemes : List String := ["http", "https", "ws", "wss", "ftp"]

/-- A text without control characters and spaces at its ends and without tabs and line breaks. -/
def clean (s : String) : List Char :=
  let edge (c : Char) : Bool := c.toNat ≤ 0x20
  let trimmed := ((s.toList.dropWhile edge).reverse.dropWhile edge).reverse
  trimmed.filter fun c => c ≠ '\t' && c ≠ '\n' && c ≠ '\r'

/-- The scheme of a URL in lower case, and the text behind its colon. -/
def scheme? (cs : List Char) : Option (String × List Char) :=
  let (name, rest) := cs.span fun c => c.isAlphanum || c = '+' || c = '-' || c = '.'
  match name, rest with
  | first :: _, ':' :: rest =>
    if first.isAlpha then some (String.ofList (name.map Char.toLower), rest) else none
  | _, _ => none

/-- Whether a character ends the part with the host. -/
def endsAuthority (web : Bool) (c : Char) : Bool :=
  c = '/' || c = '?' || c = '#' || (web && c = '\\')

/-- The text behind the last at sign, and whether there is one with something in front of it. -/
def behindUser (authority : List Char) : List Char × Bool :=
  let behind := (authority.reverse.takeWhile (· ≠ '@')).reverse
  (behind, behind.length + 1 < authority.length)

/-- The host, and the text behind it; a colon inside brackets does not end it. -/
def splitHost : Bool → List Char → List Char × List Char
  | _, [] => ([], [])
  | inside, c :: cs =>
    if c = ':' ∧ !inside then ([], c :: cs)
    else
      let inside := if c = '[' then true else if c = ']' then false else inside
      let (host, rest) := splitHost inside cs
      (c :: host, rest)

/-- Whether a text is empty, or a colon and a number below `2 ^ 16` or nothing. -/
def isPort : List Char → Bool
  | [] => true
  | ':' :: digits =>
    digits.all Char.isDigit && digits.foldl (fun n c => n * 10 + (c.toNat - '0'.toNat)) 0 < UInt16.size
  | _ => false

/-- Whether a text begins with a host that may have a user in front of it and a port behind it. -/
def hasAuthority (web : Bool) (cs : List Char) : Bool :=
  let (authority, user) := behindUser (cs.takeWhile fun c => !endsAuthority web c)
  let (host, port) := splitHost false authority
  if web then isWebHost host && isPort port
  else isOtherHost host && isPort port && (!host.isEmpty || (port.isEmpty && !user))

/-- Whether a text may stand behind the colon of a file URL. -/
def isFile (cs : List Char) : Bool :=
  match cs with
  | a :: b :: rest =>
    if endsAuthority true a && endsAuthority true b && a ≠ '?' && a ≠ '#' && b ≠ '?' && b ≠ '#' then
      let host := rest.takeWhile fun c => !endsAuthority true c
      match host with
      | [] => true
      | [letter, mark] => (letter.isAlpha && (mark = ':' || mark = '|')) || isWebHost host
      | host => isWebHost host
    else true
  | _ => true

/-- Whether a text is an absolute URL. -/
def isUrl (s : String) : Bool :=
  match scheme? (clean s) with
  | none => false
  | some (scheme, rest) =>
    if webSchemes.contains scheme then hasAuthority true (rest.dropWhile fun c => c = '/' || c = '\\')
    else if scheme = "file" then isFile rest
    else
      match rest with
      | '/' :: '/' :: rest => hasAuthority false rest
      | _ => true

end Url

end MergedMining
