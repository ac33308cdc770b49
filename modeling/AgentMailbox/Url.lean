import AgentMailbox.Exceptions
import Mathlib.Data.List.Infix

/-!
# Splitting a URL

`urlparse` of the standard library, as far as the wire asks it: the scheme, the
network location and the path. Normalisation and the reader of bracketed addresses
enter as a structure; no proof depends on what they answer.
-/
namespace AgentMailbox

/-- What splitting a URL takes from the Unicode character database and from the
reader of IP addresses. -/
structure UrlRules where
  unicode : Unicode
  nfkc : String → String
  /-- Raises for a network location with brackets that do not hold an address. -/
  checkBracketed : String → Except Raised Unit

structure ParseResult where
  scheme : String
  netloc : String
  path : String
  deriving DecidableEq, Repr

namespace Url

/-- Without leading control characters and spaces, and without tabs and line ends. -/
def cleaned (url : List Char) : List Char :=
  (url.dropWhile fun c => c.toNat ≤ 32).filter fun c => !(c = '\t' || c = '\r' || c = '\n')

def isSchemeChar (c : Char) : Bool := c.isAlphanum || c = '+' || c = '-' || c = '.'

/-- The scheme, lower-cased, and what follows its colon. -/
def splitScheme (url : List Char) : String × List Char :=
  let scheme := url.takeWhile (· ≠ ':')
  if url.contains ':' && scheme.head?.any Char.isAlpha && scheme.all isSchemeChar then
    (String.ofList (scheme.map Char.toLower), (url.dropWhile (· ≠ ':')).tail)
  else ("", url)

/-- The network location, and what follows it. -/
def splitNetloc (url : List Char) : List Char × List Char :=
  if ['/', '/'].isPrefixOf url then
    ((url.drop 2).takeWhile (· ∉ ['/', '?', '#']), (url.drop 2).dropWhile (· ∉ ['/', '?', '#']))
  else ([], url)

def checkBrackets (rules : UrlRules) (netloc : List Char) : Except Raised Unit :=
  if netloc.contains '[' ≠ netloc.contains ']' then .error (.valueError "Invalid IPv6 URL")
  else if netloc.contains '[' then rules.checkBracketed (String.ofList netloc)
  else .ok ()

/-- Refuse characters that normalise to a delimiter. -/
def checkNetloc (rules : UrlRules) (netloc : List Char) : Except Raised Unit :=
  let plain := String.ofList (netloc.filter (· ∉ ['@', ':', '#', '?']))
  let normalised := rules.nfkc plain
  if netloc.all (·.toNat < 128) || plain = normalised then .ok ()
  else if normalised.toList.any (· ∈ ['/', '?', '#', '@', ':']) then
    .error (.valueError ("netloc " ++ Text.repr rules.unicode (String.ofList netloc) ++
      " contains invalid characters under NFKC normalization"))
  else .ok ()

/-- `uses_params`. -/
def usesParams : List String :=
  ["", "ftp", "hdl", "prospero", "http", "imap", "https", "shttp", "rtsp", "rtsps", "rtspu",
    "sip", "sips", "mms", "sftp", "tel"]

/-- What follows the last slash. -/
def leaf (path : List Char) : List Char := (path.reverse.takeWhile (· ≠ '/')).reverse

/-- The last segment ends at its first semicolon. -/
def withoutParams (path : List Char) : List Char :=
  path.take (path.length - (leaf path).length) ++ (leaf path).takeWhile (· ≠ ';')

def urlparse (rules : UrlRules) (url : String) : Except Raised ParseResult := do
  let (scheme, url) := splitScheme (cleaned url.toList)
  let (netloc, url) := splitNetloc url
  checkBrackets rules netloc
  let path := (url.takeWhile (· ≠ '#')).takeWhile (· ≠ '?')
  checkNetloc rules netloc
  return {
    scheme
    netloc := String.ofList netloc
    path := String.ofList (if scheme ∈ usesParams then withoutParams path else path) }

end Url

end AgentMailbox
