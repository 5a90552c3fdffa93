import Anoryx.IpAddress
import Anoryx.PyInt

/-!
# Anoryx.UrlSplit

A URL as `urllib.parse.urlsplit` takes it apart: the scheme, the network location and the
fragment, and from the network location the credentials, the host and the port.

`none` is a `ValueError`.  The case and normalization tables of Unicode are parameters.
-/

namespace UrlSplit

open IpAddress (ipAddress isHexDigit ofDigits)

/-- `str.lower` and `unicodedata.normalize('NFKC', ·)`. -/
structure Unicode where
  lower : List Char → List Char
  nfkc : List Char → List Char

/-- The tables on texts of ASCII. -/
def Unicode.ascii : Unicode := ⟨List.map Char.toLower, id⟩

/-! ## parts of a text -/

/-- The text before the first `sep`, all of it when there is none. -/
def before (sep : Char) (text : List Char) : List Char := text.takeWhile (· ≠ sep)

/-- The text after the first `sep`. -/
def after (sep : Char) (text : List Char) : List Char := (text.dropWhile (· ≠ sep)).tail

/-- The text after the last `sep`, all of it when there is none. -/
def afterLast (sep : Char) (text : List Char) : List Char := (before sep text.reverse).reverse

/-- The text before the last `sep`. -/
def beforeLast (sep : Char) (text : List Char) : List Char := (after sep text.reverse).reverse

/-! ## the network location -/

structure SplitResult where
  scheme : List Char
  netloc : List Char
  fragment : List Char

namespace SplitResult

variable (parts : SplitResult)

/-- `_userinfo`, the user name -/
def username : Option (List Char) :=
  if '@' ∈ parts.netloc then some (before ':' (beforeLast '@' parts.netloc)) else none

/-- `_userinfo`, the password -/
def password : Option (List Char) :=
  let userinfo := beforeLast '@' parts.netloc
  if '@' ∈ parts.netloc ∧ ':' ∈ userinfo then some (after ':' userinfo) else none

/-- `_hostinfo`; a port of no characters is none. -/
def hostinfo : List Char × Option (List Char) :=
  let info := afterLast '@' parts.netloc
  let bracketed := after '[' info
  let (hostname, port) :=
    if '[' ∈ info then (before ']' bracketed, after ':' (after ']' bracketed))
    else (before ':' info, after ':' info)
  (hostname, if port = [] then none else some port)

/-- The zone of an address is not lowercased. -/
def hostname (u : Unicode) : Option (List Char) :=
  let host := parts.hostinfo.1
  if host = [] then none else some (u.lower (before '%' host) ++ host.dropWhile (· ≠ '%'))

/-- The port, if the URL names one; a text that is no port raises. -/
def port : Option (Option Nat) :=
  match parts.hostinfo.2 with
  | none => some none
  | some digits =>
      if !digits.all Char.isDigit ∨ digits.length > PyInt.maxStrDigits ∨ ofDigits 10 digits > 65535 then none
      else some (some (ofDigits 10 digits))

end SplitResult

/-! ## the checks of the network location -/

/-- `\Av[a-fA-F0-9]+\..+\Z` -/
def isIpvFuture (hostname : List Char) : Bool :=
  match hostname with
  | 'v' :: version =>
      let rest := version.dropWhile isHexDigit
      version.takeWhile isHexDigit ≠ [] && rest.head? = some '.' && rest.tail ≠ [] && '\n' ∉ rest.tail
  | _ => false

def checkBracketedHost (hostname : List Char) : Bool :=
  if hostname.head? = some 'v' then isIpvFuture hostname
  else
    match ipAddress hostname with
    | some (.v6 _) => true
    | _ => false

def checkBracketedNetloc (netloc : List Char) : Bool :=
  let info := afterLast '@' netloc
  let bracketed := after '[' info
  if '[' ∈ info then
    let port := after ']' bracketed
    before '[' info = [] && (port = [] || port.head? = some ':') && checkBracketedHost (before ']' bracketed)
  else checkBracketedHost (before ':' info)

/-- `_checknetloc`: no separator appears when the text is normalized. -/
def checkNetloc (u : Unicode) (netloc : List Char) : Bool :=
  let plain := netloc.filter (· ∉ ['@', ':', '#', '?'])
  netloc.all (·.toNat < 128) || u.nfkc plain = plain || (u.nfkc plain).all (· ∉ ['/', '?', '#', '@', ':'])

/-! ## splitting -/

def isSchemeChar (c : Char) : Bool := c.isAlphanum || c ∈ ['+', '-', '.']

/-- The scheme and the rest of the URL. -/
def splitScheme (url : List Char) : List Char × List Char :=
  let scheme := before ':' url
  if ':' ∈ url ∧ (url.head?.any Char.isAlpha) ∧ scheme.all isSchemeChar then
    (scheme.map Char.toLower, after ':' url)
  else ([], url)

def isNetlocDelimiter (c : Char) : Bool := c ∈ ['/', '?', '#']

/-- `_splitnetloc` of a URL that starts with two slashes. -/
def splitNetloc (url : List Char) : List Char × List Char :=
  match url with
  | '/' :: '/' :: rest => (rest.takeWhile (!isNetlocDelimiter ·), rest.dropWhile (!isNetlocDelimiter ·))
  | _ => ([], url)

def urlsplit (u : Unicode) (url : List Char) : Option SplitResult :=
  let url := (url.dropWhile (·.toNat ≤ 0x20)).filter (· ∉ ['\t', '\r', '\n'])
  let (scheme, url) := splitScheme url
  let (netloc, url) := splitNetloc url
  if decide ('[' ∈ netloc) ≠ decide (']' ∈ netloc) then none
  else if '[' ∈ netloc ∧ !checkBracketedNetloc netloc then none
  else if !checkNetloc u netloc then none
  else some ⟨scheme, netloc, after '#' url⟩

end UrlSplit
