import Federation.Text.Blank
import Federation.Text.Split
import Federation.Text.Upper

/-!
# Locators

Reading a URL as far as it decides whether an endpoint can be used: its scheme, host and port. Paths,
queries and fragments are always taken. Hosts outside ASCII are kept as they are written.
-/

namespace Federation

inductive UrlError where
  | emptyHost
  | invalidDomain
  | invalidPort
  | invalidIpv4
  | invalidIpv6
  | invalidCharacter
  | relative
  deriving DecidableEq, Repr

def UrlError.message : UrlError → String
  | .emptyHost => "empty host"
  | .invalidDomain => "invalid international domain name"
  | .invalidPort => "invalid port number"
  | .invalidIpv4 => "invalid IPv4 address"
  | .invalidIpv6 => "invalid IPv6 address"
  | .invalidCharacter => "invalid domain character"
  | .relative => "relative URL without a base"

structure Url where
  scheme : String
  host : Option String
  port : Option Nat
  deriving DecidableEq, Repr

namespace Url

def isHexDigit (c : Char) : Bool := c.isDigit || ('a' ≤ c && c ≤ 'f') || ('A' ≤ c && c ≤ 'F')

def digitValue (c : Char) : Nat :=
  if c.isDigit then c.toNat - '0'.toNat else c.toLower.toNat - 'a'.toNat + 10

def valueIn (base : Nat) (digits : List Char) : Nat :=
  digits.foldl (fun n c => base * n + digitValue c) 0

/-- One part of a dotted address: decimal, octal after `0`, hexadecimal after `0x`. -/
def ipv4Part? (part : List Char) : Option Nat :=
  let take := fun base (ok : Char → Bool) (digits : List Char) =>
    if digits.all ok then some (valueIn base digits) else none
  match part with
  | [] => none
  | '0' :: 'x' :: rest | '0' :: 'X' :: rest => take 16 isHexDigit rest
  | '0' :: c :: rest => take 8 (fun d => '0' ≤ d && d ≤ '7') (c :: rest)
  | digits => take 10 Char.isDigit digits

/-- The parts between the points, without an empty one at the end. -/
def dottedParts (host : List Char) : List (List Char) :=
  let parts := Text.splitAtEach '.' host
  if parts.length > 1 && parts.getLast? == some [] then parts.dropLast else parts

def endsInNumber (host : List Char) : Bool :=
  match (dottedParts host).getLast? with
  | none => false
  | some last => (!last.isEmpty && last.all Char.isDigit) || (ipv4Part? last).isSome

/-- The last part fills the bytes that the others leave. -/
def ipv4? (host : List Char) : Option Nat := do
  let parts := dottedParts host
  if 4 < parts.length then none
  else
    let numbers ← parts.mapM ipv4Part?
    let last ← numbers.getLast?
    let front := numbers.dropLast
    if last < 1 <<< (8 * (4 - front.length)) && front.all (· < 256) then
      some (front.zipIdx.foldl (fun sum (n, i) => sum + n <<< (8 * (3 - i))) last)
    else none

def ipv4Text (address : Nat) : String :=
  ".".intercalate ([3, 2, 1, 0].map fun i => toString (address >>> (8 * i) % 256))

/-- A group of one to four hexadecimal digits. -/
def ipv6Group? (group : List Char) : Option (List Nat) :=
  if !group.isEmpty && group.length ≤ 4 && group.all isHexDigit then some [valueIn 16 group]
  else none

/-- Four decimal numbers below 256 without leading zeros, as two groups. -/
def ipv6Tail? (group : List Char) : Option (List Nat) := do
  let parts := Text.splitAtEach '.' group
  if parts.length ≠ 4 then none
  else
    let numbers ← parts.mapM fun part =>
      if part.isEmpty || !part.all Char.isDigit || (part.length > 1 && part.head? == some '0') then none
      else some (valueIn 10 part)
    if numbers.all (· < 256) then
      match numbers with
      | [a, b, c, d] => some [256 * a + b, 256 * c + d]
      | _ => none
    else none

def ipv6Groups? (tailAllowed : Bool) (text : List Char) : Option (List Nat) :=
  if text.isEmpty then some []
  else
    let groups := Text.splitAtEach ':' text
    let front := (groups.dropLast.mapM ipv6Group?).map List.flatten
    match groups.getLast? with
    | none => none
    | some last => do
      let front ← front
      let back ← (ipv6Group? last).orElse fun _ => if tailAllowed then ipv6Tail? last else none
      some (front ++ back)

/-- Eight groups; one pair of colons may stand for a group of zeros or more. -/
def ipv6? (text : List Char) : Option (List Nat) :=
  match Text.splitOnceAt [':', ':'] text with
  | none => (ipv6Groups? true text).filter (·.length == 8)
  | some (before, after) => do
    let front ← ipv6Groups? false before
    let back ← ipv6Groups? true after
    let missing := 8 - (front.length + back.length)
    if front.length + back.length ≤ 7 then some (front ++ List.replicate missing 0 ++ back)
    else none

/-- Where the first of the longest runs of zeros starts and how long it is. -/
def longestZeros (groups : List Nat) : Nat × Nat :=
  let runs := (List.range groups.length).map fun i =>
    (i, ((groups.drop i).takeWhile (· == 0)).length)
  runs.foldl (fun best run => if best.2 < run.2 then run else best) (0, 0)

def ipv6Text (groups : List Nat) : String :=
  let text := fun gs => ":".intercalate (gs.map fun g => String.ofList (Nat.toDigits 16 g))
  let (start, length) := longestZeros groups
  let body :=
    if length < 2 then text groups
    else text (groups.take start) ++ "::" ++ text (groups.drop (start + length))
  "[" ++ body ++ "]"

/-- Bytes given by two hexadecimal digits after a percent sign. -/
def percentDecode : List Char → List UInt8
  | '%' :: a :: b :: rest =>
    if isHexDigit a && isHexDigit b then
      UInt8.ofNat (16 * digitValue a + digitValue b) :: percentDecode rest
    else '%'.toUInt8 :: percentDecode (a :: b :: rest)
  | c :: rest => (String.singleton c).toUTF8.toList ++ percentDecode rest
  | [] => []

def forbiddenInDomain : List Char :=
  [' ', '"', '#', '%', '/', ':', '<', '>', '?', '@', '[', '\\', ']', '^', Char.ofNat 0x60, '\x7b',
   '|', '\x7d', '\x7f']

def forbiddenInOpaque : List Char :=
  ['\x00', '\t', '\n', '\r', ' ', '#', '/', ':', '<', '>', '?', '@', '[', '\\', ']', '^', '|']

def bracketed (host : List Char) : Except UrlError String :=
  if host.getLast? ≠ some ']' then .error .invalidIpv6
  else
    match ipv6? (host.drop 1).dropLast with
    | some groups => .ok (ipv6Text groups)
    | none => .error .invalidIpv6

def readHost (host : List Char) : Except UrlError String :=
  if host.head? = some '[' then bracketed host
  else
    match String.fromUTF8? (ByteArray.mk (percentDecode host).toArray) with
    | none => .error .invalidDomain
    | some domain =>
      let cs := (Text.lowerAscii domain).toList
      if cs.any fun c => c.toNat < 0x20 || forbiddenInDomain.contains c then .error .invalidDomain
      else if cs.isEmpty then .error .emptyHost
      else if endsInNumber cs then
        match ipv4? cs with
        | some address => .ok (ipv4Text address)
        | none => .error .invalidIpv4
      else .ok (String.ofList cs)

def readOpaqueHost (host : List Char) : Except UrlError String :=
  if host.head? = some '[' then bracketed host
  else if host.any forbiddenInOpaque.contains then .error .invalidCharacter
  else .ok (String.ofList host)

/-- Decimal digits below `2 ^ 16`, up to the path. -/
def readPort (text : List Char) : Except UrlError (Option Nat) :=
  let port := text.takeWhile fun c => !(['/', '\\', '?', '#'].contains c)
  if !port.all Char.isDigit then .error .invalidPort
  else if 65536 ≤ valueIn 10 port then .error .invalidPort
  else .ok (if port.isEmpty then none else some (valueIn 10 port))

/-- The characters of the host: brackets shield colons. -/
def hostPart (special : Bool) : Bool → List Char → List Char
  | _, [] => []
  | inside, c :: rest =>
    if (c = ':' && !inside) || (c = '\\' && special) || c = '/' || c = '?' || c = '#' then []
    else c :: hostPart special (if c = '[' then true else if c = ']' then false else inside) rest

/-- What follows the last at sign of the authority; the flag says whether anything stood before. -/
def dropUserInfo (special : Bool) (text : List Char) : Except UrlError (Bool × List Char) :=
  let ends := fun c => c = '/' || c = '?' || c = '#' || (c = '\\' && special)
  let authority := text.takeWhile fun c => !ends c
  if !authority.contains '@' then .ok (false, text)
  else
    let host := (authority.reverse.takeWhile (· ≠ '@')).length
    let rest := text.drop (authority.length - host)
    if authority.length - host = 1 && host = 0 && !rest.isEmpty then .error .emptyHost
    else .ok (1 < authority.length - host, rest)

def readAuthority (scheme : String) (special : Bool) (text : List Char) : Except UrlError Url := do
  let (hasUser, rest) ← dropUserInfo special text
  let hostText := hostPart special false rest
  let after := rest.drop hostText.length
  if special && hostText.isEmpty then .error .emptyHost
  else
    let host ← if special then readHost hostText else readOpaqueHost hostText
    if host = "" && (hasUser || after.head? = some ':') then .error .emptyHost
    else
      let port ← if after.head? = some ':' then readPort (after.drop 1) else .ok none
      .ok ⟨scheme, if host = "" then none else some host, port⟩

/-- A letter and a colon or bar, which names a drive and no host. -/
def isDrive (host : List Char) : Bool :=
  match host with
  | [letter, mark] => letter.isAlpha && (mark = ':' || mark = '|')
  | _ => false

def readFile (text : List Char) : Except UrlError Url :=
  let isSlash := fun c => c = '/' || c = '\\'
  if (text.take 2).all isSlash && 2 ≤ text.length then do
    let host := (text.drop 2).takeWhile fun c => !(isSlash c || c = '?' || c = '#')
    if host.isEmpty || isDrive host then .ok ⟨"file", none, none⟩
    else do
      let host ← readHost host
      .ok ⟨"file", if host = "localhost" then none else some host, none⟩
  else .ok ⟨"file", none, none⟩

/-- The scheme in lower case, and what follows the colon. -/
def readScheme (text : List Char) : Option (String × List Char) := do
  let (scheme, rest) ← Text.splitOnce ':' text
  let first ← scheme.head?
  if first.isAlpha && scheme.all fun c => c.isAlphanum || c = '+' || c = '-' || c = '.' then
    some (String.ofList (scheme.map Char.toLower), rest)
  else none

/-- The schemes whose locators always have a host, however many slashes stand before it. -/
def specialSchemes : List String := ["http", "https", "ws", "wss", "ftp"]

def isEdge (c : Char) : Bool := c.toNat ≤ 0x20

def read (text : String) : Except UrlError Url :=
  let trimmed := ((text.toList.dropWhile isEdge).reverse.dropWhile isEdge).reverse
  let cleaned := trimmed.filter fun c => c ≠ '\t' && c ≠ '\n' && c ≠ '\r'
  match readScheme cleaned with
  | none => .error .relative
  | some (scheme, rest) =>
    if scheme = "file" then readFile rest
    else if specialSchemes.contains scheme then
      readAuthority scheme true (rest.dropWhile fun c => c = '/' || c = '\\')
    else
      match rest with
      | '/' :: '/' :: rest => readAuthority scheme false rest
      | _ => .ok ⟨scheme, none, none⟩

end Url

end Federation
