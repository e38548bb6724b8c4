import Federation.Json.Coded
import Federation.Text.Upper
import Federation.Text.Utf8
import Federation.Url

/-!
# Requests and responses

The parts of a request that the job surface looks at: the path, the query, the media type and the
body.
-/

namespace Federation.Http

structure Request where
  method : String := "GET"
  uri : String
  contentType : Option String := none
  body : String := ""
  deriving DecidableEq, Repr

inductive Body where
  | empty
  | text (message : String)
  | json (document : Document)
  deriving Repr

structure Response where
  status : Nat
  body : Body := .empty
  deriving Repr

namespace Request

/-- The path and the query; a fragment is neither. -/
def target (request : Request) : List Char × List Char :=
  let text := request.uri.toList.takeWhile (· ≠ '#')
  match Text.splitOnceAt [':', '/', '/'] (text.takeWhile (· ≠ '?')) with
  | some (_, rest) =>
    let path := rest.dropWhile (· ≠ '/')
    (if path.isEmpty then ['/'] else path, (text.dropWhile (· ≠ '?')).drop 1)
  | none => (text.takeWhile (· ≠ '?'), (text.dropWhile (· ≠ '?')).drop 1)

def path (request : Request) : List Char := request.target.1

end Request

/-- Plus signs stand for blanks, and what is no text is replaced. -/
def formDecode (text : List Char) : String :=
  Text.ofUtf8 (Url.percentDecode (text.map fun c => if c = '+' then ' ' else c))

/-- The parameters of a query, sorted; of a repeated name the last one counts. -/
def parameters (query : List Char) : List (String × String) :=
  let parts := (Text.splitAtEach '&' query).filter fun part => !part.isEmpty
  sortMembers (parts.map fun part =>
    match Text.splitOnce '=' part with
    | some (name, value) => (formDecode name, formDecode value)
    | none => (formDecode part, ""))

/-! Media types -/

def isToken (c : Char) : Bool :=
  c.isAlphanum || (c.toNat = 0x60) ||
    ['!', '#', '$', '%', '&', '\'', '*', '+', '-', '.', '^', '_', '|', '~'].contains c

/-- A parameter of a media type, blanks before it. -/
def isMediaParameter (text : List Char) : Bool :=
  match Text.splitOnce '=' (text.dropWhile (· == ' ')) with
  | none => false
  | some (name, value) =>
    !name.isEmpty && name.all isToken &&
      match value with
      | '"' :: quoted => quoted.getLast? == some '"'
      | plain => plain.all isToken

/-- The subtype and, after the last plus sign, the suffix. -/
def splitSuffix (text : List Char) : List Char × Option (List Char) :=
  match Text.splitOnce '+' (text.drop 1).reverse with
  | some (suffix, front) => (text.take 1 ++ front.reverse, some suffix.reverse)
  | none => (text, none)

def isJsonMedia (text : String) : Bool :=
  match Text.splitAtEach ';' (Text.lowerAscii text).toList with
  | [] => false
  | essence :: parameters =>
    match Text.splitOnce '/' essence with
    | none => false
    | some (kind, rest) =>
      let (subtype, suffix) := splitSuffix rest
      !rest.isEmpty && kind.all isToken && rest.all isToken && parameters.all isMediaParameter &&
        kind == "application".toList &&
        (subtype == "json".toList || suffix == some "json".toList)

/-! Bodies -/

/-- Reads a JSON body; a refusal is the response to be sent. Its text would go on with what was
found wrong, in which field and where; that is left out here. -/
def readBody [Coded α] (request : Request) : Except Response α :=
  if !request.contentType.any isJsonMedia then
    .error ⟨415, .text "Expected request with `Content-Type: application/json`"⟩
  else
    match Coded.ofText request.body with
    | .ok value => .ok value
    | .error (.unreadable _) => .error ⟨400, .text "Failed to parse the request body as JSON"⟩
    | .error _ => .error ⟨422, .text "Failed to deserialize the JSON body into the target type"⟩

end Federation.Http
