import Federation.Number.Shortest
import Federation.Json.Printer

/-!
# Writing TOML

An object is written as a file: its plain values first, then its objects and lists of objects under
headers of their own, each after a blank line. `null` members are left out. Texts are quoted so that
they stay readable: literally if that spares escapes, over several lines if they have several.
-/

namespace Federation.Toml

/-- The longest run of apostrophes that does not end the text, and the run that does. -/
def apostrophes (text : List Char) : Nat × Nat :=
  text.foldl (fun (longest, run) c =>
    if c == '\'' then (longest, run + 1) else (max longest run, 0)) (0, 0)

def needsEscape (c : Char) : Bool :=
  (c.toNat < 0x20 && c != '\t' && c != '\n') || c.toNat == 0x7F

def hexUpper (width n : Nat) : List Char :=
  let digits := (Nat.toDigits 16 n).map Char.toUpper
  List.replicate (width - digits.length) '0' ++ digits

def escapeChar (multiline : Bool) (c : Char) : List Char :=
  match c with
  | '\x08' => ['\\', 'b']
  | '\t' => ['\\', 't']
  | '\n' => if multiline then ['\n'] else ['\\', 'n']
  | '\x0c' => ['\\', 'f']
  | '\r' => ['\\', 'r']
  | '"' => ['\\', '"']
  | '\\' => ['\\', '\\']
  | c => if needsEscape c then '\\' :: 'u' :: hexUpper 4 c.toNat else [c]

def quote (s : String) : List Char :=
  let text := s.toList
  let multiline := text.contains '\n'
  let (longest, last) := apostrophes text
  let literal := (text.contains '"' || text.contains '\\') && !text.any needsEscape &&
    longest < 3 && last == 0
  let mark := if literal then '\'' else '"'
  let wide := multiline || (literal && 0 < longest)
  let fence := if wide then [mark, mark, mark] else [mark]
  let first := if multiline then ['\n'] else []
  let body := if literal then text else text.flatMap (escapeChar multiline)
  fence ++ first ++ body ++ fence

/-- All digits and a point, without an exponent. -/
def floatText (d : Double) : List Char :=
  let sign := if d.isNegative then ['-'] else []
  if !d.isFinite then sign ++ (if d.fraction == 0 then ['i', 'n', 'f'] else ['n', 'a', 'n'])
  else
    let shortest := d.shortest
    let digits := Nat.toDigits 10 shortest.digits
    let point : Int := digits.length + shortest.exponent
    sign ++
      if 0 ≤ shortest.exponent then
        digits ++ List.replicate shortest.exponent.toNat '0' ++ ['.', '0']
      else if 0 < point then digits.take point.toNat ++ '.' :: digits.drop point.toNat
      else '0' :: '.' :: List.replicate point.natAbs '0' ++ digits

def isObject : Document → Bool
  | .object _ => true
  | _ => false

/-- Objects, and lists of objects that are not empty, get headers. -/
def hasHeader : Document → Bool
  | .object _ => true
  | .array items => !items.isEmpty && items.all isObject
  | _ => false

def isNull : Document → Bool
  | .null | .unreadable _ => true
  | _ => false

mutual
/-- A value on the right of an equals sign; integers beyond 64 bits with sign cannot be written. -/
def writeValue : Document → Except String (List Char)
  | .null | .unreadable _ => .ok []
  | .bool b => .ok (if b then ['t', 'r', 'u', 'e'] else ['f', 'a', 'l', 's', 'e'])
  | .number (.int n) =>
    if n < 9223372036854775808 then .ok (Number.int n).render
    else .error "out-of-range value for u64 type"
  | .number (.real d) => .ok (floatText d)
  | .string s => .ok (quote s)
  | .array [] => .ok ['[', ']']
  | .array [d] => (writeValue d).map fun t => '[' :: t ++ [']']
  | .array items => (writeItems items).map fun t => '[' :: '\n' :: t ++ [']']
  | .object _ => .ok ['\x7b', '\x7d']
def writeItems : List Document → Except String (List Char)
  | [] => .ok []
  | d :: rest => do
    let first ← writeValue d
    let others ← writeItems rest
    .ok ([' ', ' ', ' ', ' '] ++ first ++ [',', '\n'] ++ others)
end

def writePairs : List (String × Document) → Except String (List Char)
  | [] => .ok []
  | (name, d) :: rest => do
    let others ← writePairs rest
    if isNull d || hasHeader d then .ok others
    else
      let value ← writeValue d
      .ok (name.toList ++ [' ', '=', ' '] ++ value ++ '\n' :: others)

mutual
/-- The parts of a file, which blank lines separate: a table with its own pairs, then the tables
inside it. -/
def writeTable (path : String) (open_ close : String) :
    Document → Except String (List (List Char))
  | .object members => do
    let pairs ← writePairs members
    let inner ← writeInner path members
    let header := if path.isEmpty then [] else (open_ ++ path ++ close ++ "\n").toList
    let own := header ++ pairs
    let silent := own.isEmpty || (!path.isEmpty && pairs.isEmpty && !inner.isEmpty && open_ == "[")
    .ok (if silent then inner else own :: inner)
  | _ => .ok []
def writeInner (path : String) : List (String × Document) → Except String (List (List Char))
  | [] => .ok []
  | (name, d) :: rest => do
    let path' := if path.isEmpty then name else path ++ "." ++ name
    let first ← match d with
      | .object members => writeTable path' "[" "]" (.object members)
      | .array items => if hasHeader (.array items) then writeEach path' items else .ok []
      | _ => .ok []
    let others ← writeInner path rest
    .ok (first ++ others)
def writeEach (path : String) : List Document → Except String (List (List Char))
  | [] => .ok []
  | d :: rest => do
    let first ← writeTable path "[[" "]]" d
    let others ← writeEach path rest
    .ok (first ++ others)
end

def write (document : Document) : Except String String := do
  let parts ← writeTable "" "" "" document
  .ok (String.ofList (['\n'].intercalate parts))

end Federation.Toml
