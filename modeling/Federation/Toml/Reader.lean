import Federation.Json.Reader
import Federation.Time.Instant
import Federation.Toml.Basic

/-!
# Reading TOML

Files by TOML 1.0. A reader of a part returns the part and the rest of the text, and nothing when
the text is not well formed there.
-/

namespace Federation.Toml

def isSpace (c : Char) : Bool := c == ' ' || c == '\t'

def skipSpace (text : List Char) : List Char := text.dropWhile isSpace

def isControl (c : Char) : Bool := (c.toNat < 0x20 && c != '\t') || c.toNat == 0x7F

def readNewline : List Char → Option (List Char)
  | '\n' :: rest => some rest
  | '\r' :: '\n' :: rest => some rest
  | _ => none

/-- A comment up to the end of its line, if there is one. -/
def skipComment : List Char → Option (List Char)
  | '#' :: rest =>
    let body := rest.takeWhile fun c => c != '\n' && c != '\r'
    if body.any isControl then none else some (rest.drop body.length)
  | rest => some rest

/-- Blanks, a comment, and the end of the line or of the file. -/
def readLineEnd (text : List Char) : Option (List Char) := do
  match ← skipComment (skipSpace text) with
  | [] => some []
  | rest => readNewline rest

/-- Blanks, comments and line ends, as they may stand between the items of an array. -/
def skipLines : Nat → List Char → Option (List Char)
  | 0, _ => none
  | fuel + 1, text => do
    let rest ← skipComment (skipSpace text)
    match readNewline rest with
    | some rest => skipLines fuel rest
    | none => some rest

def hexNumber (digits : List Char) : Option Nat :=
  digits.foldlM (fun n c => (Document.hexValue? c).map fun d => 16 * n + d) 0

/-- The character that an escape stands for; the backslash has been taken. -/
def readEscape : List Char → Option (Char × List Char)
  | 'b' :: rest => some ('\x08', rest)
  | 't' :: rest => some ('\t', rest)
  | 'n' :: rest => some ('\n', rest)
  | 'f' :: rest => some ('\x0c', rest)
  | 'r' :: rest => some ('\r', rest)
  | '"' :: rest => some ('"', rest)
  | '\\' :: rest => some ('\\', rest)
  | c :: rest =>
    let width := if c == 'u' then 4 else if c == 'U' then 8 else 0
    if width == 0 || rest.length < width then none
    else do
      let n ← hexNumber (rest.take width)
      if n.isValidChar then some (Char.ofNat n, rest.drop width) else none
  | [] => none

/-- A string on one line after its opening quote. -/
def readBasic : Nat → List Char → Option (List Char × List Char)
  | 0, _ => none
  | fuel + 1, text =>
    match text with
    | '"' :: rest => some ([], rest)
    | '\\' :: rest => do
      let (c, rest) ← readEscape rest
      let (cs, rest) ← readBasic fuel rest
      some (c :: cs, rest)
    | c :: rest =>
      if isControl c then none
      else do
        let (cs, rest) ← readBasic fuel rest
        some (c :: cs, rest)
    | [] => none

def readLiteral (text : List Char) : Option (List Char × List Char) :=
  let body := text.takeWhile (· != '\'')
  if body.any isControl || body.length == text.length then none
  else some (body, text.drop (body.length + 1))

def skipBlankLines (text : List Char) : List Char :=
  text.dropWhile fun c => isSpace c || c == '\n' || c == '\r'

/-- A string over several lines after its opening quotes. The text may end in up to two quotes of
its own. -/
def readMultiBasic : Nat → List Char → Option (List Char × List Char)
  | 0, _ => none
  | fuel + 1, text =>
    match text with
    | '"' :: '"' :: '"' :: '"' :: '"' :: rest => some (['"', '"'], rest)
    | '"' :: '"' :: '"' :: '"' :: rest => some (['"'], rest)
    | '"' :: '"' :: '"' :: rest => some ([], rest)
    | '\\' :: rest =>
      match readNewline (skipSpace rest) with
      | some rest => readMultiBasic fuel (skipBlankLines rest)
      | none => do
        let (c, rest) ← readEscape rest
        let (cs, rest) ← readMultiBasic fuel rest
        some (c :: cs, rest)
    | c :: rest =>
      match readNewline text with
      | some rest => do
        let (cs, rest) ← readMultiBasic fuel rest
        some ('\n' :: cs, rest)
      | none =>
        if isControl c then none
        else do
          let (cs, rest) ← readMultiBasic fuel rest
          some (c :: cs, rest)
    | [] => none

def readMultiLiteral : Nat → List Char → Option (List Char × List Char)
  | 0, _ => none
  | fuel + 1, text =>
    match text with
    | '\'' :: '\'' :: '\'' :: '\'' :: '\'' :: rest => some (['\'', '\''], rest)
    | '\'' :: '\'' :: '\'' :: '\'' :: rest => some (['\''], rest)
    | '\'' :: '\'' :: '\'' :: rest => some ([], rest)
    | c :: rest =>
      match readNewline text with
      | some rest => do
        let (cs, rest) ← readMultiLiteral fuel rest
        some ('\n' :: cs, rest)
      | none =>
        if isControl c then none
        else do
          let (cs, rest) ← readMultiLiteral fuel rest
          some (c :: cs, rest)
    | [] => none

/-- A line end right after the opening quotes does not belong to the string. -/
def dropFirstNewline (text : List Char) : List Char := (readNewline text).getD text

def readString (text : List Char) : Option (List Char × List Char) :=
  let fuel := text.length + 1
  match text with
  | '"' :: '"' :: '"' :: rest => readMultiBasic fuel (dropFirstNewline rest)
  | '\'' :: '\'' :: '\'' :: rest => readMultiLiteral fuel (dropFirstNewline rest)
  | '"' :: rest => readBasic fuel rest
  | '\'' :: rest => readLiteral rest
  | _ => none

def isBare (c : Char) : Bool := c.isAlphanum || c == '_' || c == '-'

def readSimpleKey (text : List Char) : Option (String × List Char) :=
  match text with
  | '"' :: rest => (readBasic (rest.length + 1) rest).map fun (k, r) => (String.ofList k, r)
  | '\'' :: rest => (readLiteral rest).map fun (k, r) => (String.ofList k, r)
  | _ =>
    let key := text.takeWhile isBare
    if key.isEmpty then none else some (String.ofList key, text.drop key.length)

/-- Keys with points between them, and the blanks around them. -/
def readKey : Nat → List Char → Option (List String × List Char)
  | 0, _ => none
  | fuel + 1, text => do
    let (key, rest) ← readSimpleKey (skipSpace text)
    match skipSpace rest with
    | '.' :: rest => do
      let (keys, rest) ← readKey fuel rest
      some (key :: keys, rest)
    | rest => some ([key], rest)

/-- Digits of which no two neighbours are separated by more than one underscore. -/
def readDigits (ok : Char → Bool) (text : List Char) : Option (List Char × List Char) :=
  let body := text.takeWhile fun c => ok c || c == '_'
  let parts := (String.ofList body).splitOn "_"
  if body.isEmpty || parts.any String.isEmpty then none
  else some (body.filter (· != '_'), text.drop body.length)

def isInt64 (n : Int) : Bool := -9223372036854775808 ≤ n && n < 9223372036854775808

def natOf (base : Nat) (digits : List Char) : Nat :=
  digits.foldl (fun n c => base * n + (Document.hexValue? c).getD 0) 0

/-- Hexadecimal, octal and binary integers, which take no sign. -/
def readRadix (text : List Char) : Option (Toml × List Char) :=
  let take := fun base (ok : Char → Bool) rest => do
    let (digits, rest) ← readDigits ok rest
    let n : Int := natOf base digits
    if isInt64 n then some (Toml.integer n, rest) else none
  match text with
  | '0' :: 'x' :: rest => take 16 (fun c => (Document.hexValue? c).isSome) rest
  | '0' :: 'o' :: rest => take 8 (fun c => '0' ≤ c && c ≤ '7') rest
  | '0' :: 'b' :: rest => take 2 (fun c => c == '0' || c == '1') rest
  | _ => none

def infinity : Float := 1.0 / 0.0

def readSign : List Char → Bool × List Char
  | '-' :: rest => (true, rest)
  | '+' :: rest => (false, rest)
  | rest => (false, rest)

def readFraction : List Char → Option (Option (List Char) × List Char)
  | '.' :: rest => (readDigits Char.isDigit rest).map fun (ds, r) => (some ds, r)
  | rest => some (none, rest)

def readPower : List Char → Option (Option Int × List Char)
  | 'e' :: rest | 'E' :: rest => do
    let (negative, rest) := readSign rest
    let (digits, rest) ← readDigits Char.isDigit rest
    let n : Int := natOf 10 digits
    some (some (if negative then -n else n), rest)
  | rest => some (none, rest)

/-- A decimal integer or a float; a float is the nearest double and may not overflow. -/
def readDecimal (text : List Char) : Option (Toml × List Char) := do
  let (negative, rest) := readSign text
  match rest with
  | 'i' :: 'n' :: 'f' :: rest =>
    some (.float (.ofFloat (if negative then -infinity else infinity)), rest)
  | 'n' :: 'a' :: 'n' :: rest => some (.float (.ofFloat (0.0 / 0.0)), rest)
  | _ =>
    let (whole, rest) ← readDigits Char.isDigit rest
    if 1 < whole.length && whole.head? == some '0' then none
    else
      let (fraction, rest) ← readFraction rest
      let (power, rest) ← readPower rest
      if fraction.isNone && power.isNone then
        let n : Int := natOf 10 whole
        let n := if negative then -n else n
        if isInt64 n then some (.integer n, rest) else none
      else
        let fraction := fraction.getD []
        let mantissa := natOf 10 (whole ++ fraction)
        let exponent := power.getD 0 - fraction.length
        let x :=
          if exponent < -100000 then 0.0
          else if mantissa == 0 then 0.0
          else if 100000 < exponent then infinity
          else if exponent < 0 then Float.ofScientific mantissa true exponent.natAbs
          else Float.ofScientific mantissa false exponent.natAbs
        if x.isInf then none else some (.float (.ofFloat (if negative then -x else x)), rest)

def twoDigits : List Char → Option (Nat × List Char)
  | a :: b :: rest => if a.isDigit && b.isDigit then some (natOf 10 [a, b], rest) else none
  | _ => none

def readDate (text : List Char) : Option (List Char) := do
  let year := text.take 4
  let '-' :: rest := text.drop 4 | none
  let (month, rest) ← twoDigits rest
  let '-' :: rest := rest | none
  let (day, rest) ← twoDigits rest
  if year.length == 4 && year.all Char.isDigit && 1 ≤ month && month ≤ 12 && 1 ≤ day &&
    day ≤ CivilDate.daysIn (natOf 10 year : Int) month then some rest else none

def readTime (text : List Char) : Option (List Char) := do
  let (hour, rest) ← twoDigits text
  let ':' :: rest := rest | none
  let (minute, rest) ← twoDigits rest
  let ':' :: rest := rest | none
  let (second, rest) ← twoDigits rest
  if 24 ≤ hour || 60 ≤ minute || 61 ≤ second then none
  else
    match rest with
    | '.' :: rest =>
      let digits := rest.takeWhile Char.isDigit
      if digits.isEmpty then none else some (rest.drop digits.length)
    | rest => some rest

def readOffset : List Char → Option (List Char)
  | 'Z' :: rest | 'z' :: rest => some rest
  | '+' :: rest | '-' :: rest => do
    let (hour, rest) ← twoDigits rest
    let ':' :: rest := rest | none
    let (minute, rest) ← twoDigits rest
    if 24 ≤ hour || 60 ≤ minute then none else some rest
  | rest => some rest

/-- Whether digits of a date or of a time stand at the front. -/
def startsDateTime (text : List Char) : Bool :=
  let digits := text.takeWhile Char.isDigit
  match digits.length, text.drop digits.length with
  | 4, '-' :: _ => true
  | 2, ':' :: _ => true
  | _, _ => false

def readDateTime (text : List Char) : Option (Toml × List Char) := do
  let rest ← match (text.takeWhile Char.isDigit).length with
    | 2 => readTime text
    | _ => do
      let rest ← readDate text
      match rest with
      | 'T' :: rest | 't' :: rest => readTime rest >>= readOffset
      | ' ' :: c :: rest' =>
        if c.isDigit then readTime (c :: rest') >>= readOffset else some rest
      | rest => some rest
  some (.dateTime (String.ofList (text.take (text.length - rest.length))), rest)

/-- Arrays and inline tables may be nested this deep. -/
def maxDepth : Nat := 80

mutual
def readValue : Nat → Nat → List Char → Option (Toml × List Char)
  | 0, _, _ => none
  | fuel + 1, depth, text =>
    match text with
    | '[' :: rest =>
      if maxDepth ≤ depth then none
      else (readItems fuel (depth + 1) rest).map fun (items, rest) => (.array items, rest)
    | '\x7b' :: rest =>
      if maxDepth ≤ depth then none
      else do
        let (entries, rest) ← match skipSpace rest with
          | '\x7d' :: rest => some ([], rest)
          | rest => readPairs fuel (depth + 1) [] rest
        some (.table (entriesToToml entries), rest)
    | 't' :: 'r' :: 'u' :: 'e' :: rest => some (.boolean true, rest)
    | 'f' :: 'a' :: 'l' :: 's' :: 'e' :: rest => some (.boolean false, rest)
    | '"' :: _ | '\'' :: _ => (readString text).map fun (s, rest) => (.string (String.ofList s), rest)
    | _ =>
      if startsDateTime text then readDateTime text
      else
        match text with
        | '0' :: 'x' :: _ | '0' :: 'o' :: _ | '0' :: 'b' :: _ => readRadix text
        | _ => readDecimal text
def readItems : Nat → Nat → List Char → Option (List Toml × List Char)
  | 0, _, _ => none
  | fuel + 1, depth, text => do
    match ← skipLines (text.length + 1) text with
    | ']' :: rest => some ([], rest)
    | rest => do
      let (item, rest) ← readValue fuel depth rest
      match ← skipLines (rest.length + 1) rest with
      | ',' :: rest => do
        let (items, rest) ← readItems fuel depth rest
        some (item :: items, rest)
      | ']' :: rest => some ([item], rest)
      | _ => none
def readPairs : Nat → Nat → Entries → List Char → Option (Entries × List Char)
  | 0, _, _, _ => none
  | fuel + 1, depth, entries, text => do
    let (path, rest) ← readKey (text.length + 1) text
    let '=' :: rest := rest | none
    let (value, rest) ← readValue fuel depth (skipSpace rest)
    let entries ← Entries.assign path.dropLast (path.getLast?.getD "") value entries
    match skipSpace rest with
    | ',' :: rest => readPairs fuel depth entries rest
    | '\x7d' :: rest => some (entries, rest)
    | _ => none
end

/-- What has been read: all tables, and the path of the one that is open. -/
structure File where
  entries : Entries := []
  path : List String := []

def File.assign (file : File) (path : List String) (value : Toml) : Option File := do
  let key := path.getLast?.getD ""
  let entries ← Entries.modifyAt false (fun _ inner => Entries.assign path.dropLast key value inner)
    file.path .header file.entries
  some { file with entries }

def readStatement (file : File) (text : List Char) : Option (File × List Char) :=
  match text with
  | '[' :: '[' :: rest => do
    let (path, rest) ← readKey (rest.length + 1) rest
    let ']' :: ']' :: rest := rest | none
    let rest ← readLineEnd rest
    let entries ← file.entries.openItem path.dropLast (path.getLast?.getD "")
    some (⟨entries, path⟩, rest)
  | '[' :: rest => do
    let (path, rest) ← readKey (rest.length + 1) rest
    let ']' :: rest := rest | none
    let rest ← readLineEnd rest
    let entries ← file.entries.openTable path.dropLast (path.getLast?.getD "")
    some (⟨entries, path⟩, rest)
  | _ => do
    let (path, rest) ← readKey (text.length + 1) text
    let '=' :: rest := rest | none
    let (value, rest) ← readValue (2 * rest.length + 2) 0 (skipSpace rest)
    let rest ← readLineEnd rest
    let file ← file.assign path value
    some (file, rest)

def readFile : Nat → File → List Char → Option File
  | 0, _, _ => none
  | fuel + 1, file, text =>
    match skipSpace text with
    | [] => some file
    | '#' :: _ | '\n' :: _ | '\r' :: _ => do
      let rest ← readLineEnd text
      readFile fuel file rest
    | rest => do
      let (file, rest) ← readStatement file rest
      readFile fuel file rest

def read? (text : String) : Option Toml := do
  let cs := match text.toList with
    | '\ufeff' :: rest => rest
    | cs => cs
  let file ← readFile (cs.length + 1) {} cs
  some (.table (entriesToToml file.entries))

end Federation.Toml
