import Federation.Json.Basic
import Federation.Number.Shortest

/-!
# Writing JSON

No blanks, only the escapes that are needed, members in the order of the document, and for doubles
the fewest digits that read back.
-/

namespace Federation

namespace Number

/-- Decimal exponents of the first digit that are written with plain digits: `1e-5` up to but not
including `1e16`. -/
def plainFrom : Int := -4
def plainTo : Int := 16

def realText (d : Double) : List Char :=
  let sign := if d.isNegative then ['-'] else []
  if d.mantissa = 0 then sign ++ ['0', '.', '0']
  else
    let shortest := d.shortest
    let digits := Nat.toDigits 10 shortest.digits
    let point : Int := digits.length + shortest.exponent
    let body :=
      if 0 ≤ shortest.exponent ∧ point ≤ plainTo then
        digits ++ List.replicate shortest.exponent.toNat '0' ++ ['.', '0']
      else if 0 < point ∧ point ≤ plainTo then
        digits.take point.toNat ++ '.' :: digits.drop point.toNat
      else if plainFrom ≤ point ∧ point ≤ 0 then
        '0' :: '.' :: List.replicate point.natAbs '0' ++ digits
      else
        let power := point - 1
        let mark := (if power < 0 then '-' else '+') :: Nat.toDigits 10 power.natAbs
        match digits with
        | [] => []
        | [first] => first :: 'e' :: mark
        | first :: rest => first :: '.' :: rest ++ 'e' :: mark
    sign ++ body

def render : Number → List Char
  | .int n => (if n < 0 then ['-'] else []) ++ Nat.toDigits 10 n.natAbs
  | .real d => realText d

end Number

namespace Json

def escapeChar (c : Char) : List Char :=
  match c with
  | '"' => ['\\', '"']
  | '\\' => ['\\', '\\']
  | '\x08' => ['\\', 'b']
  | '\t' => ['\\', 't']
  | '\n' => ['\\', 'n']
  | '\x0c' => ['\\', 'f']
  | '\r' => ['\\', 'r']
  | c =>
    if c.toNat < 0x20 then
      ['\\', 'u', '0', '0', Nat.digitChar (c.toNat / 16), Nat.digitChar (c.toNat % 16)]
    else [c]

def renderString (s : String) : List Char := '"' :: s.toList.flatMap escapeChar ++ ['"']

end Json

namespace Document

mutual
def render : Document → List Char
  | .null | .unreadable _ => ['n', 'u', 'l', 'l']
  | .bool true => ['t', 'r', 'u', 'e']
  | .bool false => ['f', 'a', 'l', 's', 'e']
  | .number n => n.render
  | .string s => Json.renderString s
  | .array [] => ['[', ']']
  | .array (d :: rest) => '[' :: d.render ++ renderItems rest
  | .object [] => ['\x7b', '\x7d']
  | .object ((n, d) :: rest) =>
    '\x7b' :: Json.renderString n ++ ':' :: d.render ++ renderMembers rest
/-- The items after the first, and the closing bracket. -/
def renderItems : List Document → List Char
  | [] => [']']
  | d :: rest => ',' :: d.render ++ renderItems rest
def renderMembers : List (String × Document) → List Char
  | [] => ['\x7d']
  | (n, d) :: rest => ',' :: Json.renderString n ++ ':' :: d.render ++ renderMembers rest
end

def text (d : Document) : String := String.ofList d.render

end Document

def Json.text (v : Json) : String := v.toDocument.text

end Federation
