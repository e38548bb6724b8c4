/-!
# Decimal numbers in texts

Natural numbers in decimal digits, a plus sign allowed, as ports and lengths are given.
-/

namespace Federation.Text

def digitValue (c : Char) : Nat := c.toNat - '0'.toNat

def valueOf (digits : List Char) : Nat := digits.foldl (fun n c => 10 * n + digitValue c) 0

/-- The number below `limit` that the text is. -/
def decimal? (limit : Nat) (text : String) : Option Nat :=
  let digits := match text.toList with
    | '+' :: rest => rest
    | cs => cs
  if digits.isEmpty || !digits.all Char.isDigit then none
  else if valueOf digits < limit then some (valueOf digits)
  else none

end Federation.Text
