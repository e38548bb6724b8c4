/-!
# Upper case

Names such as `RUNNING` are read in any case. The letters outside ASCII whose full upper case is
written in ASCII are few: the dotless i, the long s, the sharp s and the Latin ligatures. Every
other letter outside ASCII keeps a letter outside ASCII in its upper case, so it spells no name.
-/

namespace Federation.Text

def upperChar (c : Char) : List Char :=
  if c.toNat < 0x80 then [c.toUpper]
  else match c.toNat with
    | 0x00DF => ['S', 'S']
    | 0x0131 => ['I']
    | 0x017F => ['S']
    | 0xFB00 => ['F', 'F']
    | 0xFB01 => ['F', 'I']
    | 0xFB02 => ['F', 'L']
    | 0xFB03 => ['F', 'F', 'I']
    | 0xFB04 => ['F', 'F', 'L']
    | 0xFB05 => ['S', 'T']
    | 0xFB06 => ['S', 'T']
    | _ => [c]

/-- Agrees with the full Unicode upper case wherever either of the two is all ASCII. -/
def upper (text : String) : String := String.ofList (text.toList.flatMap upperChar)

/-- Says that `text` spells `name` in some mixture of cases; `name` is upper case. -/
def spells (text name : String) : Bool := upper text == name

/-- Upper and lower case of the ASCII letters are the same; everything else is kept. -/
def lowerAscii (text : String) : String := text.map Char.toLower

end Federation.Text
