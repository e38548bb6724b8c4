/-!
# Faults in JSON texts

Where a text leaves the grammar, or states what no value can hold. A reader that only looks for the
end of a value does not notice the second kind.
-/

namespace Federation

inductive JsonFault where
  | endInValue
  | endInString
  | endInList
  | endInObject
  | valueExpected
  | wordExpected
  | colonExpected
  | listGoesOn
  | objectGoesOn
  | trailingComma
  | nameExpected
  | badEscape
  | controlCharacter
  | badNumber
  | textAfterValue
  | numberOutOfRange
  | loneHalf
  | missingHalf
  | nestedTooDeep
  deriving DecidableEq, Repr

namespace JsonFault

def message : JsonFault → String
  | .endInValue => "EOF while parsing a value"
  | .endInString => "EOF while parsing a string"
  | .endInList => "EOF while parsing a list"
  | .endInObject => "EOF while parsing an object"
  | .valueExpected => "expected value"
  | .wordExpected => "expected ident"
  | .colonExpected => "expected `:`"
  | .listGoesOn => "expected `,` or `]`"
  | .objectGoesOn => "expected `,` or `\x7d`"
  | .trailingComma => "trailing comma"
  | .nameExpected => "key must be a string"
  | .badEscape => "invalid escape"
  | .controlCharacter => "control character (\\u0000-\\u001F) found while parsing a string"
  | .badNumber => "invalid number"
  | .textAfterValue => "trailing characters"
  | .numberOutOfRange => "number out of range"
  | .loneHalf => "lone leading surrogate in hex escape"
  | .missingHalf => "unexpected end of hex escape"
  | .nestedTooDeep => "recursion limit exceeded"

/-- Whether the text stays within the grammar, so that what comes after can still be read. -/
def isPassable : JsonFault → Bool
  | .numberOutOfRange | .loneHalf | .missingHalf | .nestedTooDeep => true
  | _ => false

end JsonFault

end Federation
