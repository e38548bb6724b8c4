/-!
# UTF-8

Bytes are read as the characters they encode. Where they encode none, the longest beginning of an
encoding, or else one byte, is one fault; a lenient reader puts one replacement character for it.
-/

namespace Federation.Text

/-- The number of bytes that follow a first byte, and the range of the second byte. -/
def leadByte? (b : UInt8) : Option (Nat × UInt8 × UInt8) :=
  if b < 0x80 then some (0, 0, 0)
  else if b < 0xC2 then none
  else if b < 0xE0 then some (1, 0x80, 0xBF)
  else if b = 0xE0 then some (2, 0xA0, 0xBF)
  else if b = 0xED then some (2, 0x80, 0x9F)
  else if b < 0xF0 then some (2, 0x80, 0xBF)
  else if b = 0xF0 then some (3, 0x90, 0xBF)
  else if b < 0xF4 then some (3, 0x80, 0xBF)
  else if b = 0xF4 then some (3, 0x80, 0x8F)
  else none

/-- Takes up to `count` bytes that continue a character; the first one has a range of its own. -/
def continuation (low high : UInt8) : Nat → List UInt8 → List UInt8
  | 0, _ => []
  | _ + 1, [] => []
  | count + 1, b :: rest =>
    if low ≤ b && b ≤ high then b :: continuation 0x80 0xBF count rest else []

def codePoint (first : UInt8) (following : List UInt8) : Nat :=
  let lead := match following.length with
    | 0 => first.toNat
    | 1 => first.toNat % 32
    | 2 => first.toNat % 16
    | _ => first.toNat % 8
  following.foldl (fun n b => 64 * n + b.toNat % 64) lead

/-- The characters that the bytes encode, `none` for each fault. -/
def decodeUtf8 : List UInt8 → List (Option Char)
  | [] => []
  | first :: rest =>
    match leadByte? first with
    | none => none :: decodeUtf8 rest
    | some (count, low, high) =>
      let following := continuation low high count rest
      let c := if following.length = count then some (Char.ofNat (codePoint first following))
        else none
      c :: decodeUtf8 (rest.drop following.length)
termination_by bytes => bytes.length
decreasing_by
  · simp
  · simp only [List.length_drop, List.length_cons]
    omega

def ofUtf8? (bytes : List UInt8) : Option String :=
  ((decodeUtf8 bytes).mapM id).map String.ofList

/-- The text that the bytes encode, with a replacement character for each fault. -/
def ofUtf8 (bytes : List UInt8) : String :=
  String.ofList ((decodeUtf8 bytes).map fun c => c.getD '\uFFFD')

end Federation.Text
