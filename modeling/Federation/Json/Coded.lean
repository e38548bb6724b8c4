import Federation.Json.Decoder

/-!
# Types with a form in JSON

How the values of a type are written as documents and read back.
-/

namespace Federation

class Coded (α : Type) where
  decoder : Decoder α
  toDocument : α → Document

instance : Coded String := ⟨.string, .string⟩

instance : Coded Json := ⟨.json, Json.toDocument⟩

instance [Coded α] : Coded (List α) :=
  ⟨.list Coded.decoder, fun values => .array (values.map Coded.toDocument)⟩

namespace Coded

def text [Coded α] (value : α) : String := (toDocument value).text

def ofText [Coded α] (text : String) : Except DecodeError α := (decoder (α := α)).ofText text

def ofJson [Coded α] (value : Json) : Except DecodeError α := (decoder (α := α)).ofJson value

end Coded

end Federation
