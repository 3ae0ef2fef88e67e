import Abacus.Number.Basic
import Abacus.Text.CodePoint

/-!
# Raw values

What may be given for a setting before it is validated: a text or, by mistake, any other value.
`Value.text?` is the text that a value is or stands for, as bytes do that are the UTF-8 form of a
text. `Value.form` is how a message shows a value, and `Value.typeName` names its type.
-/

namespace Abacus

/-- A value given for a setting. -/
inductive Value
  | null
  | bool (b : Bool)
  | number (n : Number)
  | text (s : Wide)
  | bytes (content : List UInt8)
  | byteArray (content : List UInt8)
  | list (items : List Value)
  | dict (entries : List (Wide × Value))
  /-- Any other value, by its type, its form and the text that it stands for. A member of an
  enumeration of texts stands for a text, and most other values for none. -/
  | object (typeName form : String) (text : Option Wide)

namespace Value

/-- The text with a UTF-8 form. -/
def decode? (content : List UInt8) : Option Wide :=
  (String.fromUTF8? ⟨content.toArray⟩).map Wide.ofString

/-- The text that a value is or stands for. -/
def text? : Value → Option Wide
  | text s => some s
  | bytes content => decode? content
  | byteArray content => decode? content
  | object _ _ s => s
  | _ => none

/-- The type of a value, as messages name it. -/
def typeName : Value → String
  | null => "NoneType"
  | bool _ => "bool"
  | number (.integer _) => "int"
  | number (.real _) => "float"
  | text _ => "str"
  | bytes _ => "bytes"
  | byteArray _ => "bytearray"
  | list _ => "list"
  | dict _ => "dict"
  | object typeName _ _ => typeName

/-- A byte inside quoted bytes. -/
def escapeByte (quote : Char) (b : UInt8) : List Char :=
  if b < 0x80 then Text.escape quote (Char.ofNat b.toNat)
  else '\\' :: 'x' :: Text.hexDigits 2 b.toNat

/-- The quoted form of bytes. -/
def quotedBytes (content : List UInt8) : String :=
  let quote := Text.quoteFor (content.map fun b => Char.ofNat b.toNat)
  String.ofList ('b' :: quote :: content.flatMap (escapeByte quote) ++ [quote])

mutual

/-- A value as messages show it. -/
def form : Value → String
  | null => "None"
  | bool b => if b then "True" else "False"
  | number n => n.text
  | text s => s.quoted
  | bytes content => quotedBytes content
  | byteArray content => "bytearray(" ++ quotedBytes content ++ ")"
  | list items => "[" ++ ", ".intercalate (forms items) ++ "]"
  | dict entries => "\x7b" ++ ", ".intercalate (entryForms entries) ++ "\x7d"
  | object _ form _ => form

/-- The forms of the items of a list. -/
def forms : List Value → List String
  | [] => []
  | v :: vs => v.form :: forms vs

/-- The forms of the entries of a dictionary. -/
def entryForms : List (Wide × Value) → List String
  | [] => []
  | (key, v) :: entries => (key.quoted ++ ": " ++ v.form) :: entryForms entries

end

end Value
end Abacus
