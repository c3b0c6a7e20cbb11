import SpendPlanner.Json.Reader
import SpendPlanner.Json.Writer
import SpendPlanner.Text.Decimal
import SpendPlanner.Word

/-!
# Values of the domain in JSON

A type with a codec has one written form and a set of accepted forms.  A record of fields is
written as an object.  It is accepted as an object in which each known key occurs at most
once and unknown keys are passed over, or as an array of the fields in order.  A choice
between names is written as the name and accepted as the name or as an object whose one
member has the name for its key and null for its value.
-/

namespace SpendPlanner.Json

/-- How a type is written as JSON and read back. -/
class Codec (α : Type) where
  encode : α → Value
  decode? : Value → Option α

export Codec (encode decode?)

/-- The compact JSON text of a value. -/
def writeAs {α : Type} [Codec α] (a : α) : String := String.ofList (write (encode a))

/-- The value that a JSON text stands for. -/
def readAs? (α : Type) [Codec α] (text : String) : Option α :=
  (read? text.toList).bind decode?

/-! ## Numbers, strings, lists and options -/

/-- A number written with plain digits. -/
def Value.ofNat (n : Nat) : Value := .number (Decimal.digits n)

/-- The number, if it is written with plain digits. -/
def Value.nat? : Value → Option Nat
  | .number spelling => Decimal.read? spelling
  | _ => none

/-- The text of a string. -/
def Value.text? : Value → Option String
  | .string text => text
  | _ => none

instance : Codec UInt64 where
  encode w := .ofNat w.toNat
  decode? v := v.nat?.bind word?

instance : Codec UInt32 where
  encode w := .ofNat w.toNat
  decode? v := v.nat?.bind fun n =>
    if n < UInt32.size then some (UInt32.ofNat n) else none

instance : Codec String where
  encode s := .string (some s)
  decode? := Value.text?

/-- Every item of a list, if each has a value. -/
def decodeItems? {α : Type} [Codec α] : List Value → Option (List α)
  | [] => some []
  | v :: vs => do
    let a ← decode? v
    let items ← decodeItems? vs
    return a :: items

instance {α : Type} [Codec α] : Codec (List α) where
  encode items := .array (items.map encode)
  decode?
    | .array items => decodeItems? items
    | _ => none

instance {α : Type} [Codec α] : Codec (Option α) where
  encode
    | some a => encode a
    | none => .null
  decode?
    | .null => some none
    | v => (decode? v).map some

/-! ## Records of fields -/

/-- An object with the given members. -/
def Value.ofFields (fields : List (String × Value)) : Value :=
  .object (fields.map fun field => (some field.1, field.2))

/-- The members of an object, if every key has a text. -/
def keyedMembers? : List (Text × Value) → Option (List (String × Value))
  | [] => some []
  | (key, value) :: members => do
    let key ← key
    let members ← keyedMembers? members
    return (key, value) :: members

/-- The values of the named fields in order, absent where the object does not have them. -/
def fieldsOfMembers? (names : List String) (members : List (Text × Value)) :
    Option (List (Option Value)) := do
  let members ← keyedMembers? members
  if names.any fun name => 1 < members.countP fun member => member.1 = name then none
  else some (names.map fun name => (members.find? fun member => member.1 = name).map Prod.snd)

/-- The values of the named fields in order; an array has to hold all of them. -/
def Value.fields? (names : List String) : Value → Option (List (Option Value))
  | .object members => fieldsOfMembers? names members
  | .array items => if items.length = names.length then some (items.map some) else none
  | _ => none

/-- The values of the named fields in order; an array may stop early. -/
def Value.leadingFields? (names : List String) : Value → Option (List (Option Value))
  | .object members => fieldsOfMembers? names members
  | .array items =>
    if items.length ≤ names.length then
      some (items.map some ++ List.replicate (names.length - items.length) none)
    else none
  | _ => none

/-- A field that has to be there. -/
def required? {α : Type} [Codec α] (field : Option Value) : Option α := field.bind decode?

/-- A field that stands for its default where it is missing. -/
def optional? {α : Type} [Codec α] (default : α) : Option Value → Option α
  | some v => decode? v
  | none => some default

/-! ## Choices between names -/

/-- The choice whose name is given, alone or as the key of a null. -/
def decodeChoice? {α : Type} (name : α → String) (choices : List α) (v : Value) : Option α :=
  let chosen : Option String := match v with
    | .string text => text
    | .object [(key, .null)] => key
    | _ => none
  chosen.bind fun text => choices.find? fun a => name a = text

end SpendPlanner.Json
