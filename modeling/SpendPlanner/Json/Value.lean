/-!
# JSON values

A JSON text stands for one of six kinds of value.  Numbers keep the spelling they were
written with, members keep their order and may repeat a key.  A string may hold escapes of
unpaired surrogates; such a string can be passed over but has no text.
-/

namespace SpendPlanner.Json

/-- The text of a JSON string, absent when the string has an unpaired surrogate. -/
abbrev Text := Option String

/-- A JSON value. -/
inductive Value where
  | null
  | bool (b : Bool)
  | number (spelling : List Char)
  | string (text : Text)
  | array (items : List Value)
  | object (members : List (Text × Value))

end SpendPlanner.Json
