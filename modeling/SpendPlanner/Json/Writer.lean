import SpendPlanner.Json.Value
import SpendPlanner.Text.Hex

/-!
# Writing JSON

The compact form has no blanks.  In strings only quotes, backslashes and control characters
are escaped, the latter by letter where there is one.  The indented form puts every item and
member on a line of its own, two blanks deeper than what holds it.
-/

namespace SpendPlanner.Json

/-- A character as it stands in a string. -/
def escapeChar (c : Char) : List Char :=
  match c with
  | '"' => ['\\', '"']
  | '\\' => ['\\', '\\']
  | '\x08' => ['\\', 'b']
  | '\x0c' => ['\\', 'f']
  | '\n' => ['\\', 'n']
  | '\r' => ['\\', 'r']
  | '\t' => ['\\', 't']
  | c =>
    if c.toNat < 0x20 then ['\\', 'u', '0', '0'] ++ Hex.encodeByte (UInt8.ofNat c.toNat)
    else [c]

/-- A string with its quotes.  A string that has no text is written empty. -/
def writeText (text : Text) : List Char :=
  '"' :: (text.getD "").toList.flatMap escapeChar ++ ['"']

mutual

/-- The compact form of a value. -/
def write : Value → List Char
  | .null => ['n', 'u', 'l', 'l']
  | .bool true => ['t', 'r', 'u', 'e']
  | .bool false => ['f', 'a', 'l', 's', 'e']
  | .number spelling => spelling
  | .string text => writeText text
  | .array items => '[' :: writeItems items ++ [']']
  | .object members => '{' :: writeMembers members ++ ['}']

/-- Items with commas between them. -/
def writeItems : List Value → List Char
  | [] => []
  | [item] => write item
  | item :: next :: items => write item ++ ',' :: writeItems (next :: items)

/-- Members with commas between them. -/
def writeMembers : List (Text × Value) → List Char
  | [] => []
  | [(key, value)] => writeText key ++ ':' :: write value
  | (key, value) :: next :: members =>
    writeText key ++ ':' :: write value ++ ',' :: writeMembers (next :: members)

end

/-- The start of a line at a given depth. -/
def lineStart (depth : Nat) : List Char := '\n' :: List.replicate (2 * depth) ' '

mutual

/-- The indented form of a value that starts at a given depth. -/
def writeIndented (depth : Nat) : Value → List Char
  | .array (item :: items) =>
    '[' :: indentItems (depth + 1) (item :: items) ++ lineStart depth ++ [']']
  | .object (member :: members) =>
    '{' :: indentMembers (depth + 1) (member :: members) ++ lineStart depth ++ ['}']
  | .array [] => ['[', ']']
  | .object [] => ['{', '}']
  | .null => ['n', 'u', 'l', 'l']
  | .bool true => ['t', 'r', 'u', 'e']
  | .bool false => ['f', 'a', 'l', 's', 'e']
  | .number spelling => spelling
  | .string text => writeText text

/-- Items on lines of their own. -/
def indentItems (depth : Nat) : List Value → List Char
  | [] => []
  | [item] => lineStart depth ++ writeIndented depth item
  | item :: next :: items =>
    lineStart depth ++ writeIndented depth item ++ ',' :: indentItems depth (next :: items)

/-- Members on lines of their own. -/
def indentMembers (depth : Nat) : List (Text × Value) → List Char
  | [] => []
  | [(key, value)] =>
    lineStart depth ++ writeText key ++ [':', ' '] ++ writeIndented depth value
  | (key, value) :: next :: members =>
    lineStart depth ++ writeText key ++ [':', ' '] ++ writeIndented depth value
      ++ ',' :: indentMembers depth (next :: members)

end

end SpendPlanner.Json
