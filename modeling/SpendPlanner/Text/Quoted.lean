import SpendPlanner.Text.Hex
import SpendPlanner.Text.Shapeless

/-!
# Quoted text

A text between double quotes, with its quotes, backslashes and shapeless characters escaped,
as diagnostic forms show it.
-/

namespace SpendPlanner.Quoted

/-- The escaped form of one character. -/
def escape (c : Char) : List Char :=
  match c with
  | '"' => ['\\', '"']
  | '\\' => ['\\', '\\']
  | '\n' => ['\\', 'n']
  | '\t' => ['\\', 't']
  | '\r' => ['\\', 'r']
  | '\x00' => ['\\', '0']
  | c =>
    if Text.isShapeless c then ['\\', 'u', '{'] ++ Hex.ofNat c.toNat ++ ['}'] else [c]

/-- The quoted form of a text. -/
def text (s : String) : String :=
  String.ofList ('"' :: s.toList.flatMap escape ++ ['"'])

end SpendPlanner.Quoted
