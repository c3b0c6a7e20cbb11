import SpendPlanner.Text.Decimal
import SpendPlanner.Text.Padding

/-!
# Durations

A duration of whole milliseconds is written in seconds from one second on, with a fraction
that does not end in zeros, and in milliseconds below.
-/

namespace SpendPlanner.Duration

/-- The digits after the point of so many thousandths, without zeros at the end. -/
def fraction (thousandths : Nat) : String :=
  let digits := (Padding.alignRight '0' 3 (Decimal.text thousandths)).toList
  String.ofList (digits.reverse.dropWhile (· = '0')).reverse

/-- The text of a number of milliseconds. -/
def text (milliseconds : Nat) : String :=
  if milliseconds = 0 then "0ns"
  else if milliseconds < 1000 then Decimal.text milliseconds ++ "ms"
  else
    let whole := Decimal.text (milliseconds / 1000)
    let rest := fraction (milliseconds % 1000)
    if rest.isEmpty then whole ++ "s" else whole ++ "." ++ rest ++ "s"

end SpendPlanner.Duration
