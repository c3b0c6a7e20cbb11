import SpendPlanner.Json.Codec

/-!
# Amounts

A token is known by its number, an amount is a value in the token's smallest unit.  Lists of
values are added, compared and subtracted exactly: a sum that fits in a word is that word,
and a comparison or difference is that of the exact sums, whatever their size.
-/

namespace SpendPlanner

/-- The number of a token. -/
structure TokenId where
  id : UInt64
  deriving DecidableEq

namespace TokenId

/-- The native token. -/
def mob : TokenId := ⟨0⟩

/-- The dollar-pegged token. -/
def eusd : TokenId := ⟨1⟩

/-- The name a token is shown under; tokens without one show their number. -/
def name (token : TokenId) : String :=
  if token = mob then "MOB"
  else if token = eusd then "eUSD"
  else "token#" ++ Decimal.text token.id.toNat

end TokenId

instance : Json.Codec TokenId where
  encode token := Json.encode token.id
  decode? v := (Json.decode? v).map TokenId.mk

/-- A value of one token. -/
structure Amount where
  value : UInt64
  token : TokenId
  deriving DecidableEq

/-- The value, then the token's name. -/
def Amount.text (a : Amount) : String := Decimal.text a.value.toNat ++ " " ++ a.token.name

instance : Json.Codec Amount where
  encode a := .ofFields [("value", Json.encode a.value), ("token_id", Json.encode a.token)]
  decode? v := do
    match ← v.fields? ["value", "token_id"] with
    | [value, token] => return ⟨← Json.required? value, ← Json.required? token⟩
    | _ => none

/-- A word above zero, as every payment is. -/
structure PositiveWord where
  value : UInt64
  value_ne_zero : value ≠ 0
  deriving DecidableEq

/-- The word, if it is above zero. -/
def PositiveWord.ofWord? (value : UInt64) : Option PositiveWord :=
  if h : value ≠ 0 then some ⟨value, h⟩ else none

/-- Why a sum or a difference of words is not a word. -/
inductive RangeError where
  | overflow
  | underflow
  deriving DecidableEq

namespace RangeError

def message : RangeError → String
  | overflow => "amount overflows u64"
  | underflow => "amount underflows zero"

end RangeError

/-- The ways two sums are compared. -/
inductive Comparison where
  | greater
  | greaterOrEqual
  | equal
  deriving DecidableEq

/-- Whether the sum of `a` stands in the given relation to the sum of `b`. -/
def Comparison.holds : Comparison → List UInt64 → List UInt64 → Bool
  | greater, a, b => total b < total a
  | greaterOrEqual, a, b => total b ≤ total a
  | equal, a, b => total a = total b

/-- The sum of two words, refused when it is no word. -/
def addChecked (a b : UInt64) : Except RangeError UInt64 :=
  match word? (a.toNat + b.toNat) with
  | some sum => .ok sum
  | none => .error .overflow

/-- Adds words one after the other, stopping at the first partial sum that is no word. -/
def checkedSum (values : List UInt64) : Except RangeError UInt64 :=
  values.foldlM addChecked 0

/-- The sum of `a` less the sum of `b`. -/
def checkedDifference (a b : List UInt64) : Except RangeError UInt64 :=
  if total a < total b then .error .underflow
  else
    match word? (total a - total b) with
    | some difference => .ok difference
    | none => .error .overflow

end SpendPlanner
