import SpendPlanner.Amount
import SpendPlanner.Failure
import SpendPlanner.Text.Ascii

/-!
# Fees

A fee rule gives the fee of a transaction from its shape alone.  A fee level scales a
token's minimum fee.  Fees that would be beyond the largest word are the largest word.
-/

namespace SpendPlanner

/-- How many inputs and outputs, change included, a transaction has. -/
structure Shape where
  inputs : Nat
  outputs : Nat
  deriving DecidableEq

/-- A fee for every shape. -/
abbrev FeeRule := Shape → UInt64

/-- A fee that grows by a fixed amount with each input and each output. -/
structure LinearFee where
  base : UInt64
  perInput : UInt64
  perOutput : UInt64
  deriving DecidableEq

namespace LinearFee

/-- The fee of a shape before any clipping. -/
def exact (f : LinearFee) (s : Shape) : Nat :=
  f.base.toNat + f.perInput.toNat * s.inputs + f.perOutput.toNat * s.outputs

/-- The rule of a linear fee. -/
def rule (f : LinearFee) : FeeRule := fun s => clip (f.exact s)

end LinearFee

namespace FeeRule

/-- The same fee for every shape. -/
def fixed (fee : UInt64) : FeeRule := fun _ => fee

/-- The fee of the first entry with the shape, and a default for shapes without one. -/
def table (default : UInt64) (entries : List (Shape × UInt64)) : FeeRule := fun s =>
  ((entries.find? fun entry => entry.1 = s).map Prod.snd).getD default

end FeeRule

/-- How much above its minimum a fee is set. -/
inductive FeeLevel where
  | minimum
  | standard
  | priority
  deriving DecidableEq

namespace FeeLevel

def name : FeeLevel → String
  | minimum => "minimum"
  | standard => "standard"
  | priority => "priority"

/-- How many times the minimum fee is paid. -/
def multiplier : FeeLevel → UInt64
  | minimum => 1
  | standard => 2
  | priority => 4

/-- The fee at this level, given the minimum fee. -/
def apply (level : FeeLevel) (minimumFee : UInt64) : UInt64 :=
  clip (minimumFee.toNat * level.multiplier.toNat)

/-- The level of a name, in either case. -/
def parse (text : String) : Except Failure FeeLevel :=
  let lowered := Ascii.lower text
  if lowered = "minimum" ∨ lowered = "min" then .ok minimum
  else if lowered = "standard" then .ok standard
  else if lowered = "priority" then .ok priority
  else .error (.invalidInput ("unknown fee level '" ++ lowered ++ "'"))

instance : Json.Codec FeeLevel where
  encode level := Json.encode level.name
  decode? := Json.decodeChoice? name [minimum, standard, priority]

end FeeLevel

/-- The minimum fee of a token for which nothing else is configured. -/
def builtInMinimumFee (token : TokenId) : UInt64 :=
  if token = .mob then 400000000 else 2560

/-- The rule that applies at a level while no fee source can be reached. -/
def FeeLevel.offlineRule (level : FeeLevel) (token : TokenId) : FeeRule :=
  .fixed (level.apply (builtInMinimumFee token))

end SpendPlanner
