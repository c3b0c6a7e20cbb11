import SpendPlanner.Account
import SpendPlanner.Configuration
import SpendPlanner.Fee

/-!
# Fee sources

A fee source is asked for the fee rule of a level and a token.  Asking takes time, and may
fail; meanwhile the account may change.  Nothing else is assumed of a source: it is any state
machine whatever.
-/

namespace SpendPlanner

/-- What comes of asking a fee source. -/
structure FeeReply where
  answer : Except FeeSourceError FeeRule
  /-- How many milliseconds the answer took. -/
  took : Nat
  /-- What happened to the account meanwhile. -/
  changes : List Account.Change
  log : List Log.Line

namespace FeeReply

/-- An answer that comes at once. -/
def immediate (answer : Except FeeSourceError FeeRule) : FeeReply := ⟨answer, 0, [], []⟩

end FeeReply

/-- A source of fee rules whose memory is an `ω`; it is told the time in milliseconds. -/
structure FeeSource (ω : Type) where
  ask : FeeLevel → TokenId → Nat → ω → FeeReply × ω

/-- The minimum fee served for a token: the last one configured, or else the built-in one. -/
def servedMinimumFee (fees : List MinimumFee) (token : TokenId) : UInt64 :=
  match fees.reverse.find? fun fee => fee.token = token with
  | some fee => fee.fee
  | none => builtInMinimumFee token

namespace FeeSource

/-- The source that serves minimum fees, scaled by the level. -/
def fixedMinimums (fees : List MinimumFee) : FeeSource Unit where
  ask level token _ memory :=
    (.immediate (.ok (.fixed (level.apply (servedMinimumFee fees token)))), memory)

/-- The source that gives prepared replies in turn and then goes on repeating the last one.
It counts how often it is asked. -/
def prepared (replies : List FeeReply) (last : FeeReply) : FeeSource Nat where
  ask _ _ _ asked := (replies.getD asked last, asked + 1)

end FeeSource
end SpendPlanner
