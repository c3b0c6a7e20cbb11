import SpendPlanner.Fee
import SpendPlanner.Network

/-!
# Configuration

A configuration chooses the network, may lower its input limit, and sets how long fetched
fees stay good and what the minimum fees of tokens are.  A configuration read from text is
checked before it is used.
-/

namespace SpendPlanner

/-- The minimum fee configured for one token. -/
structure MinimumFee where
  token : TokenId
  fee : UInt64
  deriving DecidableEq

instance : Json.Codec MinimumFee where
  encode f := .ofFields
    [("token_id", Json.encode f.token), ("minimum_fee", Json.encode f.fee)]
  decode? v := do
    match ← v.fields? ["token_id", "minimum_fee"] with
    | [token, fee] => return ⟨← Json.required? token, ← Json.required? fee⟩
    | _ => none

/-- The configuration of the planner. -/
structure Configuration where
  network : NetworkKind
  /-- An input limit below that of the network. -/
  maxInputs : Option UInt64
  /-- How many seconds a fetched fee stays good. -/
  feeCacheSeconds : UInt64
  minimumFees : List MinimumFee
  deriving DecidableEq

/-- What makes a configuration unusable. -/
inductive ConfigFault where
  | limitTooLow (limit : UInt64)
  | limitTooHigh (limit : UInt64)
  | cacheTimeZero
  | feeZero (token : TokenId)
  | feeRepeated (token : TokenId)
  deriving DecidableEq

def ConfigFault.reason : ConfigFault → String
  | limitTooLow limit =>
    "max_inputs_per_transaction must be at least 2, got " ++ Decimal.text limit.toNat
  | limitTooHigh limit =>
    "max_inputs_per_transaction " ++ Decimal.text limit.toNat ++
      " exceeds protocol limit " ++ Decimal.text maxInputs
  | cacheTimeZero => "fee_cache_ttl_secs must be positive"
  | feeZero token => "minimum fee for " ++ token.name ++ " must be positive"
  | feeRepeated token => "duplicate minimum fee entry for " ++ token.name

namespace Configuration

/-- The configuration that stands where nothing is configured. -/
def default : Configuration where
  network := .mainnet
  maxInputs := none
  feeCacheSeconds := 30
  minimumFees := []

instance : Json.Codec Configuration where
  encode c := .ofFields
    [("network", Json.encode c.network),
     ("max_inputs_per_transaction", Json.encode c.maxInputs),
     ("fee_cache_ttl_secs", Json.encode c.feeCacheSeconds),
     ("minimum_fees", Json.encode c.minimumFees)]
  decode? v := do
    match ← v.leadingFields? ["network", "max_inputs_per_transaction", "fee_cache_ttl_secs",
        "minimum_fees"] with
    | [network, maxInputs, seconds, fees] =>
      return {
        network := ← Json.optional? default.network network
        maxInputs := ← Json.optional? default.maxInputs maxInputs
        feeCacheSeconds := ← Json.optional? default.feeCacheSeconds seconds
        minimumFees := ← Json.optional? default.minimumFees fees }
    | _ => none

/-- Checks the input limit. -/
def checkLimit : Option UInt64 → Except ConfigFault Unit
  | some limit =>
    if limit.toNat < 2 then .error (.limitTooLow limit)
    else if SpendPlanner.maxInputs < limit.toNat then .error (.limitTooHigh limit)
    else .ok ()
  | none => .ok ()

/-- Checks fee entries one after the other against the tokens of the entries before. -/
def checkFees (seen : List TokenId) : List MinimumFee → Except ConfigFault Unit
  | [] => .ok ()
  | fee :: fees =>
    if fee.fee = 0 then .error (.feeZero fee.token)
    else if fee.token ∈ seen then .error (.feeRepeated fee.token)
    else checkFees (fee.token :: seen) fees

/-- Finds the first fault of a configuration. -/
def validate (c : Configuration) : Except ConfigFault Unit := do
  checkLimit c.maxInputs
  if c.feeCacheSeconds = 0 then .error .cacheTimeZero
  checkFees [] c.minimumFees

/-- The configuration written by a JSON text, checked. -/
def ofJson (text : String) : Except ConfigError Configuration :=
  match Json.readAs? Configuration text with
  | none => .error .notJson
  | some c =>
    match c.validate with
    | .ok () => .ok c
    | .error fault => .error (.invalid fault.reason)

/-- The configuration written in a file, given the file's text if it could be read. -/
def ofFile (text : Except FileError String) : Except ConfigError Configuration :=
  match text with
  | .ok text => ofJson text
  | .error error => .error (.file error)

/-- The network's limits with the configured input limit. -/
def limits (c : Configuration) : ProtocolLimits :=
  let limits := ProtocolLimits.ofNetwork c.network
  match c.maxInputs with
  | some limit => { limits with maxInputs := limit.toNat }
  | none => limits

/-- The minimum fee configured for a token. -/
def minimumFee? (c : Configuration) (token : TokenId) : Option UInt64 :=
  (c.minimumFees.find? fun fee => fee.token = token).map MinimumFee.fee

end Configuration
end SpendPlanner
