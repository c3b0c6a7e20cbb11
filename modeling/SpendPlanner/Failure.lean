import SpendPlanner.Files

/-!
# Failures

Every failure a caller can act on, with the text it is shown as.  Failures fall into
categories; some are for the user to mend, and only those of the fee source are worth
retrying as they are.
-/

namespace SpendPlanner

/-- Why no configuration came of its source. -/
inductive ConfigError where
  | unknownNetwork (name : String)
  | invalid (reason : String)
  | file (error : FileError)
  | notJson
  deriving DecidableEq

def ConfigError.message : ConfigError → String
  | unknownNetwork name => "Invalid network: " ++ name
  | invalid reason => "Invalid configuration: " ++ reason
  | file error => "IO error: " ++ error.message
  | notJson => "Parse error"

/-- Why a fee source gave no fee. -/
inductive FeeSourceError where
  | unreachable (reason : String)
  | invalidResponse (reason : String)
  | timeout
  deriving DecidableEq

def FeeSourceError.message : FeeSourceError → String
  | unreachable reason => "fee oracle unreachable: " ++ reason
  | invalidResponse reason => "invalid fee oracle response: " ++ reason
  | timeout => "fee oracle timed out"

/-- What a failure is about. -/
inductive FailureCategory where
  | input
  | balance
  | fee
  | network
  | security
  | config
  | internal
  deriving DecidableEq

def FailureCategory.name : FailureCategory → String
  | input => "Input"
  | balance => "Balance"
  | fee => "Fee"
  | network => "Network"
  | security => "Security"
  | config => "Config"
  | internal => "Internal"

/-- A failure of an operation, with its reason. -/
inductive Failure where
  | invalidInput (reason : String)
  | insufficientBalance (reason : String)
  | balanceOverflow (reason : String)
  | feeExceedsBalance (reason : String)
  | connection (error : FeeSourceError)
  | attestation (reason : String)
  | config (error : ConfigError)
  | serialization
  deriving DecidableEq

namespace Failure

/-- The text of a failure, with its reason where there is one. -/
def message : Failure → String
  | invalidInput reason => "Invalid input: " ++ reason
  | insufficientBalance reason => "Insufficient balance: " ++ reason
  | balanceOverflow reason => "Balance overflow: " ++ reason
  | feeExceedsBalance reason => "Fee exceeds balance: " ++ reason
  | connection error => "Connection error: " ++ error.message
  | attestation reason => "Attestation verification failed: " ++ reason
  | config error => "Configuration error: " ++ error.message
  | serialization => "Serialization error"

/-- The text a user is shown, which leaves the reasons out of the common failures. -/
def userText : Failure → String
  | invalidInput _ =>
    "The transaction request is invalid. Please check the amount and recipient."
  | insufficientBalance _ =>
    "You don't have enough funds for this transaction. " ++
      "Please check your balance and try again."
  | feeExceedsBalance _ => "Your balance is too small to cover the network fee."
  | connection _ =>
    "Unable to fetch current network fees. Please check your connection and try again."
  | attestation _ =>
    "The recipient's service could not be verified. The transaction was not created."
  | failure => failure.message

def category : Failure → FailureCategory
  | invalidInput _ => .input
  | insufficientBalance _ | balanceOverflow _ => .balance
  | feeExceedsBalance _ => .fee
  | connection _ => .network
  | attestation _ => .security
  | config _ => .config
  | serialization => .internal

/-- Whether the user can do something about the failure. -/
def concernsUser : Failure → Bool
  | invalidInput _ | insufficientBalance _ | feeExceedsBalance _ | connection _ => true
  | _ => false

/-- Whether the same operation may succeed when tried again. -/
def mayBeRetried : Failure → Bool
  | connection _ => true
  | _ => false

end Failure
end SpendPlanner
