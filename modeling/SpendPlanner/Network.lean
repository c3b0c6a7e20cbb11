import SpendPlanner.Amount
import SpendPlanner.Failure
import SpendPlanner.Text.Ascii

/-!
# Networks and protocol limits

Each network has a name, a block version for new transactions, and either serves fog reports
or does not.  The protocol limits of a network bound the shape of its transactions.
-/

namespace SpendPlanner

/-- The networks. -/
inductive NetworkKind where
  | mainnet
  | testnet
  | localnet
  deriving DecidableEq

namespace NetworkKind

def name : NetworkKind → String
  | mainnet => "mainnet"
  | testnet => "testnet"
  | localnet => "local"

/-- The network of a name, in either case and in its long or short form. -/
def parse (text : String) : Except ConfigError NetworkKind :=
  let lowered := Ascii.lower text
  if lowered = "mainnet" ∨ lowered = "main" then .ok mainnet
  else if lowered = "testnet" ∨ lowered = "test" then .ok testnet
  else if lowered = "local" ∨ lowered = "localnet" then .ok localnet
  else .error (.unknownNetwork lowered)

instance : Json.Codec NetworkKind where
  encode network := Json.encode network.name
  decode? := Json.decodeChoice? name [mainnet, testnet, localnet]

end NetworkKind

/-- The version of the block format a transaction is built for. -/
structure BlockVersion where
  number : UInt32
  deriving DecidableEq

namespace BlockVersion

/-- The highest version that can be described. -/
def highest : BlockVersion := ⟨3⟩

/-- From the second version on, tokens other than the native one may be spent. -/
def supportsMultipleTokens (v : BlockVersion) : Bool := 2 ≤ v.number

/-- Whether a version can be described. -/
def isKnown (v : BlockVersion) : Bool := v.number ≤ highest.number

/-- Whether a transaction of this version may spend the token. -/
def supports (v : BlockVersion) (token : TokenId) : Bool :=
  token = .mob || v.supportsMultipleTokens

def text (v : BlockVersion) : String := "v" ++ Decimal.text v.number.toNat

instance : Json.Codec BlockVersion where
  encode v := Json.encode v.number
  decode? v := (Json.decode? v).map BlockVersion.mk

end BlockVersion

/-- What transactions of one network agree on. -/
structure Network where
  kind : NetworkKind
  blockVersion : BlockVersion
  servesFog : Bool
  deriving DecidableEq

namespace Network

def name (network : Network) : String := network.kind.name

/-- The settings of a network; only the local one does without fog. -/
def ofKind (kind : NetworkKind) : Network where
  kind := kind
  blockVersion := ⟨3⟩
  servesFog := kind ≠ .localnet

end Network

/-- The most inputs a transaction may spend. -/
def maxInputs : Nat := 16

/-- The most outputs a transaction may create. -/
def maxOutputs : Nat := 16

/-- The number of ring members an input may hide among, itself included. -/
def standardRingSize : Nat := 11

/-- The limits every transaction of a network keeps. -/
structure ProtocolLimits where
  network : Network
  maxInputs : Nat
  maxOutputs : Nat
  ringSize : Nat
  /-- How many blocks ahead a transaction may expire. -/
  maxTombstone : UInt64
  deriving DecidableEq

namespace ProtocolLimits

/-- The limits of a network; a local one lets transactions expire sooner. -/
def ofNetwork (kind : NetworkKind) : ProtocolLimits where
  network := .ofKind kind
  maxInputs := SpendPlanner.maxInputs
  maxOutputs := SpendPlanner.maxOutputs
  ringSize := standardRingSize
  maxTombstone := if kind = .localnet then 100 else 20160

/-- The limits of the main network. -/
def standard : ProtocolLimits := ofNetwork .mainnet

/-- The last block in which a transaction built at `block` may land. -/
def tombstoneAt (limits : ProtocolLimits) (block : UInt64) : UInt64 :=
  clip (block.toNat + limits.maxTombstone.toNat)

end ProtocolLimits
end SpendPlanner
