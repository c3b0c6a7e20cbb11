import SpendPlanner.FeeSource
import SpendPlanner.Text.Duration

/-!
# Cached fees

A cache stands before a fee source.  It keeps the last rule that has arrived for each level and
token and serves it until its time is up.  A failure is passed on and changes nothing that is
kept.

A call looks the rule up at once.  If it has to ask the source, it comes back to the cache when
the answer arrives, and other calls may have used the cache in the meantime.  A source with a
cache before it is a fee source itself.
-/

namespace SpendPlanner

/-- A fee rule that was fetched. -/
structure CachedFee where
  level : FeeLevel
  token : TokenId
  /-- When the rule arrived, in milliseconds. -/
  fetchedAt : Nat
  rule : FeeRule

namespace CachedFee

/-- Whether the rule is for a level and a token. -/
def isFor (fee : CachedFee) (level : FeeLevel) (token : TokenId) : Bool :=
  fee.level = level && fee.token = token

/-- Whether less time has gone by than a rule stays good for. -/
def isFresh (fee : CachedFee) (ttl now : Nat) : Bool := now < fee.fetchedAt + ttl

end CachedFee

/-- The rules that are kept. -/
structure FeeCache where
  entries : List CachedFee

namespace FeeCache

/-- A cache that keeps nothing yet. -/
def empty : FeeCache := ⟨[]⟩

/-- The rule that can be served for a level and a token. -/
def find? (cache : FeeCache) (ttl : Nat) (level : FeeLevel) (token : TokenId) (now : Nat) :
    Option FeeRule :=
  match cache.entries.find? fun fee => fee.isFor level token with
  | some fee => if fee.isFresh ttl now then some fee.rule else none
  | none => none

/-- Keeps a rule in place of an earlier one for its level and token. -/
def store (cache : FeeCache) (fee : CachedFee) : FeeCache :=
  ⟨cache.entries.filter (fun old => !old.isFor fee.level fee.token) ++ [fee]⟩

/-- Takes note of the answer for a level and a token that arrives at some time. -/
def receive (cache : FeeCache) (level : FeeLevel) (token : TokenId) (now : Nat) :
    Except FeeSourceError FeeRule → FeeCache
  | .ok rule => cache.store ⟨level, token, now, rule⟩
  | .error _ => cache

/-- Drops every rule that is kept. -/
def clear (cache : FeeCache) : FeeCache := { cache with entries := [] }

/-- The number of rules that are kept, expired ones included. -/
def size (cache : FeeCache) : Nat := cache.entries.length

/-- The diagnostic form of a cache whose rules stay good for so many milliseconds. -/
def debugText (cache : FeeCache) (ttl : Nat) : String :=
  "CachingFeeOracle \x7b ttl: " ++ Duration.text ttl ++ ", entries: " ++
    Decimal.text cache.size ++ " \x7d"

/-- The reply of a cache that serves a rule. -/
def hit (level : FeeLevel) (token : TokenId) (rule : FeeRule) : FeeReply :=
  { FeeReply.immediate (.ok rule) with
    log := [⟨.debug, ["Fee cache hit for ", level.name, " ", token.name]⟩] }

end FeeCache

namespace FeeSource

/-- The source with a cache before it, whose rules stay good for so many milliseconds.  Nothing
else uses the cache while an answer of the source is awaited. -/
def cached {ω : Type} (source : FeeSource ω) (ttl : Nat) : FeeSource (FeeCache × ω) where
  ask level token now memory :=
    let (cache, rest) := memory
    match cache.find? ttl level token now with
    | some rule => (FeeCache.hit level token rule, memory)
    | none =>
      let (reply, rest) := source.ask level token now rest
      (reply, cache.receive level token (now + reply.took) reply.answer, rest)

/-- How many milliseconds the rules of a configured cache stay good. -/
def configuredTtl (config : Configuration) : Nat := config.feeCacheSeconds.toNat * 1000

/-- The source that a configuration sets up: its minimum fees, cached. -/
def ofConfig (config : Configuration) : FeeSource (FeeCache × Unit) :=
  (fixedMinimums config.minimumFees).cached (configuredTtl config)

end FeeSource
end SpendPlanner
