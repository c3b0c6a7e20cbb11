import SpendPlanner.Proofs.FeeCache.Calls

/-!
# Rules on the record of a cache

Whether a rule is still to be served can be told from the record of a cache alone.  It has to have
arrived for the level and the token, less than the lifetime of rules ago, and the cache must not
have been cleared since.  More than one rule may be to be served for a level and a token; what a
cache that has gone through the record finds is the one that arrived last.
-/

namespace SpendPlanner

namespace FeeCache

/-! ## Rules on record -/

/-- A rule arrives for a level and a token. -/
def Happening.Brings (happening : Happening) (level : FeeLevel) (token : TokenId)
    (rule : FeeRule) : Prop :=
  ∃ call : Call, happening = .fetched call (.ok rule) ∧ call.IsFor level token

/-- A rule has arrived for a level and a token, and nothing that ends its service has happened
since. -/
def Since (ends : Happening → Prop) (record : List (ℕ × Happening)) (level : FeeLevel)
    (token : TokenId) (arrived : ℕ) (rule : FeeRule) : Prop :=
  ∃ earlier happening later, record = earlier ++ (arrived, happening) :: later ∧
    happening.Brings level token rule ∧ ∀ entry ∈ later, ¬ends entry.2

/-- A rule has arrived for a level and a token, and the cache has not been cleared since. -/
def Kept : List (ℕ × Happening) → FeeLevel → TokenId → ℕ → FeeRule → Prop := Since (· = .cleared)

/-- A rule has arrived for a level and a token, and since then the cache has not been cleared, nor
has another rule arrived for them. -/
def Latest (record : List (ℕ × Happening)) (level : FeeLevel) (token : TokenId) :
    ℕ → FeeRule → Prop :=
  Since (fun happening => happening = .cleared ∨ ∃ rule, happening.Brings level token rule) record
    level token

/-- A rule is still to be served.  It has arrived for the level and the token, the cache has not
been cleared since, and its time is not yet up. -/
def Servable (ttl : ℕ) (record : List (ℕ × Happening)) (level : FeeLevel) (token : TokenId)
    (now : ℕ) (rule : FeeRule) : Prop :=
  ∃ arrived, Kept record level token arrived rule ∧ now < arrived + ttl

/-- A rule is still to be served, and it is the one that arrived last. -/
def LastServable (ttl : ℕ) (record : List (ℕ × Happening)) (level : FeeLevel) (token : TokenId)
    (now : ℕ) (rule : FeeRule) : Prop :=
  ∃ arrived, Latest record level token arrived rule ∧ now < arrived + ttl

section Record

variable {ends : Happening → Prop} {record : List (ℕ × Happening)} {level : FeeLevel}
  {token : TokenId} {ttl now time arrived : ℕ} {rule : FeeRule} {happening : Happening}

namespace Happening

variable {call : Call}

@[simp]
theorem not_brings_served {served : FeeRule} :
    ¬(Happening.served call served).Brings level token rule := by
  rintro ⟨call, hcall, -⟩
  cases hcall

@[simp]
theorem not_brings_consulted : ¬(consulted call).Brings level token rule := by
  rintro ⟨call, hcall, -⟩
  cases hcall

@[simp]
theorem not_brings_cleared : ¬cleared.Brings level token rule := by
  rintro ⟨call, hcall, -⟩
  cases hcall

@[simp]
theorem brings_fetched_iff {answer : Except FeeSourceError FeeRule} :
    (fetched call answer).Brings level token rule ↔ answer = .ok rule ∧ call.IsFor level token := by
  constructor
  · rintro ⟨call, hcall, hfor⟩
    cases hcall
    exact ⟨rfl, hfor⟩
  · rintro ⟨rfl, hfor⟩
    exact ⟨call, rfl, hfor⟩

end Happening

theorem Happening.Brings.unique (h : happening.Brings level token rule) {rule' : FeeRule}
    (h' : happening.Brings level token rule') : rule' = rule := by
  obtain ⟨call, rfl, -⟩ := h
  obtain ⟨call', hcall, -⟩ := h'
  cases hcall
  rfl

theorem not_since_nil : ¬Since ends [] level token arrived rule := by
  rintro ⟨earlier, happening, later, hrecord, -⟩
  exact List.append_ne_nil_of_right_ne_nil earlier (List.cons_ne_nil _ _) hrecord.symm

/-- With one more happening on record, either it brings the rule, or the rule has been there before
and the happening does not end its service. -/
theorem since_concat_iff :
    Since ends (record ++ [(time, happening)]) level token arrived rule ↔
      (¬ends happening ∧ Since ends record level token arrived rule) ∨
        (time = arrived ∧ happening.Brings level token rule) := by
  constructor
  · rintro ⟨earlier, brought, later, hrecord, hbrings, hends⟩
    obtain rfl | ⟨later, last, rfl⟩ := later.eq_nil_or_concat'
    · right
      obtain ⟨-, hlast⟩ := List.append_inj' hrecord rfl
      cases hlast
      exact ⟨rfl, hbrings⟩
    · left
      rw [← List.cons_append, ← List.append_assoc] at hrecord
      obtain ⟨rfl, hlast⟩ := List.append_inj' hrecord rfl
      cases hlast
      refine ⟨hends (time, happening) (by simp), earlier, brought, later, rfl, hbrings, ?_⟩
      intro entry hentry
      exact hends entry (List.mem_append_left _ hentry)
  · rintro (⟨hlast, earlier, brought, later, rfl, hbrings, hends⟩ | ⟨rfl, hbrings⟩)
    · refine ⟨earlier, brought, later ++ [(time, happening)], by simp, hbrings, ?_⟩
      intro entry hentry
      obtain hentry | hentry := List.mem_append.mp hentry
      · exact hends entry hentry
      · rw [List.mem_singleton.mp hentry]
        exact hlast
    · exact ⟨record, happening, [], rfl, hbrings, by simp⟩

theorem kept_concat_iff :
    Kept (record ++ [(time, happening)]) level token arrived rule ↔
      (happening ≠ .cleared ∧ Kept record level token arrived rule) ∨
        (time = arrived ∧ happening.Brings level token rule) :=
  since_concat_iff

/-- What a happening does not bring is kept only if it has been there before. -/
theorem Kept.of_concat (h : ∀ rule, ¬happening.Brings level token rule)
    (hkept : Kept (record ++ [(time, happening)]) level token arrived rule) :
    Kept record level token arrived rule := by
  obtain ⟨-, hkept⟩ | ⟨-, hbrings⟩ := kept_concat_iff.mp hkept
  · exact hkept
  · exact absurd hbrings (h rule)

/-- Where a happening brings a rule, that is the latest one. -/
theorem latest_concat_iff_of_brings (h : happening.Brings level token rule) {arrived' : ℕ}
    {rule' : FeeRule} :
    Latest (record ++ [(time, happening)]) level token arrived' rule' ↔
      time = arrived' ∧ rule = rule' := by
  rw [Latest, since_concat_iff, or_iff_right (fun hkept => hkept.1 (.inr ⟨rule, h⟩))]
  refine and_congr_right fun _ => ⟨fun h' => (h.unique h').symm, ?_⟩
  rintro rfl
  exact h

/-- Where a happening neither brings a rule nor clears the cache, the latest rule is what it was. -/
theorem latest_concat_iff_of_not_brings (hcleared : happening ≠ .cleared)
    (h : ∀ rule, ¬happening.Brings level token rule) :
    Latest (record ++ [(time, happening)]) level token arrived rule ↔
      Latest record level token arrived rule := by
  rw [Latest, Latest, since_concat_iff, or_iff_left (fun hbrought => h rule hbrought.2),
    and_iff_right (not_or_intro hcleared (not_exists.mpr h))]

theorem not_kept_concat_cleared :
    ¬Kept (record ++ [(time, .cleared)]) level token arrived rule := by
  rw [kept_concat_iff]
  rintro (⟨hcleared, -⟩ | ⟨-, hbrings⟩)
  · exact hcleared rfl
  · exact Happening.not_brings_cleared hbrings

theorem Latest.kept (h : Latest record level token arrived rule) :
    Kept record level token arrived rule := by
  obtain ⟨earlier, happening, later, hrecord, hbrings, hends⟩ := h
  refine ⟨earlier, happening, later, hrecord, hbrings, ?_⟩
  intro entry hentry hcleared
  exact hends entry hentry (.inl hcleared)

theorem Kept.mem_times (h : Kept record level token arrived rule) :
    arrived ∈ record.map Prod.fst := by
  obtain ⟨earlier, happening, later, rfl, -⟩ := h
  simp

/-- Where a rule is kept one is the latest, and that one arrived no earlier. -/
theorem Kept.exists_latest (hordered : (record.map Prod.fst).Pairwise (· ≤ ·))
    (h : Kept record level token arrived rule) :
    ∃ arrived' rule', arrived ≤ arrived' ∧ Latest record level token arrived' rule' := by
  induction record using List.reverseRecOn with
  | nil => exact absurd h not_since_nil
  | append_singleton record entry ih =>
      obtain ⟨time, happening⟩ := entry
      rw [List.map_append, List.pairwise_append] at hordered
      obtain ⟨hbefore, -, hlast⟩ := hordered
      obtain ⟨hcleared, hkept⟩ | ⟨rfl, hbrings⟩ := kept_concat_iff.mp h
      · by_cases hbrings : ∃ rule', happening.Brings level token rule'
        · obtain ⟨rule', hbrings⟩ := hbrings
          exact ⟨time, rule', hlast arrived hkept.mem_times time (by simp),
            (latest_concat_iff_of_brings hbrings).mpr ⟨rfl, rfl⟩⟩
        · obtain ⟨arrived', rule', hle, hlatest⟩ := ih hbefore hkept
          exact ⟨arrived', rule', hle,
            (latest_concat_iff_of_not_brings hcleared (not_exists.mp hbrings)).mpr hlatest⟩
      · exact ⟨time, rule, le_rfl, (latest_concat_iff_of_brings hbrings).mpr ⟨rfl, rfl⟩⟩

theorem LastServable.servable (h : LastServable ttl record level token now rule) :
    Servable ttl record level token now rule := by
  obtain ⟨arrived, hlatest, hfresh⟩ := h
  exact ⟨arrived, hlatest.kept, hfresh⟩

theorem Servable.exists_last (hordered : (record.map Prod.fst).Pairwise (· ≤ ·))
    (h : Servable ttl record level token now rule) :
    ∃ rule', LastServable ttl record level token now rule' := by
  obtain ⟨arrived, hkept, hfresh⟩ := h
  obtain ⟨arrived', rule', hle, hlatest⟩ := hkept.exists_latest hordered
  exact ⟨rule', arrived', hlatest, by omega⟩

/-- What is still to be served has been so from its arrival on. -/
theorem Servable.of_le (h : Servable ttl record level token now rule) {before : ℕ}
    (hbefore : before ≤ now) : Servable ttl record level token before rule := by
  obtain ⟨arrived, hkept, hfresh⟩ := h
  exact ⟨arrived, hkept, by omega⟩

end Record

/-! ## What is kept -/

theorem isFor_iff {fee : CachedFee} {level : FeeLevel} {token : TokenId} :
    fee.isFor level token = true ↔ fee.level = level ∧ fee.token = token := by
  simp [CachedFee.isFor]

/-- Storing a rule changes what is kept for its level and token, and nothing else. -/
theorem find?_entries_store (cache : FeeCache) (fee : CachedFee) (level : FeeLevel)
    (token : TokenId) :
    (cache.store fee).entries.find? (fun old => old.isFor level token) =
      if fee.isFor level token then some fee
      else cache.entries.find? fun old => old.isFor level token := by
  rw [store, List.find?_append, List.find?_filter, List.find?_singleton]
  by_cases hfor : fee.isFor level token = true
  · obtain ⟨rfl, rfl⟩ := isFor_iff.mp hfor
    have hreplaced : cache.entries.find? (fun _ => false) = none :=
      List.find?_eq_none.mpr fun _ _ => Bool.false_ne_true
    simp [hfor, hreplaced]
  · rw [if_neg hfor, if_neg hfor, Option.or_none]
    congr 1
    funext old
    -- An entry for the level and the token is for no other one.
    by_cases hold : old.isFor level token = true
    · obtain ⟨rfl, rfl⟩ := isFor_iff.mp hold
      have hother : old.isFor fee.level fee.token = false := by
        rw [← Bool.not_eq_true, isFor_iff]
        rintro ⟨hlevel, htoken⟩
        exact hfor (isFor_iff.mpr ⟨hlevel.symm, htoken.symm⟩)
      simp [hother]
    · simp [hold]

theorem mem_entries_store {cache : FeeCache} {fee stored : CachedFee} :
    fee ∈ (cache.store stored).entries ↔
      fee = stored ∨
        fee ∈ cache.entries ∧ ¬(fee.level = stored.level ∧ fee.token = stored.token) := by
  rw [store, List.mem_append, List.mem_filter, List.mem_singleton, Bool.not_eq_true',
    ← Bool.not_eq_true, isFor_iff, or_comm]

/-- A cache that has gone through a record keeps the latest rule for each level and token. -/
theorem find?_entries_replay (record : List (ℕ × Happening)) (level : FeeLevel) (token : TokenId)
    (arrived : ℕ) (rule : FeeRule) :
    (replay record).entries.find? (fun fee => fee.isFor level token) =
        some ⟨level, token, arrived, rule⟩ ↔
      Latest record level token arrived rule := by
  induction record using List.reverseRecOn with
  | nil => exact iff_of_false (by simp [replay, empty]) not_since_nil
  | append_singleton record entry ih =>
      obtain ⟨time, happening⟩ := entry
      rw [replay_concat]
      cases happening with
      | served call served =>
          rw [after, ih, latest_concat_iff_of_not_brings Happening.noConfusion]
          exact fun _ => Happening.not_brings_served
      | consulted call =>
          rw [after, ih, latest_concat_iff_of_not_brings Happening.noConfusion]
          exact fun _ => Happening.not_brings_consulted
      | fetched call answer =>
          cases answer with
          | error error =>
              rw [after, receive, ih, latest_concat_iff_of_not_brings Happening.noConfusion]
              simp
          | ok fetched =>
              rw [after, receive, find?_entries_store]
              by_cases hfor : call.IsFor level token
              · have hbrings : (Happening.fetched call (.ok fetched)).Brings level token fetched :=
                  Happening.brings_fetched_iff.mpr ⟨rfl, hfor⟩
                obtain ⟨rfl, rfl⟩ := hfor
                rw [if_pos (isFor_iff.mpr ⟨rfl, rfl⟩), latest_concat_iff_of_brings hbrings]
                simp
              · have hother : ¬(⟨call.level, call.token, time, fetched⟩ : CachedFee).isFor level
                    token = true := mt isFor_iff.mp hfor
                rw [if_neg hother, ih, latest_concat_iff_of_not_brings Happening.noConfusion]
                simp [hfor]
      | cleared =>
          exact iff_of_false (by simp [after, clear]) (mt Latest.kept not_kept_concat_cleared)

/-- A cache that has gone through a record finds the rule that is to be served and arrived
last. -/
theorem find?_replay_eq_some_iff {ttl now : ℕ} {record : List (ℕ × Happening)} {level : FeeLevel}
    {token : TokenId} {rule : FeeRule} :
    (replay record).find? ttl level token now = some rule ↔
      LastServable ttl record level token now rule := by
  rw [find?, LastServable]
  cases hfound : (replay record).entries.find? fun fee => fee.isFor level token with
  | none =>
      refine iff_of_false nofun ?_
      rintro ⟨arrived, hlatest, -⟩
      rw [← find?_entries_replay, hfound] at hlatest
      cases hlatest
  | some fee =>
      have hfor : fee.isFor level token = true :=
        List.find?_some (p := fun fee : CachedFee => fee.isFor level token) hfound
      obtain ⟨rfl, rfl⟩ := isFor_iff.mp hfor
      have hlatest : ∀ arrived rule, Latest record fee.level fee.token arrived rule ↔
          fee.fetchedAt = arrived ∧ fee.rule = rule := by
        intro arrived rule
        rw [← find?_entries_replay, hfound, Option.some.injEq]
        constructor
        · intro h
          exact ⟨congrArg CachedFee.fetchedAt h, congrArg CachedFee.rule h⟩
        · rintro ⟨rfl, rfl⟩
          rfl
      simp only [hlatest, CachedFee.isFresh, decide_eq_true_eq, Option.ite_none_right_eq_some,
        Option.some.injEq]
      constructor
      · rintro ⟨hfresh, hrule⟩
        exact ⟨fee.fetchedAt, ⟨rfl, hrule⟩, hfresh⟩
      · rintro ⟨arrived, ⟨rfl, hrule⟩, hfresh⟩
        exact ⟨hfresh, hrule⟩

end FeeCache
end SpendPlanner
