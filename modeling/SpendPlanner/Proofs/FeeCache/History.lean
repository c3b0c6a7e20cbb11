import SpendPlanner.Proofs.FeeCache.Record

/-!
# Cached fees and their history

A cache serves a call if its record has a rule that is still to be served, and consults its source
once for every other call.

Two calls for one level and token may both consult the source before an answer arrives, and then
two rules may be to be served at a time.  The one that arrived last is served.  Where no call is
made for a level and a token while an answer for them is awaited, there is never more than one.
-/

namespace SpendPlanner

namespace FeeCache

/-! ## Calls that are apart -/

namespace Calls

/-- No call is made for a level and a token while an answer for them is awaited. -/
def Apart (ttl : ℕ) (events : List (ℕ × Event)) : Prop :=
  ∀ earlier later now level token, events = earlier ++ (now, .called level token) :: later →
    ∀ call ∈ (run ttl earlier).awaiting, ¬call.IsFor level token

/-- At some time no rule is to be served but the latest for a level and a token, and none while an
answer for them is awaited. -/
structure Single (ttl : ℕ) (x : Calls) (now : ℕ) : Prop where
  apart : x.awaiting.Pairwise fun call call' => ¬call.IsFor call'.level call'.token
  awaiting : ∀ call ∈ x.awaiting, ∀ rule, ¬Servable ttl x.record call.level call.token now rule
  latest : ∀ level token arrived rule, Kept x.record level token arrived rule →
    now < arrived + ttl → Latest x.record level token arrived rule

variable {ttl now : ℕ} {x : Calls}

theorem Single.of_le {before : ℕ} (h : x.Single ttl before) (hnow : before ≤ now) :
    x.Single ttl now where
  apart := h.apart
  awaiting call hcall rule hservable := h.awaiting call hcall rule (hservable.of_le hnow)
  latest level token arrived rule hkept hfresh :=
    h.latest level token arrived rule hkept (hnow.trans_lt hfresh)

theorem Single.servable_iff_last (h : x.Single ttl now) {level : FeeLevel} {token : TokenId}
    {rule : FeeRule} :
    Servable ttl x.record level token now rule ↔
      LastServable ttl x.record level token now rule := by
  refine ⟨?_, LastServable.servable⟩
  rintro ⟨arrived, hkept, hfresh⟩
  exact ⟨arrived, h.latest level token arrived rule hkept hfresh, hfresh⟩

/-- A happening that neither brings a rule nor clears the cache changes nothing, whoever awaits an
answer after it, if nothing is to be served where one is awaited. -/
theorem Single.concat (h : x.Single ttl now) {happening : Happening} {awaiting : List Call}
    (hcleared : happening ≠ .cleared)
    (hbrings : ∀ level token rule, ¬happening.Brings level token rule)
    (hapart : awaiting.Pairwise fun call call' => ¬call.IsFor call'.level call'.token)
    (hawaiting : ∀ call ∈ awaiting, ∀ rule,
      ¬Servable ttl x.record call.level call.token now rule)
    (cache : FeeCache) (made : ℕ) :
    Single ttl ⟨cache, made, awaiting, x.record ++ [(now, happening)]⟩ now := by
  refine ⟨hapart, ?_, ?_⟩
  · rintro call hcall rule ⟨arrived, hkept, hfresh⟩
    exact hawaiting call hcall rule ⟨arrived, hkept.of_concat (hbrings _ _), hfresh⟩
  · intro level token arrived rule hkept hfresh
    rw [latest_concat_iff_of_not_brings hcleared (hbrings level token)]
    exact h.latest level token arrived rule (hkept.of_concat (hbrings _ _)) hfresh

theorem Single.call (h : x.Single ttl now) (hcache : x.cache = replay x.record)
    {level : FeeLevel} {token : TokenId} (hapart : ∀ call ∈ x.awaiting, ¬call.IsFor level token) :
    (x.call ttl now level token).Single ttl now := by
  cases hfound : x.cache.find? ttl level token now with
  | some rule =>
      rw [call_of_some hfound]
      exact h.concat Happening.noConfusion (by simp) h.apart h.awaiting _ _
  | none =>
      have hnone : ∀ rule, ¬Servable ttl x.record level token now rule := by
        intro rule hservable
        rw [h.servable_iff_last, ← find?_replay_eq_some_iff, ← hcache, hfound] at hservable
        cases hservable
      rw [call_of_none hfound]
      refine h.concat Happening.noConfusion (by simp) ?_ ?_ _ _
      · rw [List.pairwise_append]
        refine ⟨h.apart, List.pairwise_singleton _ _, ?_⟩
        intro call hcall call' hcall'
        rw [List.mem_singleton.mp hcall']
        exact hapart call hcall
      · intro call hcall
        obtain hcall | hcall := List.mem_append.mp hcall
        · exact h.awaiting call hcall
        · rw [List.mem_singleton.mp hcall]
          exact hnone

/-- Whoever else awaits an answer awaits it for another level or token. -/
theorem Single.not_isFor_of_mem_eraseIdx (h : x.Single ttl now) {place : ℕ} {call call' : Call}
    (hplace : x.awaiting[place]? = some call) (hcall' : call' ∈ x.awaiting.eraseIdx place) :
    ¬call.IsFor call'.level call'.token := by
  obtain ⟨hlt, rfl⟩ := List.getElem?_eq_some_iff.mp hplace
  have hsymm : ∀ {call call' : Call}, ¬call.IsFor call'.level call'.token →
      ¬call'.IsFor call.level call.token := by
    rintro call call' hother ⟨hlevel, htoken⟩
    exact hother ⟨hlevel.symm, htoken.symm⟩
  have hpairwise := (List.getElem_cons_eraseIdx_perm hlt).symm.pairwise h.apart hsymm
  exact List.rel_of_pairwise_cons hpairwise hcall'

/-- Clearing leaves nothing to be served. -/
theorem Single.clear (h : x.Single ttl now) :
    Single ttl { x with cache := x.cache.clear, record := x.record ++ [(now, .cleared)] } now := by
  refine ⟨h.apart, ?_, ?_⟩
  · rintro call - rule ⟨arrived, hkept, -⟩
    exact not_kept_concat_cleared hkept
  · intro level token arrived rule hkept
    exact absurd hkept not_kept_concat_cleared

theorem Single.arrive (h : x.Single ttl now) (place : ℕ)
    (answer : Except FeeSourceError FeeRule) : (x.arrive now place answer).Single ttl now := by
  cases hplace : x.awaiting[place]? with
  | none =>
      rw [arrive_of_none hplace]
      exact h
  | some call =>
      rw [arrive_of_some hplace]
      have hmem : call ∈ x.awaiting := List.mem_of_getElem? hplace
      have hrest : ∀ call ∈ x.awaiting.eraseIdx place, call ∈ x.awaiting :=
        fun _ hcall => List.mem_of_mem_eraseIdx hcall
      have hapart := h.apart.sublist (List.eraseIdx_sublist x.awaiting place)
      cases answer with
      | error error =>
          exact h.concat Happening.noConfusion (by simp) hapart
            (fun call hcall => h.awaiting call (hrest call hcall)) _ _
      | ok rule =>
          have hbrings : ∀ {level token}, ¬call.IsFor level token →
              ∀ rule', ¬(Happening.fetched call (.ok rule)).Brings level token rule' := by
            intro level token hother rule' hbrings
            exact hother (Happening.brings_fetched_iff.mp hbrings).2
          refine ⟨hapart, ?_, ?_⟩
          · rintro call' hcall' rule' ⟨arrived, hkept, hfresh⟩
            have hother : ¬call.IsFor call'.level call'.token :=
              h.not_isFor_of_mem_eraseIdx hplace hcall'
            exact h.awaiting call' (hrest call' hcall') rule'
              ⟨arrived, hkept.of_concat (hbrings hother), hfresh⟩
          · intro level token arrived rule' hkept hfresh
            by_cases hfor : call.IsFor level token
            · obtain ⟨rfl, rfl⟩ := hfor
              obtain ⟨-, hbefore⟩ | ⟨rfl, hbrought⟩ := kept_concat_iff.mp hkept
              · exact absurd ⟨arrived, hbefore, hfresh⟩ (h.awaiting call hmem rule')
              · exact (latest_concat_iff_of_brings hbrought).mpr ⟨rfl, rfl⟩
            · rw [latest_concat_iff_of_not_brings Happening.noConfusion (hbrings hfor)]
              exact h.latest level token arrived rule' (hkept.of_concat (hbrings hfor)) hfresh

/-- Where all calls are apart, what is to be served at a time is the latest rule. -/
theorem single_run (ttl : ℕ) {events : List (ℕ × Event)} {now : ℕ}
    (hordered : (events.map Prod.fst ++ [now]).Pairwise (· ≤ ·)) (hapart : Apart ttl events) :
    (run ttl events).Single ttl now := by
  induction events using List.reverseRecOn generalizing now with
  | nil =>
      refine ⟨.nil, by simp [run], ?_⟩
      intro level token arrived rule hkept
      exact absurd hkept not_since_nil
  | append_singleton events event ih =>
      obtain ⟨time, event⟩ := event
      rw [List.map_append, List.pairwise_append] at hordered
      obtain ⟨hbefore, -, hlast⟩ := hordered
      have hsingle : (run ttl events).Single ttl time := by
        refine ih hbefore ?_
        intro earlier later now level token hevents
        refine hapart earlier (later ++ [(time, event)]) now level token ?_
        rw [hevents, List.append_assoc, List.cons_append]
      refine Single.of_le ?_ (hlast time (by simp) now (List.mem_singleton_self _))
      rw [run_concat]
      cases event with
      | called level token =>
          exact hsingle.call (cache_run ttl events) (hapart events [] time level token rfl)
      | answered place answer => exact hsingle.arrive place answer
      | cleared => exact hsingle.clear

/-! ## What comes of a call -/

/-- A call is served with a rule, and the source is left alone. -/
def Serves (x : Calls) (ttl now : ℕ) (level : FeeLevel) (token : TokenId) (rule : FeeRule) : Prop :=
  x.call ttl now level token =
    ⟨x.cache, x.made + 1, x.awaiting, x.record ++ [(now, .served ⟨x.made, level, token⟩ rule)]⟩

/-- The source is consulted for a call, and nothing that is kept changes. -/
def Consults (x : Calls) (ttl now : ℕ) (level : FeeLevel) (token : TokenId) : Prop :=
  x.call ttl now level token =
    ⟨x.cache, x.made + 1, x.awaiting ++ [⟨x.made, level, token⟩],
      x.record ++ [(now, .consulted ⟨x.made, level, token⟩)]⟩

variable {level : FeeLevel} {token : TokenId}

theorem serves_iff_find? {rule : FeeRule} :
    x.Serves ttl now level token rule ↔ x.cache.find? ttl level token now = some rule := by
  rw [Serves]
  cases hfound : x.cache.find? ttl level token now with
  | some found => simp [call_of_some hfound]
  | none => simp [call_of_none hfound]

theorem consults_iff_find? :
    x.Consults ttl now level token ↔ x.cache.find? ttl level token now = none := by
  rw [Consults]
  cases hfound : x.cache.find? ttl level token now with
  | some found => simp [call_of_some hfound]
  | none => simp [call_of_none hfound]

/-- What comes of a call or an answer at some time is told by the record.

A call is served if some rule is to be served, with the one that arrived last; otherwise the source
is consulted for it.  An answer is passed on when it arrives, and a rule takes the place of what was
kept for its level and token; a failure changes nothing that is kept.  To ask a source with a cache
before it is to make a call and, where the source is consulted, to let its answer arrive next. -/
structure FollowsRecord (ttl : ℕ) (x : Calls) (now : ℕ) : Prop where
  serves_iff : ∀ level token,
    (∃ rule, x.Serves ttl now level token rule) ↔ ∃ rule, Servable ttl x.record level token now rule
  serves_last : ∀ level token rule,
    x.Serves ttl now level token rule ↔ LastServable ttl x.record level token now rule
  consults_iff : ∀ level token,
    x.Consults ttl now level token ↔ ∀ rule, ¬Servable ttl x.record level token now rule
  fetched : ∀ place call rule, x.awaiting[place]? = some call →
    (x.arrive now place (.ok rule)).awaiting = x.awaiting.eraseIdx place ∧
      (x.arrive now place (.ok rule)).record = x.record ++ [(now, .fetched call (.ok rule))] ∧
      ∀ fee, fee ∈ (x.arrive now place (.ok rule)).cache.entries ↔
        fee = ⟨call.level, call.token, now, rule⟩ ∨
          fee ∈ x.cache.entries ∧ ¬(fee.level = call.level ∧ fee.token = call.token)
  failed : ∀ place call error, x.awaiting[place]? = some call →
    x.arrive now place (.error error) =
      ⟨x.cache, x.made, x.awaiting.eraseIdx place,
        x.record ++ [(now, .fetched call (.error error))]⟩
  asked : ∀ {ω : Type} (source : FeeSource ω) (memory : ω) level token,
    (∀ rule, x.Serves ttl now level token rule →
      (source.cached ttl).ask level token now (x.cache, memory) =
        (hit level token rule, x.cache, memory)) ∧
    (x.Consults ttl now level token →
      let (reply, rest) := source.ask level token now memory
      (source.cached ttl).ask level token now (x.cache, memory) =
        (reply, ((x.call ttl now level token).arrive (now + reply.took) x.awaiting.length
          reply.answer).cache, rest))

theorem followsRecord_of_ordered (hcache : x.cache = replay x.record)
    (hordered : (x.record.map Prod.fst).Pairwise (· ≤ ·)) (ttl now : ℕ) :
    x.FollowsRecord ttl now := by
  have hlast : ∀ level token rule, x.Serves ttl now level token rule ↔
      LastServable ttl x.record level token now rule := by
    intro level token rule
    rw [serves_iff_find?, hcache, find?_replay_eq_some_iff]
  have hserves : ∀ level token, (∃ rule, x.Serves ttl now level token rule) ↔
      ∃ rule, Servable ttl x.record level token now rule := by
    intro level token
    simp only [hlast]
    constructor
    · rintro ⟨rule, h⟩
      exact ⟨rule, h.servable⟩
    · rintro ⟨rule, h⟩
      exact h.exists_last hordered
  refine ⟨hserves, hlast, ?_, ?_, ?_, ?_⟩
  · intro level token
    rw [← not_exists, ← hserves, consults_iff_find?, Option.eq_none_iff_forall_ne_some]
    simp only [serves_iff_find?, not_exists, ne_eq]
  · intro place call rule hplace
    rw [arrive_of_some hplace]
    exact ⟨rfl, rfl, fun fee => mem_entries_store⟩
  · intro place call error hplace
    rw [arrive_of_some hplace]
    rfl
  · intro ω source memory level token
    constructor
    · intro rule hserves
      simp only [FeeSource.cached, serves_iff_find?.mp hserves]
    · intro hconsults
      have hplace : (x.call ttl now level token).awaiting[x.awaiting.length]? =
          some ⟨x.made, level, token⟩ := by
        rw [hconsults]
        exact List.getElem?_concat_length
      simp only [FeeSource.cached, consults_iff_find?.mp hconsults, arrive_of_some hplace]
      rw [hconsults]

end Calls

open Calls

/-- A cache follows its history.  Whatever calls, answers and clearings come to it in the order of
time, every call is served or has the source consulted for it once, and is passed on the answer.  A
call is served if a rule for its level and token arrived less than a lifetime ago and the cache has
not been cleared since; it is served with the one that arrived last, and where calls are apart there
is no other. -/
theorem calls_follow_history (ttl : ℕ) (events : List (ℕ × Event)) (now : ℕ)
    (hordered : (events.map Prod.fst ++ [now]).Pairwise (· ≤ ·)) :
    (run ttl events).Accounted ∧ (run ttl events).FollowsRecord ttl now ∧
      (Apart ttl events → ∀ level token rule,
        (run ttl events).Serves ttl now level token rule ↔
          Servable ttl (run ttl events).record level token now rule) := by
  have htimes := (List.pairwise_append.mp hordered).1.sublist (times_run ttl events)
  have hfollows := followsRecord_of_ordered (cache_run ttl events) htimes ttl now
  refine ⟨accounted_run ttl events, hfollows, ?_⟩
  intro hapart level token rule
  rw [hfollows.serves_last, (single_run ttl hordered hapart).servable_iff_last]

/-- Two calls overlap, and the cache is cleared after the first answer and before the second, which
arrives at 15.  Of a lifetime of 100 its rule is served at 114 and not at 115.  Calls that do not
overlap are apart. -/
theorem calls_follow_history_overlapping :
    let overlapping : List (ℕ × Event) :=
      [(0, .called .standard .mob), (5, .called .standard .mob), (10, .answered 0 (.ok (.fixed 5))),
        (12, .cleared), (15, .answered 0 (.ok (.fixed 7)))]
    let quiet : List (ℕ × Event) :=
      [(0, .called .standard .mob), (10, .answered 0 (.ok (.fixed 5)))]
    let x := run 100 overlapping
    (overlapping.map Prod.fst ++ [114]).Pairwise (· ≤ ·) ∧
      x.Serves 100 114 .standard .mob (.fixed 7) ∧
      LastServable 100 x.record .standard .mob 114 (.fixed 7) ∧
      (overlapping.map Prod.fst ++ [115]).Pairwise (· ≤ ·) ∧
      x.Consults 100 115 .standard .mob ∧
      (∀ rule, ¬Servable 100 x.record .standard .mob 115 rule) ∧
      (quiet.map Prod.fst ++ [109]).Pairwise (· ≤ ·) ∧ Apart 100 quiet ∧
      (run 100 quiet).Serves 100 109 .standard .mob (.fixed 5) ∧
      Servable 100 (run 100 quiet).record .standard .mob 109 (.fixed 5) := by
  intro overlapping quiet x
  have hserved : (overlapping.map Prod.fst ++ [114]).Pairwise (· ≤ ·) := by decide
  have hexpired : (overlapping.map Prod.fst ++ [115]).Pairwise (· ≤ ·) := by decide
  have hquiet : (quiet.map Prod.fst ++ [109]).Pairwise (· ≤ ·) := by decide
  have hapart : Apart 100 quiet := by
    intro earlier later now level token hevents
    match earlier with
    | [] => exact List.forall_mem_nil _
    | [_] | _ :: _ :: _ => simp [quiet] at hevents
  have hserves : x.Serves 100 114 .standard .mob (.fixed 7) := rfl
  have hconsults : x.Consults 100 115 .standard .mob := rfl
  have hserves' : (run 100 quiet).Serves 100 109 .standard .mob (.fixed 5) := rfl
  obtain ⟨-, hfollows, -⟩ := calls_follow_history 100 overlapping 114 hserved
  obtain ⟨-, hfollows', -⟩ := calls_follow_history 100 overlapping 115 hexpired
  obtain ⟨-, -, hiff⟩ := calls_follow_history 100 quiet 109 hquiet
  exact ⟨hserved, hserves, (hfollows.serves_last _ _ _).mp hserves, hexpired, hconsults,
    (hfollows'.consults_iff _ _).mp hconsults, hquiet, hapart, hserves',
    (hiff hapart _ _ _).mp hserves'⟩

end FeeCache
end SpendPlanner
