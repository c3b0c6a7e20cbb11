import Mathlib.Tactic
import SpendPlanner.FeeCache

/-!
# Calls of a cache

A cache is called for rules, and it is cleared.  A call that finds a rule is served at once.  Any
other call consults the source and awaits its answer.  Until the answer arrives other calls may be
made, other answers may arrive and the cache may be cleared, in any order; and an answer may be
anything whatever.

Everything that happens is put on record with its time.  The record accounts for every call, and
what the cache keeps can be told from it.
-/

namespace SpendPlanner

namespace FeeCache

/-- A call for the rule of a level and a token.  Calls are numbered in the order they are made. -/
structure Call where
  number : ℕ
  level : FeeLevel
  token : TokenId

/-- The call is for a level and a token. -/
def Call.IsFor (call : Call) (level : FeeLevel) (token : TokenId) : Prop :=
  call.level = level ∧ call.token = token

/-- Something that comes to a cache. -/
inductive Event where
  | called (level : FeeLevel) (token : TokenId)
  /-- An answer arrives for the call that stands at a place among those that await one. -/
  | answered (place : ℕ) (answer : Except FeeSourceError FeeRule)
  | cleared

/-- Something that is put on record. -/
inductive Happening where
  /-- A call is served with a rule that is kept. -/
  | served (call : Call) (rule : FeeRule)
  /-- The source is consulted for a call. -/
  | consulted (call : Call)
  /-- The answer of the source for a call arrives, and is passed on to it. -/
  | fetched (call : Call) (answer : Except FeeSourceError FeeRule)
  | cleared

/-- A cache with the calls that are made of it. -/
structure Calls where
  cache : FeeCache
  /-- How many calls have been made. -/
  made : ℕ
  /-- The calls that await an answer, in the order the source was consulted for them. -/
  awaiting : List Call
  /-- What has happened, each with its time. -/
  record : List (ℕ × Happening)

namespace Calls

/-- Calls the cache, whose rules stay good for so many milliseconds. -/
def call (x : Calls) (ttl now : ℕ) (level : FeeLevel) (token : TokenId) : Calls :=
  let call : Call := ⟨x.made, level, token⟩
  match x.cache.find? ttl level token now with
  | some rule => ⟨x.cache, x.made + 1, x.awaiting, x.record ++ [(now, .served call rule)]⟩
  | none => ⟨x.cache, x.made + 1, x.awaiting ++ [call], x.record ++ [(now, .consulted call)]⟩

/-- Lets an answer arrive for the call that stands at a place among those that await one. -/
def arrive (x : Calls) (now place : ℕ) (answer : Except FeeSourceError FeeRule) : Calls :=
  match x.awaiting[place]? with
  | some call =>
    ⟨x.cache.receive call.level call.token now answer, x.made, x.awaiting.eraseIdx place,
      x.record ++ [(now, .fetched call answer)]⟩
  | none => x

/-- What comes of an event at some time. -/
def step (ttl : ℕ) (x : Calls) : ℕ × Event → Calls
  | (now, .called level token) => x.call ttl now level token
  | (now, .answered place answer) => x.arrive now place answer
  | (now, .cleared) => { x with cache := x.cache.clear, record := x.record ++ [(now, .cleared)] }

/-- What comes of events in order, from a cache that keeps nothing yet. -/
def run (ttl : ℕ) (events : List (ℕ × Event)) : Calls :=
  events.foldl (step ttl) ⟨.empty, 0, [], []⟩

theorem run_concat (ttl : ℕ) (events : List (ℕ × Event)) (event : ℕ × Event) :
    run ttl (events ++ [event]) = (run ttl events).step ttl event := List.foldl_concat ..

variable {x : Calls} {ttl now place : ℕ} {level : FeeLevel} {token : TokenId}

theorem call_of_some {rule : FeeRule} (h : x.cache.find? ttl level token now = some rule) :
    x.call ttl now level token =
      ⟨x.cache, x.made + 1, x.awaiting,
        x.record ++ [(now, .served ⟨x.made, level, token⟩ rule)]⟩ := by
  simp only [call, h]

theorem call_of_none (h : x.cache.find? ttl level token now = none) :
    x.call ttl now level token =
      ⟨x.cache, x.made + 1, x.awaiting ++ [⟨x.made, level, token⟩],
        x.record ++ [(now, .consulted ⟨x.made, level, token⟩)]⟩ := by
  simp only [call, h]

theorem arrive_of_some {call : Call} (h : x.awaiting[place]? = some call)
    (answer : Except FeeSourceError FeeRule) :
    x.arrive now place answer =
      ⟨x.cache.receive call.level call.token now answer, x.made, x.awaiting.eraseIdx place,
        x.record ++ [(now, .fetched call answer)]⟩ := by
  simp only [arrive, h]

theorem arrive_of_none (h : x.awaiting[place]? = none)
    (answer : Except FeeSourceError FeeRule) : x.arrive now place answer = x := by
  simp only [arrive, h]

end Calls

namespace Happening

/-- The call that is made in a happening. -/
def made? : Happening → Option Call
  | served call _ | consulted call => some call
  | fetched _ _ | cleared => none

/-- The call that the source is consulted for. -/
def consulted? : Happening → Option Call
  | consulted call => some call
  | served _ _ | fetched _ _ | cleared => none

/-- The call that an answer of the source is passed on to. -/
def answered? : Happening → Option Call
  | fetched call _ => some call
  | served _ _ | consulted _ | cleared => none

end Happening

/-! ## What the record accounts for -/

namespace Calls

/-- Every call is served or has the source consulted for it, once; and to every call that the
source was consulted for an answer has been passed on, or one is still awaited. -/
structure Accounted (x : Calls) : Prop where
  made : (x.record.filterMap fun entry => entry.2.made?).map Call.number = List.range x.made
  consulted : (x.record.filterMap fun entry => entry.2.consulted?).Perm
    ((x.record.filterMap fun entry => entry.2.answered?) ++ x.awaiting)

variable {x : Calls}

theorem Accounted.call (h : x.Accounted) (ttl now : ℕ) (level : FeeLevel) (token : TokenId) :
    (x.call ttl now level token).Accounted := by
  cases hfound : x.cache.find? ttl level token now with
  | some rule =>
      rw [call_of_some hfound]
      exact ⟨by simpa [Happening.made?, List.range_succ] using h.made,
        by simpa [Happening.consulted?, Happening.answered?] using h.consulted⟩
  | none =>
      rw [call_of_none hfound]
      refine ⟨by simpa [Happening.made?, List.range_succ] using h.made, ?_⟩
      simpa [Happening.consulted?, Happening.answered?] using
        h.consulted.append_right [⟨x.made, level, token⟩]

theorem Accounted.arrive (h : x.Accounted) (now place : ℕ)
    (answer : Except FeeSourceError FeeRule) : (x.arrive now place answer).Accounted := by
  cases hplace : x.awaiting[place]? with
  | none =>
      rw [arrive_of_none hplace]
      exact h
  | some call =>
      rw [arrive_of_some hplace]
      obtain ⟨hlt, rfl⟩ := List.getElem?_eq_some_iff.mp hplace
      refine ⟨by simpa [Happening.made?] using h.made, ?_⟩
      have hmoved := h.consulted.trans
        ((List.getElem_cons_eraseIdx_perm hlt).symm.append_left _)
      simpa [Happening.consulted?, Happening.answered?] using hmoved

theorem accounted_run (ttl : ℕ) (events : List (ℕ × Event)) : (run ttl events).Accounted := by
  induction events using List.reverseRecOn with
  | nil => exact ⟨rfl, .nil⟩
  | append_singleton events event ih =>
      rw [run_concat]
      obtain ⟨now, event⟩ := event
      cases event with
      | called level token => exact ih.call ttl now level token
      | answered place answer => exact ih.arrive now place answer
      | cleared =>
          exact ⟨by simpa [step, Happening.made?] using ih.made,
            by simpa [step, Happening.consulted?, Happening.answered?] using ih.consulted⟩

end Calls

/-! ## What is kept -/

/-- The cache after something has happened at some time. -/
def after (cache : FeeCache) : ℕ × Happening → FeeCache
  | (now, .fetched call answer) => cache.receive call.level call.token now answer
  | (_, .cleared) => cache.clear
  | (_, .served _ _) | (_, .consulted _) => cache

/-- The cache that has gone through a record. -/
def replay (record : List (ℕ × Happening)) : FeeCache := record.foldl after .empty

theorem replay_concat (record : List (ℕ × Happening)) (entry : ℕ × Happening) :
    replay (record ++ [entry]) = (replay record).after entry := List.foldl_concat ..

namespace Calls

/-- An event puts at most one happening on record, at its time, and the cache goes through it. -/
theorem record_step (ttl : ℕ) (x : Calls) (now : ℕ) (event : Event) :
    (x.step ttl (now, event) = x) ∨
      ∃ happening, (x.step ttl (now, event)).record = x.record ++ [(now, happening)] ∧
        (x.step ttl (now, event)).cache = x.cache.after (now, happening) := by
  cases event with
  | called level token =>
      refine .inr ?_
      rw [step]
      cases hfound : x.cache.find? ttl level token now with
      | some rule =>
          rw [call_of_some hfound]
          exact ⟨_, rfl, rfl⟩
      | none =>
          rw [call_of_none hfound]
          exact ⟨_, rfl, rfl⟩
  | answered place answer =>
      rw [step]
      cases hplace : x.awaiting[place]? with
      | none => exact .inl (arrive_of_none hplace answer)
      | some call =>
          rw [arrive_of_some hplace]
          exact .inr ⟨_, rfl, rfl⟩
  | cleared => exact .inr ⟨.cleared, rfl, rfl⟩

/-- The record tells what the cache keeps. -/
theorem cache_run (ttl : ℕ) (events : List (ℕ × Event)) :
    (run ttl events).cache = replay (run ttl events).record := by
  induction events using List.reverseRecOn with
  | nil => rfl
  | append_singleton events event ih =>
      obtain ⟨now, event⟩ := event
      rw [run_concat]
      obtain hsame | ⟨happening, hrecord, hcache⟩ := record_step ttl (run ttl events) now event
      · rw [hsame, ih]
      · rw [hcache, hrecord, replay_concat, ih]

/-- What is on record has happened at the times of the events, in their order. -/
theorem times_run (ttl : ℕ) (events : List (ℕ × Event)) :
    ((run ttl events).record.map Prod.fst).Sublist (events.map Prod.fst) := by
  induction events using List.reverseRecOn with
  | nil => exact .slnil
  | append_singleton events event ih =>
      obtain ⟨now, event⟩ := event
      rw [run_concat, List.map_append]
      obtain hsame | ⟨happening, hrecord, -⟩ := record_step ttl (run ttl events) now event
      · rw [hsame]
        exact ih.trans (List.sublist_append_left _ _)
      · rw [hrecord, List.map_append]
        exact ih.append (.refl _)

end Calls
end FeeCache
end SpendPlanner
