import SpendPlanner.Proofs.CallbackQueue.Calls

/-!
# Every callback once, and in order

Calls are made on a queue over channels one after the other, from within runtimes or outside any.
Workers step and runtimes are dropped whenever they like, also between the steps of a call.  Every
callback runs once and in its turn, unless the worker that it waits for goes down with its runtime.
-/

namespace SpendPlanner
namespace ChannelQueue

variable {α : Type} {channels : Channels α}

/-! ## What becomes of the callbacks -/

section Settled

variable {x : ChannelQueue channels} {events : List (CallbackQueue.Event α)}

theorem Mirrors.accounted (h : x.Mirrors events) :
    CallbackQueue.Accounted x.called (x.waiting ++ x.pending) x.ran x.lost := by
  obtain ⟨settled, hdelivered, hran, hlost⟩ := CallbackQueue.accounted_run events
  refine ⟨settled, ?_, h.ran.trans hran, h.lost.trans hlost⟩
  rw [h.called, hdelivered, CallbackQueue.waiting_eq_of_inbox? h.agrees.inbox?_eq,
    List.append_assoc]
  rfl

/-- No call is under way, and no worker has anything left to do. -/
structure Idle (x : ChannelQueue channels) : Prop where
  call : x.call = none
  inbox : ∀ channel home waiting,
    channels.inbox x.world channel = some (home, waiting) → waiting = []

/-- Only the worker of the stored sender may have something to do. -/
theorem Mirrors.idle_iff (h : x.Mirrors events) : x.Idle ↔ x.call = none ∧ x.waiting = [] := by
  constructor
  · rintro ⟨hcall, hinbox⟩
    refine ⟨hcall, ?_⟩
    rw [waiting, inbox?]
    cases x.sender with
    | none => rfl
    | some channel =>
        rw [Option.bind_some]
        cases hat : channels.inbox x.world channel with
        | none => rfl
        | some inbox => exact hinbox channel inbox.1 inbox.2 hat
  · rintro ⟨hcall, hwaiting⟩
    refine ⟨hcall, fun channel home waiting hinbox => ?_⟩
    rcases h.agrees.inStep_or_between with hinStep | ⟨_, hbetween⟩
    · rw [ChannelQueue.waiting, inbox?, hinStep.sender_of_some hinbox, Option.bind_some, hinbox]
        at hwaiting
      exact hwaiting
    · exact hbetween.empty channel home waiting hinbox

end Settled

/-- Whatever the runtimes and the channels are, and whatever comes between the steps of a call,
every callback that a call has been made with is accounted for: in the order of the calls each has
run or has been lost with the runtime of the worker that it was waiting for, up to those that wait
for the worker and that of the call under way.  So what runs does so in the order of the calls, and
no call's callback runs twice.  Once no call is under way and no worker has anything left to do,
every callback has run or been lost.

Calls do not overlap.  One that runs its callback itself does so in the step in which it lets go of
the lock, and the next call is made after that; of callers that overlap there the order in which
their callbacks run is left open.

Calls have the effects that delivering in one step has, and there it makes no difference to the
callbacks that run how others end, nor is any callback left waiting by a worker that goes on. -/
theorem callbacks_settle_in_order {channels : Channels α} (h : channels.Lawful) :
    (∀ events : List (Event channels),
      let x := (start channels).run events
      let done := CallbackQueue.empty.run ((start channels).completed events)
      CallbackQueue.Accounted x.called (x.waiting ++ x.pending) x.ran x.lost ∧
        x.ran.Sublist (x.called.map Callback.value) ∧
        (x.Idle → CallbackQueue.Accounted x.called [] x.ran x.lost) ∧
        x.ran = done.1.ran ∧ x.waiting = done.1.waiting ∧ (x.call = none → x.log = done.2)) ∧
    ∀ events : List (CallbackQueue.Event α),
      let q := (CallbackQueue.empty.run events).1
      let delivered := CallbackQueue.deliveries events
      let lost := CallbackQueue.empty.lost events
      CallbackQueue.Accounted delivered q.waiting q.ran lost ∧
        (CallbackQueue.empty.run (events.map CallbackQueue.Event.quiet)).1.ran = q.ran ∧
        ∃ n, let later := (CallbackQueue.empty.run (events ++ List.replicate n .workerStepped)).1
          later.waiting = [] ∧ CallbackQueue.Accounted delivered [] later.ran lost := by
  refine ⟨fun events => ?_, fun events => ?_⟩
  · intro x done
    have hmirrors : x.Mirrors ((start channels).completed events) := mirrors_run h events
    have haccounted := hmirrors.accounted
    refine ⟨haccounted, haccounted.ran_sublist, fun hidle => ?_, hmirrors.ran,
      (CallbackQueue.waiting_eq_of_inbox? hmirrors.agrees.inbox?_eq).symm, fun hcall => ?_⟩
    · obtain ⟨hcall, hwaiting⟩ := hmirrors.idle_iff.mp hidle
      rw [hwaiting, pending, hcall] at haccounted
      exact haccounted
    · have hagrees := hmirrors.agrees
      rw [Agrees, hcall] at hagrees
      exact hagrees.log
  · exact ⟨CallbackQueue.accounted_run events, CallbackQueue.ran_run_quiet events,
      CallbackQueue.exists_workerStepped events⟩

/-- Six calls, from three runtimes and outside any.  The second callback panics.  The first runtime
is dropped after the third call.  The second one is dropped in the course of the fourth call, which
has just spawned a worker on it. -/
def sixCalls : List (Event (Channels.numbered ℕ)) :=
  [.called (some 0) ⟨1, .returns⟩, .proceeded, .proceeded, .proceeded,
    .called none ⟨2, .panics "2"⟩, .proceeded, .workerStepped (0 : ℕ), .workerStepped (0 : ℕ),
    .called (some 0) ⟨3, .returns⟩, .proceeded, .runtimeDropped 0,
    .called (some 1) ⟨4, .returns⟩, .proceeded, .proceeded, .runtimeDropped 1, .proceeded,
    .called (some 2) ⟨5, .returns⟩, .proceeded, .proceeded, .proceeded,
    .called (some 2) ⟨6, .returns⟩, .proceeded, .workerStepped (2 : ℕ), .workerStepped (2 : ℕ)]

/-- Of six callbacks the third is lost with the first runtime.  The fourth is run by its call, and
the others by the workers on the first runtime and on the last. -/
theorem callbacks_settle_in_order_six_calls :
    let x := (start (Channels.numbered ℕ)).run sixCalls
    (Channels.numbered ℕ).Lawful ∧ x.Idle ∧
      x.called.map Callback.value = [1, 2, 3, 4, 5, 6] ∧ x.ran = [1, 2, 4, 5, 6] ∧
      x.lost.map Callback.value = [3] ∧ CallbackQueue.Accounted x.called [] x.ran x.lost := by
  have hlawful := Channels.numbered_lawful ℕ
  have hcall : ((start (Channels.numbered ℕ)).run sixCalls).call = none := by rfl
  have hwaiting : ((start (Channels.numbered ℕ)).run sixCalls).waiting = [] := by rfl
  have hidle := (mirrors_run hlawful sixCalls).idle_iff.mpr ⟨hcall, hwaiting⟩
  obtain ⟨-, -, hsettled, -⟩ := (callbacks_settle_in_order hlawful).1 sixCalls
  exact ⟨hlawful, hidle, by rfl, by rfl, by rfl, hsettled hidle⟩

end ChannelQueue
end SpendPlanner
