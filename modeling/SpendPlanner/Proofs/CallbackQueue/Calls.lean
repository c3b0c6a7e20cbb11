import SpendPlanner.Proofs.CallbackQueue.Channels

/-!
# Calls in steps and calls in one step

A call on a queue over channels takes several steps, and workers and dropped runtimes come in
between.  Still it has the effect of delivering the callback at one moment: when the callback is
sent to a worker that is there, or is run.  Only the worker of the stored sender ever has anything
waiting, because a sender is given up when its worker is gone and stored when its worker has been
sent something.
-/

namespace SpendPlanner

variable {α : Type}

/-- The runtime on which a worker lives, if it does, and what waits for it. -/
def Worker.inbox? : Worker α → Option (ℕ × List (Callback α))
  | .alive home waiting => some (home, waiting)
  | .none | .gone => Option.none

theorem CallbackQueue.waiting_eq_of_inbox? {q : CallbackQueue α}
    {inbox : Option (ℕ × List (Callback α))} (h : q.worker.inbox? = inbox) :
    q.waiting = inbox.elim [] Prod.snd := by
  obtain ⟨worker, ran⟩ := q
  subst h
  cases worker <;> rfl

theorem CallbackQueue.lostIn_eq_of_inbox? {q : CallbackQueue α}
    {inbox : Option (ℕ × List (Callback α))} (h : q.worker.inbox? = inbox) (runtime : ℕ) :
    q.lostIn (.runtimeDropped runtime) =
      inbox.elim [] fun (home, waiting) => if home = runtime then waiting else [] := by
  obtain ⟨worker, ran⟩ := q
  subst h
  cases worker <;> rfl

namespace ChannelQueue

variable {channels : Channels α}

/-! ## Deliveries in one step -/

/-- The event of a queue that delivers in one step, if an event completes one.  A call takes
effect when its callback is sent or run. -/
def completes? (x : ChannelQueue channels) : Event channels → Option (CallbackQueue.Event α)
  | .called _ _ => none
  | .proceeded =>
    match x.call with
    | none | some (.restarting (some _) _) => none
    | some (.sending runtime callback) =>
      x.inbox?.map fun _ => .delivered (runtime.elim .outside .inside) callback
    | some (.restarting none callback) => some (.delivered .outside callback)
    | some (.spawned channel callback) =>
      some (.delivered ((channels.inbox x.world channel).elim .closing fun inbox =>
        .inside inbox.1) callback)
  | .workerStepped channel =>
    match channels.inbox x.world channel with
    | some (_, _ :: _) => some .workerStepped
    | some (_, []) | none => none
  | .runtimeDropped runtime => some (.runtimeDropped runtime)

/-- The events that are completed in the course of events. -/
def completed (x : ChannelQueue channels) :
    List (Event channels) → List (CallbackQueue.Event α)
  | [] => []
  | event :: events => (x.completes? event).toList ++ completed (x.step event) events

/-- What the stored sender says of the worker. -/
def worker (x : ChannelQueue channels) : Worker α :=
  match x.sender with
  | none => .none
  | some channel =>
    match channels.inbox x.world channel with
    | some (home, waiting) => .alive home waiting
    | none => .gone

theorem worker_of_none {x : ChannelQueue channels} (hsender : x.sender = none) :
    x.worker = .none := by
  simp only [worker, hsender]

theorem worker_of_inbox_none {x : ChannelQueue channels} {channel : channels.Channel}
    (hsender : x.sender = some channel) (hinbox : channels.inbox x.world channel = none) :
    x.worker = .gone := by
  simp only [worker, hsender, hinbox]

theorem worker_of_inbox_some {x : ChannelQueue channels} {channel : channels.Channel} {home : ℕ}
    {waiting : List (Callback α)} (hsender : x.sender = some channel)
    (hinbox : channels.inbox x.world channel = some (home, waiting)) :
    x.worker = .alive home waiting := by
  simp only [worker, hsender, hinbox]

theorem inbox?_worker (x : ChannelQueue channels) : x.worker.inbox? = x.inbox? := by
  rw [worker, inbox?]
  cases x.sender with
  | none => rfl
  | some channel =>
      simp only [Option.bind_some]
      cases channels.inbox x.world channel <;> rfl

/-- No worker is there, but for that of one channel. -/
def SilentBut (x : ChannelQueue channels) (channel : Option channels.Channel) : Prop :=
  ∀ other, channel ≠ some other → channels.inbox x.world other = none

/-- The queue has no worker, and if it had one the loss has been written down. -/
def Stopped (worker : Worker α) (lines log : List Log.Line) : Prop :=
  worker = .none ∧ log = lines ∨ worker = .gone ∧ log = lines ++ [stoppedLine]

/-- The stored sender tells of the worker, and everything is written down. -/
structure InStep (x : ChannelQueue channels) (worker : Worker α) (lines : List Log.Line) :
    Prop where
  worker : worker = x.worker
  log : x.log = lines
  silent : x.SilentBut x.sender

/-- The last worker is gone, and no other has been sent anything. -/
structure Between (x : ChannelQueue channels) (channel : Option channels.Channel)
    (worker : Worker α) (lines : List Log.Line) : Prop where
  stopped : Stopped worker lines x.log
  unlisted : x.inbox? = none
  silent : x.SilentBut channel
  empty : ∀ other home waiting,
    channels.inbox x.world other = some (home, waiting) → waiting = []

/-- The queue agrees with the worker and the log of one that delivers in one step. -/
def Agrees (x : ChannelQueue channels) (worker : Worker α) (lines : List Log.Line) : Prop :=
  match x.call with
  | none | some (.sending _ _) => x.InStep worker lines
  | some (.restarting _ _) => x.Between none worker lines
  | some (.spawned channel _) => x.sender = none ∧ x.Between (some channel) worker lines

/-- The queue has come as far as one that delivers in one step has in the course of events. -/
structure Mirrors (x : ChannelQueue channels) (events : List (CallbackQueue.Event α)) : Prop where
  called : x.called = CallbackQueue.deliveries events ++ x.pending
  ran : x.ran = (CallbackQueue.empty.run events).1.ran
  lost : x.lost = CallbackQueue.empty.lost events
  agrees : x.Agrees (CallbackQueue.empty.run events).1.worker (CallbackQueue.empty.run events).2

theorem mirrors_start (h : channels.Lawful) : (start channels).Mirrors [] where
  called := rfl
  ran := rfl
  lost := rfl
  agrees := ⟨rfl, rfl, fun other _ => h.inbox_start other⟩

section Step

variable {x x' : ChannelQueue channels} {events : List (CallbackQueue.Event α)}

/-- What has to be shown of a step that completes an event. -/
theorem Mirrors.concat {event : CallbackQueue.Event α}
    (hcalled : x'.called = CallbackQueue.deliveries events ++ event.callback?.toList ++ x'.pending)
    (hran : x'.ran = ((CallbackQueue.empty.run events).1.apply event).1.ran)
    (hlost : x'.lost = CallbackQueue.empty.lost events ++
      (CallbackQueue.empty.run events).1.lostIn event)
    (hagrees : x'.Agrees ((CallbackQueue.empty.run events).1.apply event).1.worker
      ((CallbackQueue.empty.run events).2 ++
        ((CallbackQueue.empty.run events).1.apply event).2)) :
    x'.Mirrors (events ++ [event]) where
  called := by rw [CallbackQueue.deliveries_concat, hcalled]
  ran := by rw [CallbackQueue.run_concat, hran]
  lost := by rw [CallbackQueue.lost_concat, hlost]
  agrees := by rwa [CallbackQueue.run_concat]

/-- With the worker of the last channel there is no worker left. -/
theorem SilentBut.forall_none {channel : channels.Channel} (h : x.SilentBut (some channel))
    (hnone : channels.inbox x.world channel = none) :
    ∀ other, channels.inbox x.world other = none := by
  intro other
  by_cases hother : some channel = some other
  · exact Option.some.inj hother ▸ hnone
  · exact h other hother

theorem SilentBut.becomes {channel : channels.Channel} (h : x.SilentBut (some channel))
    {inbox : Option (ℕ × List (Callback α))} {world : channels.World}
    (hbecomes : channels.Becomes x.world channel inbox world) :
    SilentBut { x with world } (some channel) := fun other hother =>
  (hbecomes.elsewhere other fun heq => hother (congrArg some heq.symm)).trans (h other hother)

theorem Stopped.deliver {q : CallbackQueue α} {lines log : List Log.Line}
    (h : Stopped q.worker lines log) (caller : Caller) (callback : Callback α) :
    (q.deliver caller callback).1 = (q.deliverAnew caller callback).1 ∧
      lines ++ (q.deliver caller callback).2 = log ++ (q.deliverAnew caller callback).2 := by
  rcases h with ⟨hworker, rfl⟩ | ⟨hworker, rfl⟩
  · simp [CallbackQueue.deliver, hworker]
  · simp [CallbackQueue.deliver, hworker, stoppedLine]

/-! ## What a call does -/

theorem step_proceeded {call : Call channels} (hcall : x.call = some call) :
    x.step .proceeded = x.proceed call := by
  simp only [step, hcall]

/-- What has to be shown of a step that ends a call. -/
theorem Mirrors.delivered (h : x.Mirrors events) {call : Call channels}
    (hcall : x.call = some call) (caller : Caller)
    (hended : x'.call = none) (hcalled : x'.called = x.called) (hlost : x'.lost = x.lost)
    (hran : x'.ran =
      ((CallbackQueue.empty.run events).1.deliver caller call.callback).1.ran)
    (hworker : ((CallbackQueue.empty.run events).1.deliver caller call.callback).1.worker =
      x'.worker)
    (hlog : x'.log = (CallbackQueue.empty.run events).2 ++
      ((CallbackQueue.empty.run events).1.deliver caller call.callback).2)
    (hsilent : x'.SilentBut x'.sender) :
    x'.Mirrors (events ++ [.delivered caller call.callback]) := by
  refine Mirrors.concat ?_ hran ?_ ?_
  · rw [hcalled, h.called, pending, pending, hcall, hended]
    exact (List.append_nil _).symm
  · rw [hlost, h.lost]
    exact (List.append_nil _).symm
  · rw [Agrees, hended]
    exact ⟨hworker, hlog, hsilent⟩

/-- A call that finds no worker and starts none runs the callback itself. -/
theorem Mirrors.runsCallback (h : x.Mirrors events) {call : Call channels}
    (hcall : x.call = some call) {caller : Caller} (hcaller : caller = .outside ∨ caller = .closing)
    (hstopped : Stopped (CallbackQueue.empty.run events).1.worker
      (CallbackQueue.empty.run events).2 x.log)
    {world : channels.World} (hsilent : ∀ channel, channels.inbox world channel = none) :
    (runCallback { x with world, sender := none, call := none } call.callback).Mirrors
      (events ++ [.delivered caller call.callback]) := by
  obtain ⟨hqueue, hlines⟩ := hstopped.deliver caller call.callback
  have hanew : (CallbackQueue.empty.run events).1.deliverAnew caller call.callback =
      (⟨.none, x.ran ++ [call.callback.value]⟩, call.callback.log) := by
    rw [h.ran]
    rcases hcaller with rfl | rfl <;> rfl
  rw [hanew] at hqueue hlines
  exact h.delivered hcall caller rfl rfl rfl (congrArg CallbackQueue.ran hqueue).symm
    (congrArg CallbackQueue.worker hqueue) hlines.symm fun other _ => hsilent other

/-- The callback of a call is sent to a worker that is there. -/
theorem Mirrors.sends (h : x.Mirrors events) {call : Call channels} (hcall : x.call = some call)
    {caller : Caller} {channel : channels.Channel} {home : ℕ} {waiting : List (Callback α)}
    (hqueue : ((CallbackQueue.empty.run events).1.deliver caller call.callback).1 =
      ⟨.alive home (waiting ++ [call.callback]), (CallbackQueue.empty.run events).1.ran⟩)
    (hlines : (CallbackQueue.empty.run events).2 ++
      ((CallbackQueue.empty.run events).1.deliver caller call.callback).2 = x.log)
    (hsilent : x.SilentBut (some channel)) {world : channels.World}
    (hsent : channels.Becomes x.world channel (some (home, waiting ++ [call.callback])) world) :
    Mirrors { x with world, sender := some channel, call := none }
      (events ++ [.delivered caller call.callback]) := by
  refine h.delivered hcall caller rfl rfl rfl ?_ ?_ hlines.symm ?_
  · rw [hqueue]
    exact h.ran
  · rw [hqueue]
    exact (worker_of_inbox_some rfl hsent.here).symm
  · exact hsilent.becomes hsent

/-- Where there is no worker at all the queue is between two. -/
theorem Between.of_forall_none {worker : Worker α} {lines : List Log.Line}
    (hstopped : Stopped worker lines x.log)
    (hnone : ∀ channel, channels.inbox x.world channel = none) : x.Between none worker lines where
  stopped := hstopped
  unlisted := by
    rw [inbox?, funext hnone]
    exact Option.bind_fun_none x.sender
  silent := fun other _ => hnone other
  empty := fun other home waiting hinbox => by simp [hnone other] at hinbox

/-- A call finds out that there is no worker. -/
theorem Mirrors.restarts (h : x.Mirrors events) {runtime : Option ℕ} {callback : Callback α}
    (hcall : x.call = some (.sending runtime callback)) {world : channels.World}
    {log : List Log.Line}
    (hstopped : Stopped (CallbackQueue.empty.run events).1.worker
      (CallbackQueue.empty.run events).2 log)
    (hnone : ∀ channel, channels.inbox world channel = none) :
    Mirrors { x with world, log, call := some (.restarting runtime callback) } events where
  called := by
    rw [h.called, pending, hcall]
    rfl
  ran := h.ran
  lost := h.lost
  agrees := Between.of_forall_none hstopped hnone

/-- A callback is sent to the worker, or the loss of the worker is found out. -/
theorem Mirrors.step_sending (hlawful : channels.Lawful) (h : x.Mirrors events)
    {runtime : Option ℕ} {callback : Callback α}
    (hcall : x.call = some (.sending runtime callback)) :
    (x.step .proceeded).Mirrors (events ++ (x.completes? .proceeded).toList) := by
  have hagrees := h.agrees
  rw [Agrees, hcall] at hagrees
  obtain ⟨hworker, hlog, hsilent⟩ := hagrees
  rw [step_proceeded hcall]
  cases hsender : x.sender with
  | none =>
      rw [hsender] at hsilent
      rw [worker_of_none hsender] at hworker
      simp only [proceed, hsender, completes?, hcall, inbox?, Option.bind_none, Option.map_none,
        Option.toList_none, List.append_nil]
      have hrestarts := h.restarts hcall (.inl ⟨hworker, hlog⟩) fun channel =>
        hsilent channel nofun
      rwa [hsender] at hrestarts
  | some channel =>
      rw [hsender] at hsilent
      cases hinbox : channels.inbox x.world channel with
      | none =>
          obtain ⟨world, hsend, hsame⟩ := hlawful.send_of_none callback hinbox
          rw [worker_of_inbox_none hsender hinbox] at hworker
          simp only [proceed, hsender, hsend, completes?, hcall, inbox?, Option.bind_some, hinbox,
            Option.map_none, Option.toList_none, List.append_nil]
          have hrestarts := h.restarts hcall (.inr ⟨hworker, congrArg (· ++ _) hlog⟩)
            (hsame ▸ hsilent.forall_none hinbox)
          rwa [hsender] at hrestarts
      | some inbox =>
          obtain ⟨home, waiting⟩ := inbox
          obtain ⟨world, hsend, hsent⟩ := hlawful.send_of_some callback hinbox
          rw [worker_of_inbox_some hsender hinbox] at hworker
          simp only [proceed, hsender, hsend, completes?, hcall, inbox?, Option.bind_some, hinbox,
            Option.map_some, Option.toList_some]
          have hdeliver : ∀ caller,
              (CallbackQueue.empty.run events).1.deliver caller callback =
                (⟨.alive home (waiting ++ [callback]), (CallbackQueue.empty.run events).1.ran⟩,
                  []) := by
            intro caller
            simp only [CallbackQueue.deliver, hworker]
          exact h.sends hcall (congrArg Prod.fst (hdeliver (runtime.elim .outside .inside)))
            (by rw [Call.callback, hdeliver, List.append_nil, hlog]) hsilent hsent

/-- A new worker has been sent nothing yet, if it is there at all. -/
theorem Between.spawn (hlawful : channels.Lawful) {worker : Worker α} {lines : List Log.Line}
    (h : x.Between none worker lines) (runtime : ℕ) (callback : Callback α) :
    (x.proceed (.restarting (some runtime) callback)).Between
      (some (channels.spawn runtime x.world).1) worker lines := by
  obtain ⟨inbox, hspawned, hempty⟩ : ∃ inbox,
      channels.Becomes x.world (channels.spawn runtime x.world).1 inbox
        (channels.spawn runtime x.world).2 ∧
      ∀ home waiting, inbox = some (home, waiting) → waiting = [] := by
    rcases hlawful.spawn runtime x.world with hspawned | hspawned
    · refine ⟨_, hspawned, fun home waiting heq => ?_⟩
      cases heq
      rfl
    · exact ⟨_, hspawned, nofun⟩
  have hothers : x.SilentBut (some (channels.spawn runtime x.world).1) :=
    fun other _ => h.silent other nofun
  have hsilent := hothers.becomes hspawned
  refine ⟨h.stopped, rfl, hsilent, fun other home waiting hinbox => ?_⟩
  by_cases hother : some (channels.spawn runtime x.world).1 = some other
  · cases hother
    exact hempty home waiting (hspawned.here.symm.trans hinbox)
  · cases (hsilent other hother).symm.trans hinbox

/-- Without a worker the callback is run, or another worker is spawned for it. -/
theorem Mirrors.step_restarting (hlawful : channels.Lawful) (h : x.Mirrors events)
    {runtime : Option ℕ} {callback : Callback α}
    (hcall : x.call = some (.restarting runtime callback)) :
    (x.step .proceeded).Mirrors (events ++ (x.completes? .proceeded).toList) := by
  have hagrees := h.agrees
  have hcalled := h.called
  rw [Agrees, hcall] at hagrees
  rw [pending, hcall] at hcalled
  rw [step_proceeded hcall]
  cases runtime with
  | none =>
      rw [completes?, hcall]
      exact h.runsCallback hcall (.inl rfl) hagrees.stopped fun other =>
        hagrees.silent other nofun
  | some runtime =>
      simp only [completes?, hcall, Option.toList_none, List.append_nil]
      exact ⟨hcalled, h.ran, h.lost, rfl, hagrees.spawn hlawful runtime callback⟩

/-- The callback is sent to the new worker, or run where that is gone. -/
theorem Mirrors.step_spawned (hlawful : channels.Lawful) (h : x.Mirrors events)
    {channel : channels.Channel} {callback : Callback α}
    (hcall : x.call = some (.spawned channel callback)) :
    (x.step .proceeded).Mirrors (events ++ (x.completes? .proceeded).toList) := by
  have hagrees := h.agrees
  rw [Agrees, hcall] at hagrees
  obtain ⟨hsender, hbetween⟩ := hagrees
  rw [step_proceeded hcall]
  cases hinbox : channels.inbox x.world channel with
  | none =>
      obtain ⟨world, hsend, hsame⟩ := hlawful.send_of_none callback hinbox
      simp only [proceed, hsend, completes?, hcall, hinbox, Option.elim_none, Option.toList_some]
      have hnone : ∀ other, channels.inbox world other = none := by
        rw [hsame]
        exact hbetween.silent.forall_none hinbox
      have hruns := h.runsCallback hcall (.inr rfl) hbetween.stopped hnone
      rwa [← hsender] at hruns
  | some inbox =>
      obtain ⟨home, waiting⟩ := inbox
      obtain rfl := hbetween.empty channel home waiting hinbox
      obtain ⟨world, hsend, hsent⟩ := hlawful.send_of_some callback hinbox
      simp only [proceed, hsend, completes?, hcall, hinbox, Option.elim_some, Option.toList_some]
      obtain ⟨hqueue, hlines⟩ := hbetween.stopped.deliver (.inside home) callback
      exact h.sends hcall hqueue (hlines.trans (List.append_nil _)) hbetween.silent hsent

/-! ## What else happens -/

/-- What keeps the queue in step, or between two workers, keeps the agreement. -/
theorem Agrees.imp {worker worker' : Worker α} {lines lines' : List Log.Line}
    (h : x.Agrees worker lines) (hcall : x'.call = x.call) (hsender : x'.sender = x.sender)
    (hinStep : x.InStep worker lines → x'.InStep worker' lines')
    (hbetween : ∀ channel, x.Between channel worker lines → x'.Between channel worker' lines') :
    x'.Agrees worker' lines' := by
  rw [Agrees] at h ⊢
  rw [hcall, hsender]
  revert h
  cases x.call with
  | none => exact hinStep
  | some call =>
      cases call with
      | sending runtime callback => exact hinStep
      | restarting runtime callback => exact hbetween none
      | spawned channel callback => exact And.imp_right (hbetween (some channel))

/-- Agreement rests on what there is at the channels alone. -/
theorem Agrees.congr {worker : Worker α} {lines : List Log.Line} (h : x.Agrees worker lines)
    {world : channels.World} (hsame : channels.inbox world = channels.inbox x.world) :
    Agrees { x with world } worker lines := by
  refine h.imp rfl rfl (fun h => ⟨?_, h.log, ?_⟩) fun channel h => ⟨h.stopped, ?_, ?_, ?_⟩
  · rw [h.worker, ChannelQueue.worker, ChannelQueue.worker, hsame]
  · exact fun other hother => (congrFun hsame other).trans (h.silent other hother)
  · rw [inbox?, hsame]
    exact h.unlisted
  · exact fun other hother => (congrFun hsame other).trans (h.silent other hother)
  · exact fun other home waiting hinbox =>
      h.empty other home waiting ((congrFun hsame other).symm.trans hinbox)

/-- A call is made, or waits for the lock. -/
theorem Mirrors.step_called (h : x.Mirrors events) (runtime : Option ℕ) (callback : Callback α) :
    (x.step (.called runtime callback)).Mirrors events := by
  cases hcall : x.call with
  | some call =>
      simp only [step, hcall]
      exact h
  | none =>
      have hagrees := h.agrees
      have hcalled := h.called
      rw [Agrees, hcall] at hagrees
      rw [pending, hcall] at hcalled
      simp only [step, hcall]
      refine ⟨?_, h.ran, h.lost, hagrees.worker, hagrees.log, hagrees.silent⟩
      rw [hcalled, Option.map_none, Option.toList_none, List.append_nil]
      rfl

theorem Agrees.inStep_or_between {worker : Worker α} {lines : List Log.Line}
    (h : x.Agrees worker lines) :
    x.InStep worker lines ∨ ∃ channel, x.Between channel worker lines := by
  rw [Agrees] at h
  revert h
  cases x.call with
  | none => exact .inl
  | some call =>
      cases call with
      | sending runtime callback => exact .inl
      | restarting runtime callback => exact fun h => .inr ⟨none, h⟩
      | spawned channel callback => exact fun h => .inr ⟨some channel, h.2⟩

/-- Both queues have the same waiting for the same worker. -/
theorem Agrees.inbox?_eq {worker : Worker α} {lines : List Log.Line} (h : x.Agrees worker lines) :
    worker.inbox? = x.inbox? := by
  rcases h.inStep_or_between with hinStep | ⟨channel, hbetween⟩
  · rw [hinStep.worker, inbox?_worker]
  · rw [hbetween.unlisted]
    rcases hbetween.stopped with ⟨rfl, -⟩ | ⟨rfl, -⟩ <;> rfl

theorem InStep.sender_of_some {worker : Worker α} {lines : List Log.Line}
    (h : x.InStep worker lines) {channel : channels.Channel} {inbox : ℕ × List (Callback α)}
    (hinbox : channels.inbox x.world channel = some inbox) : x.sender = some channel := by
  by_contra hsender
  cases (h.silent channel hsender).symm.trans hinbox

/-- The worker of the stored sender runs what it receives. -/
theorem Mirrors.receives (h : x.Mirrors events) {channel : channels.Channel} {home : ℕ}
    {callback : Callback α} {waiting : List (Callback α)}
    (hinbox : channels.inbox x.world channel = some (home, callback :: waiting))
    {world : channels.World}
    (htaken : channels.Becomes x.world channel (some (home, waiting)) world) :
    (runCallback { x with world } callback).Mirrors (events ++ [.workerStepped]) := by
  have hinStep := h.agrees.inStep_or_between.resolve_right fun ⟨_, hbetween⟩ => by
    cases hbetween.empty channel home _ hinbox
  have hsender := hinStep.sender_of_some hinbox
  have hworker := hinStep.worker
  have hsilent := hinStep.silent
  rw [worker_of_inbox_some hsender hinbox] at hworker
  rw [hsender] at hsilent
  have hqueue : (CallbackQueue.empty.run events).1.stepWorker =
      (⟨.alive home waiting, x.ran ++ [callback.value]⟩, callback.log) := by
    rw [h.ran]
    simp only [CallbackQueue.stepWorker, hworker]
    rfl
  refine Mirrors.concat ?_ ?_ ?_ (h.agrees.imp rfl rfl (fun _ => ⟨?_, ?_, ?_⟩) ?_)
  · rw [CallbackQueue.Event.callback?, Option.toList_none, List.append_nil]
    exact h.called
  · rw [CallbackQueue.apply, hqueue]
    rfl
  · rw [CallbackQueue.lostIn, List.append_nil]
    exact h.lost
  · rw [CallbackQueue.apply, hqueue]
    exact .symm (worker_of_inbox_some hsender htaken.here)
  · rw [CallbackQueue.apply, hqueue, ← hinStep.log]
    rfl
  · rw [runCallback, hsender]
    exact hsilent.becomes htaken
  · intro other hbetween
    cases hbetween.empty channel home _ hinbox

/-- A worker runs what has waited longest, if anything waits for it. -/
theorem Mirrors.step_workerStepped (hlawful : channels.Lawful) (h : x.Mirrors events)
    (channel : channels.Channel) :
    (x.step (.workerStepped channel)).Mirrors
      (events ++ (x.completes? (.workerStepped channel)).toList) := by
  by_cases hnothing : ∀ home callback waiting,
      channels.inbox x.world channel ≠ some (home, callback :: waiting)
  · obtain ⟨world, hreceive, hsame⟩ := hlawful.receive_of_nothing hnothing
    have hcompletes : x.completes? (.workerStepped channel) = none := by
      rw [completes?]
      split
      · next heq => exact absurd heq (hnothing _ _ _)
      · rfl
      · rfl
    simp only [ChannelQueue.step, hreceive, hcompletes, Option.toList_none, List.append_nil]
    exact ⟨h.called, h.ran, h.lost, h.agrees.congr hsame⟩
  · push Not at hnothing
    obtain ⟨home, callback, waiting, hinbox⟩ := hnothing
    obtain ⟨world, hreceive, htaken⟩ := hlawful.receive_of_cons hinbox
    simp only [ChannelQueue.step, hreceive, completes?, hinbox, Option.toList_some]
    exact h.receives hinbox htaken

theorem SilentBut.dropRuntime (hlawful : channels.Lawful) {channel : Option channels.Channel}
    (h : x.SilentBut channel) (runtime : ℕ) :
    (x.step (.runtimeDropped runtime)).SilentBut channel := fun other hother =>
  (hlawful.dropRuntime runtime x.world other).trans (by rw [h other hother, Option.filter_none])

theorem InStep.dropRuntime (hlawful : channels.Lawful) {q : CallbackQueue α}
    {lines : List Log.Line} (h : x.InStep q.worker lines) (runtime : ℕ) :
    (x.step (.runtimeDropped runtime)).InStep (q.dropRuntime runtime).worker lines := by
  refine ⟨.symm ?_, h.log, h.silent.dropRuntime hlawful runtime⟩
  have hworker := h.worker
  cases hsender : x.sender with
  | none =>
      rw [worker_of_none hsender] at hworker
      simp only [CallbackQueue.dropRuntime, hworker]
      exact worker_of_none hsender
  | some channel =>
      have hthere := hlawful.dropRuntime runtime x.world channel
      cases hinbox : channels.inbox x.world channel with
      | none =>
          rw [worker_of_inbox_none hsender hinbox] at hworker
          rw [hinbox, Option.filter_none] at hthere
          simp only [CallbackQueue.dropRuntime, hworker]
          exact worker_of_inbox_none hsender hthere
      | some inbox =>
          rw [worker_of_inbox_some hsender hinbox] at hworker
          rw [hinbox] at hthere
          by_cases hhome : inbox.1 = runtime
          · rw [Option.filter_some_neg (by simpa using hhome)] at hthere
            simp only [CallbackQueue.dropRuntime, hworker, hhome, if_true]
            exact worker_of_inbox_none hsender hthere
          · rw [Option.filter_some_pos (by simpa using hhome)] at hthere
            simp only [CallbackQueue.dropRuntime, hworker, hhome, if_false]
            exact worker_of_inbox_some hsender hthere

theorem Stopped.dropRuntime {q : CallbackQueue α} {lines log : List Log.Line}
    (h : Stopped q.worker lines log) (runtime : ℕ) : q.dropRuntime runtime = q := by
  rcases h with ⟨hworker, -⟩ | ⟨hworker, -⟩ <;> simp only [CallbackQueue.dropRuntime, hworker]

theorem Between.dropRuntime (hlawful : channels.Lawful) {q : CallbackQueue α}
    {lines : List Log.Line} {channel : Option channels.Channel}
    (h : x.Between channel q.worker lines) (runtime : ℕ) :
    (x.step (.runtimeDropped runtime)).Between channel (q.dropRuntime runtime).worker lines := by
  rw [h.stopped.dropRuntime runtime]
  refine ⟨h.stopped, ?_, h.silent.dropRuntime hlawful runtime, fun other home waiting hinbox => ?_⟩
  · have hunlisted := h.unlisted
    cases hsender : x.sender with
    | none => simp [inbox?, ChannelQueue.step, hsender]
    | some channel =>
        rw [inbox?, hsender, Option.bind_some] at hunlisted
        simp [inbox?, ChannelQueue.step, hsender, hlawful.dropRuntime, hunlisted]
  · have hkept := (hlawful.dropRuntime runtime x.world other).symm.trans hinbox
    exact h.empty other home waiting (Option.filter_eq_some_iff.mp hkept).1

/-- A runtime takes the worker on it along. -/
theorem Mirrors.step_runtimeDropped (hlawful : channels.Lawful) (h : x.Mirrors events)
    (runtime : ℕ) :
    (x.step (.runtimeDropped runtime)).Mirrors (events ++ [.runtimeDropped runtime]) := by
  refine Mirrors.concat ?_ ?_ ?_ ?_
  · rw [CallbackQueue.Event.callback?, Option.toList_none, List.append_nil]
    exact h.called
  · refine h.ran.trans ?_
    rw [CallbackQueue.apply, CallbackQueue.dropRuntime]
    split
    · split <;> rfl
    · rfl
    · rfl
  · rw [← h.lost, CallbackQueue.lostIn_eq_of_inbox? h.agrees.inbox?_eq]
    rfl
  · rw [CallbackQueue.apply, List.append_nil]
    exact h.agrees.imp rfl rfl (fun hinStep => hinStep.dropRuntime hlawful runtime)
      fun channel hbetween => hbetween.dropRuntime hlawful runtime

theorem Mirrors.step (hlawful : channels.Lawful) (h : x.Mirrors events) (event : Event channels) :
    (x.step event).Mirrors (events ++ (x.completes? event).toList) := by
  cases event with
  | called runtime callback =>
      rw [completes?, Option.toList_none, List.append_nil]
      exact h.step_called runtime callback
  | proceeded =>
      cases hcall : x.call with
      | none =>
          simp only [ChannelQueue.step, completes?, hcall, Option.toList_none, List.append_nil]
          exact h
      | some call =>
          cases call with
          | sending runtime callback => exact h.step_sending hlawful hcall
          | restarting runtime callback => exact h.step_restarting hlawful hcall
          | spawned channel callback => exact h.step_spawned hlawful hcall
  | workerStepped channel => exact h.step_workerStepped hlawful channel
  | runtimeDropped runtime => exact h.step_runtimeDropped hlawful runtime

end Step

/-- However its calls and its workers take turns, a queue over channels does what one does that
delivers in one step. -/
theorem Mirrors.run (hlawful : channels.Lawful) {x : ChannelQueue channels}
    {completed : List (CallbackQueue.Event α)} (h : x.Mirrors completed)
    (events : List (Event channels)) :
    (x.run events).Mirrors (completed ++ x.completed events) := by
  induction events generalizing x completed with
  | nil =>
      rw [ChannelQueue.completed, List.append_nil]
      exact h
  | cons event events ih =>
      rw [ChannelQueue.completed, ← List.append_assoc]
      exact ih (h.step hlawful event)

theorem mirrors_run (hlawful : channels.Lawful) (events : List (Event channels)) :
    ((start channels).run events).Mirrors ((start channels).completed events) :=
  (mirrors_start hlawful).run hlawful events

end ChannelQueue
end SpendPlanner
