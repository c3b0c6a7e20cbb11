import SpendPlanner.Proofs.CallbackQueue.Accounting

/-!
# Queues over channels

A queue of callbacks sends them to a worker through a channel.  It keeps the sender of the channel
behind a lock and finds out that the worker is gone when sending fails, which hands the callback
back.  Then the queue spawns another worker where it is called from within a runtime, and runs the
callback itself elsewhere, or where the new worker is gone as well.

The runtimes and the channels are not part of the library, and all that is known of them is their
rules.  Calls are made one after the other; a call that runs its callback itself is over when the
callback begins.  Workers may step and runtimes may be dropped between any two steps of a call.
-/

namespace SpendPlanner

variable {α : Type}

/-- Runtimes that workers are spawned on, and channels that lead to the workers. -/
structure Channels (α : Type) where
  World : Type
  Channel : Type
  /-- The world before any worker is spawned. -/
  start : World
  /-- The runtime on which the receiver of a channel lives, if it does, and what waits for it. -/
  inbox : World → Channel → Option (ℕ × List (Callback α))
  /-- Spawns a worker on a runtime. -/
  spawn : ℕ → World → Channel × World
  /-- Sends a callback; a failure hands it back. -/
  send : Channel → Callback α → World → Except (Callback α) Unit × World
  /-- Lets the worker of a channel receive. -/
  receive : Channel → World → Option (Callback α) × World
  dropRuntime : ℕ → World → World

namespace Channels

variable (channels : Channels α)

/-- One world differs from another by what there is at one channel. -/
structure Becomes (world : channels.World) (channel : channels.Channel)
    (inbox : Option (ℕ × List (Callback α))) (world' : channels.World) : Prop where
  here : channels.inbox world' channel = inbox
  elsewhere : ∀ other, other ≠ channel →
    channels.inbox world' other = channels.inbox world other

/-- What is asked of runtimes and channels. -/
structure Lawful : Prop where
  inbox_start : ∀ channel, channels.inbox channels.start channel = none
  /-- Nothing waits for a new worker.  A runtime that is shutting down drops it at once. -/
  spawn : ∀ runtime world,
    channels.Becomes world (channels.spawn runtime world).1 (some (runtime, []))
        (channels.spawn runtime world).2 ∨
      channels.Becomes world (channels.spawn runtime world).1 none
        (channels.spawn runtime world).2
  /-- Whatever is sent waits behind what has been sent before. -/
  send_of_some : ∀ {world channel home waiting} callback,
    channels.inbox world channel = some (home, waiting) →
      ∃ world', channels.send channel callback world = (.ok (), world') ∧
        channels.Becomes world channel (some (home, waiting ++ [callback])) world'
  /-- Once the receiver is gone, and only then, what is sent is handed back. -/
  send_of_none : ∀ {world channel} callback, channels.inbox world channel = none →
    ∃ world', channels.send channel callback world = (.error callback, world') ∧
      channels.inbox world' = channels.inbox world
  /-- A worker receives what has waited longest. -/
  receive_of_cons : ∀ {world channel home callback waiting},
    channels.inbox world channel = some (home, callback :: waiting) →
      ∃ world', channels.receive channel world = (some callback, world') ∧
        channels.Becomes world channel (some (home, waiting)) world'
  receive_of_nothing : ∀ {world channel},
    (∀ home callback waiting, channels.inbox world channel ≠ some (home, callback :: waiting)) →
      ∃ world', channels.receive channel world = (none, world') ∧
        channels.inbox world' = channels.inbox world
  /-- A runtime takes its workers with it, and what waits for them. -/
  dropRuntime : ∀ runtime world channel,
    channels.inbox (channels.dropRuntime runtime world) channel =
      (channels.inbox world channel).filter fun inbox => inbox.1 ≠ runtime

/-- A world of numbered channels. -/
structure Numbered (α : Type) where
  /-- The runtimes that start nothing more. -/
  dropped : List ℕ
  next : ℕ
  inbox : ℕ → Option (ℕ × List (Callback α))

/-- The world with something else at a channel. -/
def Numbered.set (world : Numbered α) (channel : ℕ) (inbox : Option (ℕ × List (Callback α))) :
    Numbered α :=
  { world with inbox := Function.update world.inbox channel inbox }

/-- Channels that are numbered in the order they are opened. -/
def numbered (α : Type) : Channels α where
  World := Numbered α
  Channel := ℕ
  start := ⟨[], 0, fun _ => none⟩
  inbox := Numbered.inbox
  spawn runtime world :=
    (world.next, { world with next := world.next + 1 }.set world.next
      (if runtime ∈ world.dropped then none else some (runtime, [])))
  send channel callback world :=
    match world.inbox channel with
    | some (home, waiting) => (.ok (), world.set channel (some (home, waiting ++ [callback])))
    | none => (.error callback, world)
  receive channel world :=
    match world.inbox channel with
    | some (home, callback :: waiting) => (some callback, world.set channel (some (home, waiting)))
    | some (_, []) | none => (none, world)
  dropRuntime runtime world :=
    { world with
      dropped := runtime :: world.dropped
      inbox := fun channel => (world.inbox channel).filter fun inbox => inbox.1 ≠ runtime }

theorem Numbered.inbox_set_self (world : Numbered α) (channel : ℕ)
    (inbox : Option (ℕ × List (Callback α))) : (world.set channel inbox).inbox channel = inbox :=
  Function.update_self _ _ _

theorem Numbered.inbox_set_of_ne (world : Numbered α) {channel other : ℕ} (h : other ≠ channel)
    (inbox : Option (ℕ × List (Callback α))) :
    (world.set channel inbox).inbox other = world.inbox other :=
  Function.update_of_ne h _ _

theorem becomes_set {world world' : Numbered α} (h : world'.inbox = world.inbox) (channel : ℕ)
    (inbox : Option (ℕ × List (Callback α))) :
    (numbered α).Becomes world channel inbox (world'.set channel inbox) where
  here := world'.inbox_set_self channel inbox
  elsewhere := fun other hother =>
    (world'.inbox_set_of_ne hother inbox).trans (congrFun h other)

theorem numbered_lawful (α : Type) : (numbered α).Lawful where
  inbox_start := fun _ => rfl
  spawn := by
    intro runtime (world : Numbered α)
    have hspawned : (numbered α).Becomes world world.next
        (if runtime ∈ world.dropped then none else some (runtime, []))
        ((numbered α).spawn runtime world).2 :=
      @becomes_set α world { world with next := world.next + 1 } rfl _ _
    by_cases hdropped : runtime ∈ world.dropped
    · exact .inr ⟨hspawned.here.trans (if_pos hdropped), hspawned.elsewhere⟩
    · exact .inl ⟨hspawned.here.trans (if_neg hdropped), hspawned.elsewhere⟩
  send_of_some := by
    intro world channel home waiting callback hinbox
    refine ⟨_, ?_, becomes_set rfl channel _⟩
    change world.inbox channel = _ at hinbox
    simp only [numbered, hinbox]
  send_of_none := by
    intro world channel callback hinbox
    refine ⟨world, ?_, rfl⟩
    change world.inbox channel = _ at hinbox
    simp only [numbered, hinbox]
  receive_of_cons := by
    intro world channel home callback waiting hinbox
    refine ⟨_, ?_, becomes_set rfl channel _⟩
    change world.inbox channel = _ at hinbox
    simp only [numbered, hinbox]
  receive_of_nothing := by
    intro world channel hnothing
    refine ⟨world, ?_, rfl⟩
    simp only [numbered]
    split
    · next heq => exact absurd heq (hnothing _ _ _)
    · rfl
    · rfl
  dropRuntime := fun _ _ _ => rfl

end Channels

/-- How far a call that delivers a callback has got.  It holds the lock of the queue. -/
inductive ChannelQueue.Call (channels : Channels α) where
  /-- The callback is to be sent to the worker, if there is one. -/
  | sending (runtime : Option ℕ) (callback : Callback α)
  /-- There is no worker any more. -/
  | restarting (runtime : Option ℕ) (callback : Callback α)
  /-- The callback is to be sent to the worker that has just been spawned. -/
  | spawned (channel : channels.Channel) (callback : Callback α)

def ChannelQueue.Call.callback {channels : Channels α} : Call channels → Callback α
  | .sending _ callback | .restarting _ callback | .spawned _ callback => callback

/-- A queue of callbacks over channels, with what has become of them. -/
structure ChannelQueue (channels : Channels α) where
  world : channels.World
  /-- The sender that the lock protects. -/
  sender : Option channels.Channel
  /-- The call that holds the lock. -/
  call : Option (ChannelQueue.Call channels)
  /-- The callbacks that calls have been made with, in order. -/
  called : List (Callback α)
  /-- The callbacks that have run, in the order they did. -/
  ran : List α
  /-- The callbacks that were waiting for a worker when its runtime was dropped. -/
  lost : List (Callback α)
  log : List Log.Line

namespace ChannelQueue

variable {channels : Channels α}

/-- A queue nothing has been delivered to. -/
def start (channels : Channels α) : ChannelQueue channels :=
  ⟨channels.start, none, none, [], [], [], []⟩

/-- Runs a callback; a panic is contained and written down. -/
def runCallback (x : ChannelQueue channels) (callback : Callback α) : ChannelQueue channels :=
  { x with ran := x.ran ++ [callback.value], log := x.log ++ callback.log }

/-- What there is at the channel of the stored sender. -/
def inbox? (x : ChannelQueue channels) : Option (ℕ × List (Callback α)) :=
  x.sender.bind (channels.inbox x.world)

/-- What waits for the worker. -/
def waiting (x : ChannelQueue channels) : List (Callback α) := x.inbox?.elim [] Prod.snd

/-- The callback of the call that holds the lock. -/
def pending (x : ChannelQueue channels) : List (Callback α) := (x.call.map Call.callback).toList

/-- The line that is written when sending fails. -/
def stoppedLine : Log.Line := ⟨.warn, ["Delivery task stopped; restarting"]⟩

/-- What a call does next.  A callback that the call runs itself runs in the step in which the call
lets go of the lock. -/
def proceed (x : ChannelQueue channels) : Call channels → ChannelQueue channels
  | .sending runtime callback =>
    match x.sender with
    | none => { x with call := some (.restarting runtime callback) }
    | some channel =>
      match channels.send channel callback x.world with
      | (.ok (), world) => { x with world, call := none }
      | (.error returned, world) =>
        { x with
          world
          call := some (.restarting runtime returned)
          log := x.log ++ [stoppedLine] }
  | .restarting none callback => { x with sender := none, call := none }.runCallback callback
  | .restarting (some runtime) callback =>
    let (channel, world) := channels.spawn runtime x.world
    { x with world, sender := none, call := some (.spawned channel callback) }
  | .spawned channel callback =>
    match channels.send channel callback x.world with
    | (.ok (), world) => { x with world, sender := some channel, call := none }
    | (.error returned, world) => { x with world, call := none }.runCallback returned

/-- Something that happens to a queue over channels. -/
inductive Event (channels : Channels α) where
  /-- A call is made, from within a runtime or outside any. -/
  | called (runtime : Option ℕ) (callback : Callback α)
  /-- The call that holds the lock takes a step. -/
  | proceeded
  /-- The worker of a channel receives, and runs what it receives. -/
  | workerStepped (channel : channels.Channel)
  | runtimeDropped (runtime : ℕ)

/-- The queue after an event.  As long as a call holds the lock no other is made. -/
def step (x : ChannelQueue channels) : Event channels → ChannelQueue channels
  | .called runtime callback =>
    match x.call with
    | none =>
      { x with call := some (.sending runtime callback), called := x.called ++ [callback] }
    | some _ => x
  | .proceeded =>
    match x.call with
    | none => x
    | some call => x.proceed call
  | .workerStepped channel =>
    match channels.receive channel x.world with
    | (some callback, world) => { x with world }.runCallback callback
    | (none, world) => { x with world }
  | .runtimeDropped runtime =>
    { x with
      world := channels.dropRuntime runtime x.world
      lost := x.lost ++
        x.inbox?.elim [] fun (home, waiting) => if home = runtime then waiting else [] }

/-- The queue after events in order. -/
def run (x : ChannelQueue channels) (events : List (Event channels)) : ChannelQueue channels :=
  events.foldl step x

end ChannelQueue
end SpendPlanner
