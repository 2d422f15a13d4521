import ChatScale.RoomCluster

/-!
# Subscriptions that land later

`Run` only sends the SUBSCRIBE of a room's first client and the UNSUBSCRIBE of its
last one. Redis executes the commands of a server in the order in which they were
sent, each some time later or never, and passes a message on to the servers whose
subscription it has executed. Where no command for a channel is under way, Redis
has the channel exactly if the hub is subscribed to it.
-/

namespace ChatScale.RoomSubscriptions

open ChatScale.ByteText ChatScale.TransitionSystem
open ChatScale.RoomHubModel (roomChannel)
open ChatScale.RoomCluster (Setup Cluster nextEvent)

set_option autoImplicit false

section Commands

inductive Command where
  | subscribe (channel : Bytes)
  | unsubscribe (channel : Bytes)

def Command.channel : Command → Bytes
  | .subscribe channel => channel
  | .unsubscribe channel => channel

/-- The channels of a server at Redis after a command. -/
def execute (channels : List Bytes) : Command → List Bytes
  | .subscribe channel => channels ++ [channel]
  | .unsubscribe channel => channels.filter (· ≠ channel)

/-- What a step of `Run` sends, from the channels it was subscribed to before and
those after. -/
def sent (before after : List Bytes) : List Command :=
  (after.filter fun channel => !before.contains channel).map .subscribe ++
    (before.filter fun channel => !after.contains channel).map .unsubscribe

variable {channel : Bytes}

theorem mem_subscribed (channels added : List Bytes) :
    channel ∈ (added.map Command.subscribe).foldl execute channels ↔
      channel ∈ channels ∨ channel ∈ added := by
  induction added generalizing channels with
  | nil => simp
  | cons first added induction =>
      rw [List.map_cons, List.foldl_cons, induction, execute, List.mem_append, List.mem_singleton,
        List.mem_cons, or_assoc]

theorem mem_unsubscribed (channels removed : List Bytes) :
    channel ∈ (removed.map Command.unsubscribe).foldl execute channels ↔
      channel ∈ channels ∧ channel ∉ removed := by
  induction removed generalizing channels with
  | nil => simp
  | cons first removed induction =>
      rw [List.map_cons, List.foldl_cons, induction, execute, List.mem_filter, decide_eq_true_iff,
        List.mem_cons, not_or, and_assoc]

/-- Once executed, the commands of a step have made the change. -/
theorem mem_sent {channels before after : List Bytes}
    (same : channel ∈ channels ↔ channel ∈ before) :
    channel ∈ (sent before after).foldl execute channels ↔ channel ∈ after := by
  rw [sent, List.foldl_append, mem_unsubscribed, mem_subscribed, same]
  simp only [List.mem_filter, Bool.not_eq_true', List.contains_eq_mem, decide_eq_false_iff_not]
  tauto

theorem sent_same (channels : List Bytes) : sent channels channels = [] := by
  simp [sent]

/-- A channel that stays gets no command. -/
theorem sent_apart {before after : List Bytes} (was : channel ∈ before) (stays : channel ∈ after) :
    ∀ command ∈ sent before after, command.channel ≠ channel := by
  intro command listed
  rcases List.mem_append.mp listed with added | removed
  · rcases List.mem_map.mp added with ⟨other, new, rfl⟩
    rintro rfl
    simp at new
    exact new.2 was
  · rcases List.mem_map.mp removed with ⟨other, gone, rfl⟩
    rintro rfl
    simp at gone
    exact gone.2 stays

theorem mem_execute_apart {channels : List Bytes} {command : Command}
    (apart : command.channel ≠ channel) :
    channel ∈ execute channels command ↔ channel ∈ channels := by
  cases command with
  | subscribe other =>
      rw [execute, List.mem_append, List.mem_singleton]
      exact or_iff_left fun same => apart same.symm
  | unsubscribe other =>
      rw [execute, List.mem_filter, decide_eq_true_iff]
      exact and_iff_left fun same => apart same.symm

theorem mem_executed_apart {channels : List Bytes} {commands : List Command}
    (apart : ∀ command ∈ commands, command.channel ≠ channel) :
    channel ∈ commands.foldl execute channels ↔ channel ∈ channels := by
  induction commands generalizing channels with
  | nil => exact Iff.rfl
  | cons command commands induction =>
      rcases List.forall_mem_cons.mp apart with ⟨first, later⟩
      rw [List.foldl_cons, induction later, mem_execute_apart first]

end Commands

section Model

/-- For each server the commands that Redis has not executed yet, and the channels
it has for the server. -/
structure Brokered (Writer Place Client : Type) [DecidableEq Client] where
  cluster : Cluster Writer Place Client
  commands : Place → List Command
  channels : Place → List Bytes

inductive Action (Writer Place Client : Type) where
  | cluster (action : RoomCluster.Action Writer Place Client)
  | execute (place : Place)

variable {Writer Place Client : Type} [DecidableEq Client]

def subscriptionsAt (cluster : Cluster Writer Place Client) (place : Place) : List Bytes :=
  (cluster.servers place).state.subscriptions

/-- A command for the channel is under way. -/
def awaits (state : Brokered Writer Place Client) (place : Place) (channel : Bytes) : Bool :=
  (state.commands place).any fun command => command.channel == channel

def start : Brokered Writer Place Client := ⟨RoomCluster.start, fun _ => [], fun _ => []⟩

variable [Fintype Place]

/-- A published message goes only to servers for which Redis has the channel. -/
def reachesSubscribed (state : Brokered Writer Place Client) :
    RoomCluster.Action Writer Place Client → Bool
  | .publish relay _ reached =>
      (nextEvent (state.cluster.store.store.relays relay)).all fun event =>
        decide (∀ place, reached place = true →
          (state.channels place).contains (roomChannel event.roomID) = true)
  | _ => true

variable [DecidableEq Place] [DecidableEq Writer]

def step (setup : Setup Writer Client) (state : Brokered Writer Place Client) :
    Action Writer Place Client → Option (Brokered Writer Place Client)
  | .cluster action =>
      if reachesSubscribed state action then
        (RoomCluster.step setup state.cluster action).map fun after =>
          { state with
            cluster := after
            commands := fun place => state.commands place ++
              sent (subscriptionsAt state.cluster place) (subscriptionsAt after place) }
      else none
  | .execute place =>
      match state.commands place with
      | [] => none
      | command :: rest => some { state with
          commands := Function.update state.commands place rest
          channels := Function.update state.channels place
            (execute (state.channels place) command) }

/-- What each action does where it can be taken. -/
inductive Stepped (setup : Setup Writer Client) (state : Brokered Writer Place Client) :
    Action Writer Place Client → Brokered Writer Place Client → Prop where
  | cluster (action : RoomCluster.Action Writer Place Client) (after : Cluster Writer Place Client)
      (stepped : RoomCluster.step setup state.cluster action = some after) :
      Stepped setup state (.cluster action) { state with
        cluster := after
        commands := fun place => state.commands place ++
          sent (subscriptionsAt state.cluster place) (subscriptionsAt after place) }
  | execute (place : Place) (command : Command) (rest : List Command)
      (waiting : state.commands place = command :: rest) :
      Stepped setup state (.execute place) { state with
        commands := Function.update state.commands place rest
        channels := Function.update state.channels place
          (execute (state.channels place) command) }

theorem step_cases {setup : Setup Writer Client} {state after : Brokered Writer Place Client}
    {action : Action Writer Place Client} (stepped : step setup state action = some after) :
    Stepped setup state action after := by
  cases action with
  | cluster action =>
      simp only [step, Option.ite_none_right_eq_some] at stepped
      rcases Option.map_eq_some_iff.mp stepped.2 with ⟨cluster, moved, rfl⟩
      exact .cluster action cluster moved
  | execute place =>
      unfold step at stepped
      dsimp only at stepped
      split at stepped
      · cases stepped
      · rename_i command rest waiting
        cases stepped
        exact .execute place command rest waiting

end Model

section Invariant

variable {Writer Place Client : Type} [DecidableEq Client]
  {state after : Brokered Writer Place Client} {place : Place} {channel : Bytes}

theorem awaits_eq_false : awaits state place channel = false ↔
    ∀ command ∈ state.commands place, command.channel ≠ channel := by
  simp [awaits]

/-- With all its commands executed, Redis has the channels of the hub. -/
def Settles (state : Brokered Writer Place Client) : Prop :=
  ∀ place channel, channel ∈ (state.commands place).foldl execute (state.channels place) ↔
    channel ∈ subscriptionsAt state.cluster place

/-- Redis has a channel for which nothing is under way exactly if the hub is
subscribed to it. -/
theorem landed_iff (settles : Settles state) (landed : awaits state place channel = false) :
    channel ∈ state.channels place ↔ channel ∈ subscriptionsAt state.cluster place := by
  rw [← settles place channel, mem_executed_apart (awaits_eq_false.mp landed)]

variable [DecidableEq Place] [DecidableEq Writer] [Fintype Place] {setup : Setup Writer Client}
  {action : Action Writer Place Client}

theorem step_settles (settles : Settles state) (stepped : step setup state action = some after) :
    Settles after := by
  intro place channel
  cases step_cases stepped with
  | cluster action cluster moved =>
      dsimp only
      rw [List.foldl_append]
      exact mem_sent (settles place channel)
  | execute other command rest waiting =>
      dsimp only
      rw [← settles place channel]
      by_cases same : place = other
      · rw [same, Function.update_self, Function.update_self, waiting, List.foldl_cons]
      · rw [Function.update_of_ne same, Function.update_of_ne same]

theorem reachable_settles
    {allowed : Brokered Writer Place Client → Action Writer Place Client → Prop}
    (reached : Reachable (step setup) allowed start state) : Settles state := by
  refine reachable_invariant Settles ?_ ?_ reached
  · exact fun _ _ => Iff.rfl
  · exact fun _ _ _ settles _ stepped => step_settles settles stepped

end Invariant

end ChatScale.RoomSubscriptions
