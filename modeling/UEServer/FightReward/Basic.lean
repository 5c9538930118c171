import UEServer.Library.Execution

/-!
# Fight rewards

A fight stores its prize in `fight_reward` of the role, from which the prize is added to the role when
the client has shown the fight, or when the role loses its connection.  Here are the ways in which a
session is begun and ended, one role at a time: `role_cls.lua`, `sock.lua` and `msg_handles/login.lua`.
-/

namespace UEServer.FightReward

structure Item where
  itemId : ℕ
  count : ℕ
  deriving DecidableEq

/-- `fight_reward`. -/
structure Reward where
  itemList : List Item
  reason : String
  deriving DecidableEq

/-- An item that has been added to the role, for the prize with this number. -/
structure Added where
  number : ℕ
  item : Item
  reason : String
  deriving DecidableEq

def Reward.entries (reward : Reward) (number : ℕ) : List Added :=
  reward.itemList.map fun item => ⟨number, item, reward.reason⟩

structure State (ι : Type*) where
  /-- The role is in `role_dict`. -/
  inMemory : Bool
  sockId : Option ι
  /-- `timer_logout` is pending. -/
  timerLogout : Bool
  fightReward : Option Reward
  stored : List Reward
  added : List Added
  deriving DecidableEq

def initial (ι : Type*) : State ι := ⟨false, none, false, none, [], []⟩

variable {ι : Type*}

namespace State

/-- `give_fight_reward`, where `add_item_list` may raise after some items. -/
def giveFightReward (state : State ι) (raises : Option ℕ) : State ι :=
  match state.fightReward with
  | none => state
  | some reward =>
      let entries := reward.entries (state.stored.length - 1)
      match raises with
      | none => { state with added := state.added ++ entries, fightReward := none }
      | some items => { state with added := state.added ++ entries.take items }

/-- `give_fight_reward` has returned. -/
def Returns (state : State ι) (raises : Option ℕ) : Prop :=
  state.fightReward = none ∨ raises = none

instance (state : State ι) (raises : Option ℕ) : Decidable (state.Returns raises) :=
  inferInstanceAs (Decidable (_ ∨ _))

def fight (state : State ι) (reward : Reward) : State ι :=
  { state with fightReward := some reward, stored := state.stored ++ [reward] }

/-- `on_disconnect`: the timer of the logout is set after the prize has been added. -/
def onDisconnect (state : State ι) (raises : Option ℕ) : State ι :=
  let after := { state with timerLogout := false, sockId := none }.giveFightReward raises
  if state.Returns raises then { after with timerLogout := true } else after

/-- `on_reconnect`, with the token of the role. -/
def onReconnect (state : State ι) (sock : ι) : State ι :=
  { state with timerLogout := false, sockId := some sock }

/-- `logout`, and `remove`. -/
def logout (state : State ι) : State ι :=
  { state with inMemory := false, sockId := none, timerLogout := false, fightReward := none }

/-- `load`, and `login`: a socket that the role had before is unbound. -/
def login (state : State ι) (sock : ι) : State ι :=
  { state with inMemory := true, timerLogout := false, sockId := some sock }

end State

inductive Op (ι : Type*) where
  | fight (reward : Reward)
  | stageFightEnd (raises : Option ℕ)
  | disconnect (raises : Option ℕ)
  | reconnect (sock : ι) (token : Bool)
  /-- `c_login` of the role, on some socket. -/
  | login (sock : ι)
  /-- `c_login` of another role, on the socket of the role. -/
  | otherLogin
  | clientQuit
  | kick
  | timer
  deriving DecidableEq

/-- One operation. -/
def step (state : State ι) : Op ι → Option (State ι)
  | .fight reward => if state.sockId.isSome then some (state.fight reward) else none
  | .stageFightEnd raises =>
      if state.sockId.isSome then some (state.giveFightReward raises) else none
  | .disconnect raises => if state.sockId.isSome then some (state.onDisconnect raises) else none
  | .reconnect sock token =>
      if state.inMemory then some (if token then state.onReconnect sock else state) else none
  | .login sock => some (state.login sock)
  | .otherLogin => if state.sockId.isSome then some state.logout else none
  | .clientQuit => if state.inMemory then some state.logout else none
  | .kick => if state.inMemory then some state.logout else none
  | .timer => if state.timerLogout then some state.logout else none

def State.addedFor (state : State ι) (number : ℕ) : List Added :=
  state.added.filter fun added => added.number = number

/-- The prize that waits for the client to have shown the fight, and no other one. -/
def State.Waits (state : State ι) (number : ℕ) : Prop :=
  state.fightReward.isSome ∧ number + 1 = state.stored.length

/-- Every prize has been added to the role exactly once, except for one that still waits in memory, of
which nothing has been added. -/
def Good (state : State ι) : Prop :=
  (state.fightReward.isSome → state.inMemory = true) ∧
    ∀ number reward, state.stored[number]? = some reward →
      (state.Waits number → state.addedFor number = []) ∧
        (¬ state.Waits number → state.addedFor number = reward.entries number)

/-- There is nothing in the prize that waits. -/
def State.Settled (state : State ι) : Prop := ∀ reward ∈ state.fightReward, reward.itemList = []

/-- Nothing is added before the payment raises. -/
def State.Clean (state : State ι) (raises : Option ℕ) : Prop :=
  ∀ reward ∈ state.fightReward, ∀ items ∈ raises, reward.itemList.take items = []

instance (state : State ι) : Decidable state.Settled :=
  inferInstanceAs (Decidable (∀ reward ∈ state.fightReward, reward.itemList = []))

instance (state : State ι) (raises : Option ℕ) : Decidable (state.Clean raises) :=
  inferInstanceAs (Decidable
    (∀ reward ∈ state.fightReward, ∀ items ∈ raises, reward.itemList.take items = []))

/-- No fight follows, and no session is ended, while a prize waits, except by a disconnection; and no
payment raises after an item. -/
def Permitted (state : State ι) : Op ι → Prop
  | .fight _ | .otherLogin | .clientQuit | .kick => state.Settled
  | .stageFightEnd raises | .disconnect raises => state.Clean raises
  | _ => True

instance (state : State ι) : (op : Op ι) → Decidable (Permitted state op)
  | .fight _ | .otherLogin | .clientQuit | .kick => inferInstanceAs (Decidable state.Settled)
  | .stageFightEnd raises | .disconnect raises => inferInstanceAs (Decidable (state.Clean raises))
  | .reconnect _ _ | .login _ | .timer => isTrue trivial

end UEServer.FightReward
