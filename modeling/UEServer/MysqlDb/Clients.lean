import Mathlib.Data.Rat.Floor
import UEServer.CoLock.Correct

/-!
# The clients of a database

`get_db_client` of `game_database/db_utils.lua`.  The first call for a database publishes an empty
list of clients and fills it, one connection at a time, under a lock that all databases share;
every later call takes the list as it finds it.  A label is one uninterrupted stretch of a call: up
to its answer, to the wait for the lock, or to the connecting of a client.
-/

namespace UEServer.DbUtils

variable {τ : Type*} [DecidableEq τ]

/-- `MAX_DB_CONN_COUNT`, for the settings of the process. -/
def maxDbConnCount (getenv : String → Option String) : Nat :=
  if getenv "server_type" = some "game" then 4 else 1

/-- The assertion of `get_db_cfg`: the settings name the database. -/
def Configured (getenv : String → Option String) (dbName : String) : Prop :=
  (getenv dbName).isSome

instance (getenv : String → Option String) (dbName : String) :
    Decidable (Configured getenv dbName) :=
  inferInstanceAs (Decidable ((getenv dbName).isSome = true))

/-- A key, as `get_db_client` distinguishes them. -/
inductive Key where
  /-- `tonumber` makes a finite number of it. -/
  | number (value : ℚ)
  /-- `tonumber` makes an infinity of it, or what is not a number. -/
  | notFinite
  | text (value : String)
  | other
  deriving DecidableEq

def hash (str : String) : Nat :=
  str.toUTF8.toList.foldl (fun h byte => (h * 131 + byte.toNat) % 2 ^ 64) 0 % 2 ^ 32

/-- The integer of a key, from the `math.random` of the call if it has none. A key that is not
finite has no integer. -/
def Key.seed (random : Nat) : Key → Int
  | .number value => ⌊value⌋ % 10103
  | .notFinite => 0
  | .text value => hash value
  | .other => random

/-- Lua has the integer of the key as an integer, and not as a float. -/
def Key.Integral : Key → Prop
  | .number value => -2 ^ 63 ≤ ⌊value⌋ ∧ ⌊value⌋ < 2 ^ 63
  | .notFinite => False
  | _ => True

instance : (key : Key) → Decidable key.Integral
  | .number value => inferInstanceAs (Decidable (-2 ^ 63 ≤ ⌊value⌋ ∧ ⌊value⌋ < 2 ^ 63))
  | .notFinite => inferInstanceAs (Decidable False)
  | .text _ => inferInstanceAs (Decidable True)
  | .other => inferInstanceAs (Decidable True)

inductive Outcome where
  | client (client : Nat)
  /-- `nil`, from an index that is not a number. -/
  | noClient
  | raised
  deriving DecidableEq

/-- `client_list[1+key%(#client_list)]`. The remainder by zero is an error for an integer, and for
a float it is not a number; no remainder of what is not finite is a number. -/
def select (clientList : List Nat) (key : Key) (random : Nat) : Outcome :=
  if key = .notFinite then .noClient
  else if clientList = [] then
    if key.Integral then .raised else .noClient
  else
    match clientList[(key.seed random % clientList.length).toNat]? with
    | some client => .client client
    | none => .noClient

/-- The arguments of a call, and its `math.random`. -/
structure Call where
  dbName : String
  key : Key
  /-- What `math.random(0, 10103)` gives it. -/
  random : Nat
  deriving DecidableEq

/-- A call in the loop of `get_db_client`. -/
structure Creating extends Call where
  left : Nat

/-- The pools, the calls and the coroutines. -/
structure State (τ : Type*) where
  dbClientDict : String → Option (List Nat)
  /-- `_conn_lock`, and its coroutines. -/
  connLock : CoLock.State Unit τ Unit
  creating : τ → Option Creating
  created : Nat
  answers : List (Call × Outcome)

namespace State

/-- The `client_list` of a database. -/
def clientList (state : State τ) (dbName : String) : List Nat :=
  (state.dbClientDict dbName).getD []

def deliver (state : State τ) (thread : τ) (call : Call) (outcome : Outcome) : State τ :=
  { state with
    creating := Function.update state.creating thread none
    answers := state.answers ++ [(call, outcome)] }

/-- The end of `get_db_client`. -/
def choose (state : State τ) (thread : τ) (call : Call) : State τ :=
  state.deliver thread call (select (state.clientList call.dbName) call.key call.random)

/-- The call is suspended in a round of its loop. -/
def suspend (state : State τ) (thread : τ) (call : Call) (left : Nat) : State τ :=
  { state with
    creating := Function.update state.creating thread (some { call with left := left }) }

def withLock (state : State τ) (label : CoLock.Label Unit τ Unit) : Option (State τ) :=
  (CoLock.step state.connLock label).map fun connLock => { state with connLock := connLock }

/-- The body that `CHECK_NEW_CLIENT` runs under the lock, up to `mysql_db.new`, which connects; with
the rest of the loop, for a body that finds the list complete. -/
def body (getenv : String → Option String) (state : State τ) (thread : τ) (call : Call)
    (left : Nat) (loop : State τ → Option (State τ)) : Option (State τ) :=
  if maxDbConnCount getenv ≤ (state.clientList call.dbName).length then
    (state.withLock (.leave thread none)).bind loop
  else if Configured getenv call.dbName then
    some (state.suspend thread call left)
  else
    (state.withLock (.leave thread (some ()))).map fun failed => failed.deliver thread call .raised

/-- The rounds of `for i=1, MAX_DB_CONN_COUNT do CHECK_NEW_CLIENT(db_name) end` that are left, and
the end of the call. -/
def loop (getenv : String → Option String) (thread : τ) (call : Call) :
    Nat → State τ → Option (State τ)
  | 0, state => some (state.choose thread call)
  | left + 1, state =>
      if maxDbConnCount getenv ≤ (state.clientList call.dbName).length then
        loop getenv thread call left state
      else
        (state.withLock (.run thread ())).bind fun locking =>
          if (locking.connLock.waiting thread).isSome then
            some (locking.suspend thread call left)
          else
            locking.body getenv thread call left (loop getenv thread call left)

/-- `get_db_client`, up to its answer or its first suspension. -/
def getDbClient (getenv : String → Option String) (state : State τ) (thread : τ) (call : Call) :
    Option (State τ) :=
  match state.dbClientDict call.dbName with
  | some _ => some (state.choose thread call)
  | none =>
      loop getenv thread call (maxDbConnCount getenv)
        { state with dbClientDict := Function.update state.dbClientDict call.dbName (some []) }

/-- `table.insert(client_list, mysql_db.new(db_cfg))`, from the return of `mysql_db.new`. -/
def insert (state : State τ) (dbName : String) : State τ :=
  { state with
    dbClientDict := Function.update state.dbClientDict dbName
      (some (state.clientList dbName ++ [state.created]))
    created := state.created + 1 }

end State

/-- One uninterrupted stretch of execution. -/
inductive Label (τ : Type*) where
  | call (thread : τ) (call : Call)
  | resume (thread : τ)
  /-- The client that a coroutine is connecting is connected, or has failed to connect. -/
  | connected (thread : τ)
  | wakeWaiting

/-- Run one stretch of execution, if the coroutine it names can go on. -/
def step (getenv : String → Option String) (state : State τ) : Label τ → Option (State τ)
  | .call thread call =>
      match state.creating thread with
      | some _ => none
      | none => state.getDbClient getenv thread call
  | .resume thread =>
      match state.creating thread with
      | none => none
      | some creating =>
          (state.withLock (.resume thread)).bind fun entered =>
            entered.body getenv thread creating.toCall creating.left
              (State.loop getenv thread creating.toCall creating.left)
  | .connected thread =>
      match state.creating thread with
      | none => none
      | some creating =>
          ((state.insert creating.dbName).withLock (.leave thread none)).bind
            (State.loop getenv thread creating.toCall creating.left)
  | .wakeWaiting => state.withLock .wakeWaiting

def initial : State τ where
  dbClientDict _ := none
  connLock := CoLock.initial fun _ => false
  creating _ := none
  created := 0
  answers := []

/-- No call for a configured database has raised, and the calls for one database and key have
delivered one client. -/
structure OneClient (getenv : String → Option String) (state : State τ) : Prop where
  noRaise : ∀ answer ∈ state.answers, Configured getenv answer.1.dbName → answer.2 ≠ .raised
  /-- Two calls with the same key have delivered the same client. -/
  sameClient : ∀ first ∈ state.answers, ∀ second ∈ state.answers,
    Configured getenv first.1.dbName → first.1.dbName = second.1.dbName →
    first.1.key = second.1.key → first.1.key ≠ .other →
    ∃ client, first.2 = .client client ∧ second.2 = .client client

/-- A call for a configured database has a finite key or none, and finds the list of its clients
unpublished or complete. -/
def Settled (getenv : String → Option String) (state : State τ) : Label τ → Prop
  | .call _ call => Configured getenv call.dbName → call.key ≠ .notFinite ∧
      ∀ clientList ∈ state.dbClientDict call.dbName, maxDbConnCount getenv ≤ clientList.length
  | _ => True

instance (getenv : String → Option String) (state : State τ) :
    (label : Label τ) → Decidable (Settled getenv state label)
  | .call _ call => inferInstanceAs (Decidable (Configured getenv call.dbName →
      call.key ≠ .notFinite ∧
        ∀ clientList ∈ state.dbClientDict call.dbName,
          maxDbConnCount getenv ≤ clientList.length))
  | .resume _ => inferInstanceAs (Decidable True)
  | .connected _ => inferInstanceAs (Decidable True)
  | .wakeWaiting => inferInstanceAs (Decidable True)

/-- The lists, the calls that create their clients, and the answers taken from them. -/
structure Inv (getenv : String → Option String) (state : State τ) : Prop where
  /-- A list lacks the clients that its creating call has still to insert. -/
  creating : ∀ thread call, state.creating thread = some call →
    ∃ clientList, state.dbClientDict call.dbName = some clientList ∧
      clientList.length + call.left + 1 = maxDbConnCount getenv
  finite : ∀ thread call, state.creating thread = some call → Configured getenv call.dbName →
    call.key ≠ .notFinite
  alone : ∀ first second call call', state.creating first = some call →
    state.creating second = some call' → call.dbName = call'.dbName → first = second
  answered : ∀ answer ∈ state.answers, Configured getenv answer.1.dbName →
    answer.1.key ≠ .notFinite ∧
      ∃ clientList, state.dbClientDict answer.1.dbName = some clientList ∧
        maxDbConnCount getenv ≤ clientList.length ∧
        answer.2 = select clientList answer.1.key answer.1.random

/-- The invariant while a call is in its loop, with this many rounds left. -/
structure LoopInv (getenv : String → Option String) (state : State τ) (thread : τ) (call : Call)
    (left : Nat) : Prop where
  own : ∃ clientList, state.dbClientDict call.dbName = some clientList ∧
    clientList.length + left = maxDbConnCount getenv
  finite : Configured getenv call.dbName → call.key ≠ .notFinite
  others : ∀ other call', other ≠ thread → state.creating other = some call' →
    call'.dbName ≠ call.dbName
  rest : Inv getenv { state with creating := Function.update state.creating thread none }

theorem maxDbConnCount_pos (getenv : String → Option String) : 0 < maxDbConnCount getenv := by
  unfold maxDbConnCount
  split <;> decide

theorem select_client {clientList : List Nat} {key : Key} (random : Nat) (some_client :
    clientList ≠ []) (finite : key ≠ .notFinite) :
    ∃ client, select clientList key random = .client client := by
  have positive : (0 : Int) < clientList.length :=
    Int.natCast_pos.mpr (List.length_pos_of_ne_nil some_client)
  have inside : (key.seed random % clientList.length).toNat < clientList.length := by
    have := Int.emod_lt_of_pos (key.seed random) positive
    omega
  simp [select, finite, some_client, List.getElem?_eq_getElem inside]

theorem select_random {clientList : List Nat} {key : Key} (keyed : key ≠ .other)
    (random random' : Nat) : select clientList key random = select clientList key random' := by
  cases key <;> first | rfl | exact absurd rfl keyed

section
variable {getenv : String → Option String} {state after : State τ} {thread : τ} {call : Call}

omit [DecidableEq τ] in
theorem Inv.oneClient (inv : Inv getenv state) : OneClient getenv state where
  noRaise answer member configured := by
    obtain ⟨finite, clientList, -, complete, outcome⟩ := inv.answered answer member configured
    obtain ⟨client, selected⟩ := select_client answer.1.random
      (List.ne_nil_of_length_pos ((maxDbConnCount_pos getenv).trans_le complete)) finite
    simp [outcome, selected]
  sameClient first member second member' configured sameDb sameKey keyed := by
    obtain ⟨finite, clientList, published, complete, outcome⟩ :=
      inv.answered first member configured
    obtain ⟨-, clientList', published', -, outcome'⟩ :=
      inv.answered second member' (sameDb ▸ configured)
    obtain rfl : clientList = clientList' :=
      Option.some.inj (published.symm.trans (sameDb ▸ published'))
    obtain ⟨client, selected⟩ := select_client first.1.random
      (List.ne_nil_of_length_pos ((maxDbConnCount_pos getenv).trans_le complete)) finite
    refine ⟨client, outcome.trans selected, ?_⟩
    rw [outcome', ← sameKey, select_random keyed _ first.1.random, selected]

/-- A call that ends with an answer from a complete list, or for a database without settings. -/
theorem deliver_inv
    (rest : Inv getenv { state with creating := Function.update state.creating thread none })
    {outcome : Outcome} (settled : Configured getenv call.dbName →
      call.key ≠ .notFinite ∧ ∃ clientList, state.dbClientDict call.dbName = some clientList ∧
        maxDbConnCount getenv ≤ clientList.length ∧
        outcome = select clientList call.key call.random) :
    Inv getenv (state.deliver thread call outcome) := by
  refine { rest with answered := fun answer member configured => ?_ }
  rcases List.mem_append.mp member with old | new
  · exact rest.answered answer old configured
  · cases List.mem_singleton.mp new
    exact settled configured

variable {left : Nat}

theorem suspend_inv (inv : LoopInv getenv state thread call (left + 1)) :
    Inv getenv (state.suspend thread call left) := by
  obtain ⟨⟨clientList, published, length⟩, finite, others, creating, finites, alone, answered⟩ := inv
  refine ⟨fun other call' creates => ?_, fun other call' creates => ?_,
    fun first second call' call'' creates creates' same => ?_, answered⟩
  · simp only [State.suspend, Function.update_apply] at creates
    split at creates
    · cases creates
      exact ⟨clientList, published, by omega⟩
    · rename_i different
      exact creating other call' (by simpa [Function.update_apply, different] using creates)
  · simp only [State.suspend, Function.update_apply] at creates
    split at creates
    · cases creates
      exact finite
    · rename_i different
      exact finites other call' (by simpa [Function.update_apply, different] using creates)
  · simp only [State.suspend, Function.update_apply] at creates creates'
    by_cases here : first = thread <;> by_cases here' : second = thread
    · exact here.trans here'.symm
    · simp only [here, here', if_true, if_false, Option.some.injEq] at creates creates'
      subst creates
      exact absurd same.symm (others second call'' here' creates')
    · simp only [here, here', if_true, if_false, Option.some.injEq] at creates creates'
      subst creates'
      exact absurd same (others first call' here creates)
    · simp only [here, here', if_false] at creates creates'
      exact alone first second call' call'' (by simp [here, creates])
        (by simp [here', creates']) same

omit [DecidableEq τ] in
theorem withLock_eq_some {label : CoLock.Label Unit τ Unit} [DecidableEq τ]
    (taken : state.withLock label = some after) :
    ∃ connLock, after = { state with connLock := connLock } := by
  obtain ⟨connLock, -, rfl⟩ := Option.map_eq_some_iff.mp taken
  exact ⟨connLock, rfl⟩

theorem LoopInv.withLock (inv : LoopInv getenv state thread call left)
    (connLock : CoLock.State Unit τ Unit) :
    LoopInv getenv { state with connLock := connLock } thread call left :=
  ⟨inv.own, inv.finite, inv.others, inv.rest.creating, inv.rest.finite, inv.rest.alone,
    inv.rest.answered⟩

theorem body_inv {loop : State τ → Option (State τ)}
    (inv : LoopInv getenv state thread call (left + 1))
    (taken : state.body getenv thread call left loop = some after) : Inv getenv after := by
  obtain ⟨clientList, published, length⟩ := inv.own
  unfold State.body at taken
  split at taken
  · rename_i complete
    simp only [State.clientList, published, Option.getD_some] at complete
    omega
  · split at taken
    · cases taken
      exact suspend_inv inv
    · rename_i missing
      obtain ⟨failed, locked, rfl⟩ := Option.map_eq_some_iff.mp taken
      obtain ⟨connLock, rfl⟩ := withLock_eq_some locked
      have rest : Inv getenv { state with
          connLock := connLock
          creating := Function.update state.creating thread none } :=
        { inv.rest with }
      exact deliver_inv rest fun configured => absurd configured missing

/-- The rest of the loop leads to an answer from the complete list, or to a suspension. -/
theorem loop_inv (inv : LoopInv getenv state thread call left)
    (taken : State.loop getenv thread call left state = some after) : Inv getenv after := by
  obtain ⟨clientList, published, length⟩ := inv.own
  cases left with
  | zero =>
      cases taken
      refine deliver_inv inv.rest fun configured => ⟨inv.finite configured, clientList, published,
        by omega, ?_⟩
      simp [State.clientList, published]
  | succ left =>
      unfold State.loop at taken
      split at taken
      · rename_i complete
        simp only [State.clientList, published, Option.getD_some] at complete
        omega
      · obtain ⟨locking, locked, rest⟩ := Option.bind_eq_some_iff.mp taken
        obtain ⟨connLock, rfl⟩ := withLock_eq_some locked
        split at rest
        · cases rest
          exact suspend_inv (inv.withLock connLock)
        · exact body_inv (inv.withLock connLock) rest

theorem forget_inv (inv : Inv getenv state) (thread : τ) :
    Inv getenv { state with creating := Function.update state.creating thread none } := by
  have kept : ∀ {other : τ} {call : Creating},
      Function.update state.creating thread none other = some call →
        state.creating other = some call := by
    intro other call creates
    rw [Function.update_apply] at creates
    split at creates
    · cases creates
    · exact creates
  exact ⟨fun other call creates => inv.creating other call (kept creates),
    fun other call creates => inv.finite other call (kept creates),
    fun first second call call' creates creates' =>
      inv.alone first second call call' (kept creates) (kept creates'), inv.answered⟩

theorem Inv.loopInv (inv : Inv getenv state) {creating : Creating}
    (creates : state.creating thread = some creating) :
    LoopInv getenv state thread creating.toCall (creating.left + 1) where
  own := by
    obtain ⟨clientList, published, length⟩ := inv.creating thread creating creates
    exact ⟨clientList, published, by omega⟩
  finite := inv.finite thread creating creates
  others other call' different creates' sameDb :=
    different (inv.alone other thread call' creating creates' creates sameDb)
  rest := forget_inv inv thread

/-- A list that is extended, or published, belongs to no answer and to no other call. -/
theorem publish_inv {clientList : List Nat} {created : Nat}
    (rest : Inv getenv { state with creating := Function.update state.creating thread none })
    (length : clientList.length + left = maxDbConnCount getenv)
    (finite : Configured getenv call.dbName → call.key ≠ .notFinite)
    (others : ∀ other call', other ≠ thread → state.creating other = some call' →
      call'.dbName ≠ call.dbName)
    (incomplete : ∀ old, state.dbClientDict call.dbName = some old →
      old.length < maxDbConnCount getenv) :
    LoopInv getenv
      { state with
        dbClientDict := Function.update state.dbClientDict call.dbName (some clientList)
        created := created } thread call left := by
  refine ⟨⟨clientList, by simp, length⟩, finite, others, fun other call' creates => ?_,
    rest.finite, rest.alone, fun answer member configured => ?_⟩
  · have otherDb : call'.dbName ≠ call.dbName := by
      simp only [Function.update_apply] at creates
      split at creates
      · cases creates
      · rename_i different
        exact others other call' different creates
    simpa [Function.update_of_ne otherDb] using rest.creating other call' creates
  · obtain ⟨finite, old, published, complete, outcome⟩ := rest.answered answer member configured
    have otherDb : answer.1.dbName ≠ call.dbName := by
      intro same
      have short := incomplete old (same ▸ published)
      omega
    exact ⟨finite, old, by simpa [Function.update_of_ne otherDb] using published, complete,
      outcome⟩

/-- Every stretch of execution that finds complete lists keeps the invariant. -/
theorem step_inv {label : Label τ} (inv : Inv getenv state) (settled : Settled getenv state label)
    (taken : step getenv state label = some after) : Inv getenv after := by
  cases label with
  | call thread call =>
      simp only [step] at taken
      split at taken
      · cases taken
      · unfold State.getDbClient at taken
        split at taken
        · rename_i clientList published
          cases taken
          refine deliver_inv (forget_inv inv thread) fun configured => ?_
          obtain ⟨finite, complete⟩ := settled configured
          exact ⟨finite, clientList, published, complete clientList published,
            by simp [State.clientList, published]⟩
        · rename_i unpublished
          refine loop_inv (publish_inv (forget_inv inv thread) ?_
            (fun configured => (settled configured).1) ?_ ?_) taken
          · simp
          · intro other call' _ creates sameDb
            obtain ⟨clientList, published, -⟩ := inv.creating other call' creates
            simp [sameDb, unpublished] at published
          · simp [unpublished]
  | resume thread =>
      simp only [step] at taken
      split at taken
      · cases taken
      · rename_i creating creates
        obtain ⟨entered, locked, rest⟩ := Option.bind_eq_some_iff.mp taken
        obtain ⟨connLock, rfl⟩ := withLock_eq_some locked
        exact body_inv ((inv.loopInv creates).withLock connLock) rest
  | connected thread =>
      simp only [step] at taken
      split at taken
      · cases taken
      · rename_i creating creates
        obtain ⟨released, locked, rest⟩ := Option.bind_eq_some_iff.mp taken
        obtain ⟨connLock, rfl⟩ := withLock_eq_some locked
        have loop := inv.loopInv creates
        obtain ⟨clientList, published, length⟩ := loop.own
        have extended : LoopInv getenv (state.insert creating.dbName) thread creating.toCall
            creating.left := by
          refine publish_inv loop.rest ?_ loop.finite loop.others ?_
          · simp only [State.clientList, published, Option.getD_some, List.length_append,
              List.length_singleton]
            omega
          · intro old published'
            cases published.symm.trans published'
            omega
        exact loop_inv (extended.withLock connLock) rest
  | wakeWaiting =>
      obtain ⟨connLock, rfl⟩ := withLock_eq_some taken
      exact { inv with }

omit [DecidableEq τ] in
theorem initial_inv (getenv : String → Option String) : Inv getenv (initial : State τ) := by
  constructor <;> simp [initial]

end

/-- In an execution whose calls find complete lists, or are the first for their database, no call
raises and the calls for one key get one client. -/
theorem oneClient_of_settled {getenv : String → Option String} {labels : List (Label τ)}
    (settled : Execution.Guarded (step getenv) (Settled getenv) initial labels) :
    Execution.Always (step getenv) (OneClient getenv) initial labels :=
  (Execution.always_of_guarded step_inv settled (initial_inv getenv)).mono
    fun _ inv => inv.oneClient

def gameEnv (name : String) : Option String :=
  if name = "server_type" then some "game"
  else if name = "gamedb" ∨ name = "logdb" then some "hd_game"
  else none

def keyed (dbName : String) (value : ℚ) : Call where
  dbName := dbName
  key := .number value
  random := 0

/-- Two databases whose first calls share the lock, and then a second call with the key of the
first. -/
def settledRun : List (Label Nat) :=
  [.call 0 (keyed "gamedb" 7), .call 1 (keyed "logdb" 7), .connected 0, .wakeWaiting, .connected 0,
    .connected 0, .connected 0, .wakeWaiting, .resume 1, .connected 1, .connected 1, .connected 1,
    .connected 1, .call 2 (keyed "gamedb" 7)]

theorem oneClient_of_settled_settledRun :
    Execution.Always (step gameEnv) (OneClient gameEnv) initial settledRun :=
  oneClient_of_settled (by decide +kernel)

/-- Calls that arrive while the first call is connecting. -/
def startRun : List (Label Nat) :=
  [.call 0 (keyed "gamedb" 7), .call 1 (keyed "gamedb" 7), .connected 0,
    .call 2 (keyed "gamedb" 7), .connected 0, .connected 0, .connected 0]

/-- At the start of a game server a call raises, and two calls with one key get two clients. -/
theorem startRun_not_oneClient :
    ∃ state, Execution.run (step gameEnv) initial startRun = some state ∧
      state.answers = [(keyed "gamedb" 7, .raised), (keyed "gamedb" 7, .client 0),
        (keyed "gamedb" 7, .client 3)] ∧ ¬ OneClient gameEnv state := by
  have answers : ((Execution.run (step gameEnv) initial startRun).map fun state => state.answers) =
      some [(keyed "gamedb" 7, .raised), (keyed "gamedb" 7, .client 0),
        (keyed "gamedb" 7, .client 3)] := by decide +kernel
  obtain ⟨state, execution, answered⟩ := Option.map_eq_some_iff.mp answers
  refine ⟨state, execution, answered, fun oneClient => ?_⟩
  exact oneClient.noRaise (keyed "gamedb" 7, .raised) (by simp [answered]) (by decide) rfl

end UEServer.DbUtils
