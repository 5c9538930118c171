import Mathlib.Data.List.Nodup
import UEServer.Library.Execution

/-!
# The sessions of cluster calls

`NodeCls` of `service/clusterd/clusterd_utils.lua`: a `call` or a `probe` takes a session, sends its
request and waits until the reply with the number of the session wakes it.  The calls of a node run
in coroutines; each stretch of execution up to the next wait is one step.
-/

namespace UEServer.Cluster

inductive Phase where
  /-- In `_send`, until `__connect` has a socket. -/
  | sending
  /-- In `wait_session`, for the reply to what was sent over a socket. -/
  | waiting (sock : Nat)
  /-- Woken by the reply with a number, which is an error or not. -/
  | woken (reply : Nat) (err : Bool)
  | finished
  deriving DecidableEq

structure Call where
  id : Nat
  phase : Phase

structure Node where
  sockId : Option Nat
  lastSessionId : Nat
  /-- `session_dict`, with the coroutines of the sessions. -/
  sessionDict : Nat → Option Nat
  calls : Nat → Option Call
  opened : List Nat
  closed : List Nat
  /-- The calls that a reply resumed, with the number of the reply. -/
  resumed : List (Nat × Nat)

inductive Label where
  /-- `call` or `probe` begins in a coroutine. -/
  | call (co : Nat)
  /-- `__connect` gets a socket, for a call or for a message without a session. -/
  | connect (sock : Nat)
  | sent (co : Nat)
  | sendRaise (co : Nat)
  /-- `on_call_result`.  Nobody replies to what has not been sent. -/
  | reply (id : Nat) (err : Bool)
  | resume (co : Nat)
  | close

/-- `0x7fffffff`. -/
def maxSession : Nat := 0x7fffffff

def nextSession (id : Nat) : Nat :=
  if maxSession ≤ id + 1 then 1 else id + 1

/-- The loop of `new_session`, for as many rounds as there are numbers. -/
def freeSession (sessionDict : Nat → Option Nat) : Nat → Nat → Option Nat
  | 0, _ => none
  | rounds + 1, id =>
      if (sessionDict (nextSession id)).isNone then some (nextSession id)
      else freeSession sessionDict rounds (nextSession id)

namespace Node

def setPhase (node : Node) (co : Nat) (call : Call) (phase : Phase) : Node :=
  { node with calls := Function.update node.calls co (some { call with phase }) }

/-- `call` and `probe`, up to the first wait. -/
def startCall (node : Node) (co id : Nat) : Node :=
  { node with
    lastSessionId := id
    sessionDict := Function.update node.sessionDict id (some co)
    calls := Function.update node.calls co
      (some
        { id
          phase :=
            match node.sockId with
            | some sock => .waiting sock
            | none => .sending }) }

end Node

/-- The node after a stretch of execution, if it is possible. -/
def step (node : Node) : Label → Option Node
  | .call co =>
      match node.calls co with
      | some _ => none
      | none =>
          (freeSession node.sessionDict maxSession node.lastSessionId).map (node.startCall co)
  | .connect sock =>
      if node.sockId.isSome ∨ sock ∈ node.opened then none
      else some { node with sockId := some sock, opened := sock :: node.opened }
  | .sent co =>
      match node.calls co, node.sockId with
      | some call, some sock =>
          if call.phase = .sending then some (node.setPhase co call (.waiting sock)) else none
      | _, _ => none
  | .sendRaise co =>
      match node.calls co, node.sockId with
      | some call, none =>
          if call.phase = .sending then some (node.setPhase co call .finished) else none
      | _, _ => none
  | .reply id err =>
      match node.sessionDict id with
      -- `unknown resp` is raised
      | none => some node
      | some co =>
          let answered :=
            { node with sessionDict := Function.update node.sessionDict id none }
          match node.calls co with
          | none => none
          | some call =>
              match call.phase with
              | .sending => none
              | .waiting _ => some (answered.setPhase co call (.woken id err))
              | .woken .. | .finished => some answered
  | .resume co =>
      match node.calls co with
      | none => none
      | some call =>
          match call.phase with
          | .woken reply _ =>
              some
                { node.setPhase co call .finished with
                  sessionDict := Function.update node.sessionDict call.id none
                  resumed := node.resumed ++ [(co, reply)] }
          | _ => none
  | .close =>
      match node.sockId with
      | none => some node
      | some sock => some { node with sockId := none, closed := sock :: node.closed }

/-- `NodeCls.new`. -/
def newNode : Node where
  sockId := none
  lastSessionId := 1
  sessionDict _ := none
  calls _ := none
  opened := []
  closed := []
  resumed := []

/-- The sessions are as they should be. -/
structure Released (node : Node) : Prop where
  once : (node.resumed.map Prod.fst).Nodup
  /-- A call is resumed by the reply with the number of its session. -/
  own : ∀ co reply, (co, reply) ∈ node.resumed → ∃ call, node.calls co = some call ∧
    call.id = reply
  released : ∀ co call, node.calls co = some call → call.phase = .finished →
    node.sessionDict call.id ≠ some co
  /-- No call waits for what was sent over a socket that has been closed. -/
  closed : ∀ co call sock, node.calls co = some call → call.phase = .waiting sock →
    sock ∉ node.closed

/-- No call raises on sending, and no socket is closed over which a call has been sent that is
waiting. -/
def Undisturbed (node : Node) : Label → Prop
  | .sendRaise _ => False
  | .close => ∀ co call sock, node.calls co = some call → call.phase = .waiting sock →
      node.sockId ≠ some sock
  | _ => True

/-- What holds if nothing disturbs the calls. -/
structure Sound (node : Node) : Prop where
  session : ∀ id co, node.sessionDict id = some co → ∃ call, node.calls co = some call ∧
    call.id = id ∧ (call.phase = .sending ∨ ∃ sock, call.phase = .waiting sock)
  /-- Calls wait for what was sent over the socket that is open. -/
  waiting : ∀ co call sock, node.calls co = some call → call.phase = .waiting sock →
    node.sockId = some sock
  /-- A call is woken by the reply with the number of its session. -/
  woken : ∀ co call reply err, node.calls co = some call → call.phase = .woken reply err →
    call.id = reply
  socket : ∀ sock, node.sockId = some sock → sock ∈ node.opened ∧ sock ∉ node.closed
  closed : ∀ sock, sock ∈ node.closed → sock ∈ node.opened
  once : (node.resumed.map Prod.fst).Nodup
  /-- A call that was resumed is finished, and its reply had the number of its session. -/
  resumed : ∀ co reply, (co, reply) ∈ node.resumed → ∃ call, node.calls co = some call ∧
    call.id = reply ∧ call.phase = .finished

variable {node : Node}

theorem Sound.released (sound : Sound node) : Released node := by
  refine ⟨sound.once, fun co reply mem => ?_, fun co call found finished session => ?_,
    fun co call sock found waiting => ?_⟩
  · obtain ⟨call, found, own, -⟩ := sound.resumed co reply mem
    exact ⟨call, found, own⟩
  · obtain ⟨other, other_found, -, active⟩ := sound.session call.id co session
    cases found.symm.trans other_found
    rw [finished] at active
    rcases active with sending | ⟨sock, waiting⟩
    · cases sending
    · cases waiting
  · exact (sound.socket sock (sound.waiting co call sock found waiting)).2

theorem newNode_sound : Sound newNode := by
  refine ⟨?_, ?_, ?_, ?_, ?_, List.nodup_nil, ?_⟩ <;> simp [newNode]

theorem Sound.setPhase (sound : Sound node) {co : Nat} {call : Call}
    (found : node.calls co = some call) {phase : Phase} (unfinished : call.phase ≠ .finished)
    (session : ∀ id, node.sessionDict id = some co →
      phase = .sending ∨ ∃ sock, phase = .waiting sock)
    (waiting : ∀ sock, phase = .waiting sock → node.sockId = some sock)
    (woken : ∀ reply err, phase = .woken reply err → call.id = reply) :
    Sound (node.setPhase co call phase) := by
  have calls : ∀ other, (node.setPhase co call phase).calls other =
      if other = co then some { call with phase } else node.calls other :=
    fun other => Function.update_apply _ _ _ _
  refine { sound with
    session := fun id other mapped => ?_
    waiting := fun other other_call sock other_found other_waiting => ?_
    woken := fun other other_call reply err other_found other_woken => ?_
    resumed := fun other reply mem => ?_ }
  · obtain ⟨other_call, other_found, own, active⟩ := sound.session id other mapped
    rw [calls]
    split
    · rename_i same
      subst same
      cases found.symm.trans other_found
      exact ⟨_, rfl, own, session id mapped⟩
    · exact ⟨other_call, other_found, own, active⟩
  · rw [calls] at other_found
    split at other_found
    · cases other_found
      exact waiting sock other_waiting
    · exact sound.waiting other other_call sock other_found other_waiting
  · rw [calls] at other_found
    split at other_found
    · cases other_found
      exact woken reply err other_woken
    · exact sound.woken other other_call reply err other_found other_woken
  · obtain ⟨other_call, other_found, own, finished⟩ := sound.resumed other reply mem
    have different : other ≠ co := by
      rintro rfl
      cases found.symm.trans other_found
      exact unfinished finished
    rw [calls, if_neg different]
    exact ⟨other_call, other_found, own, finished⟩

theorem Sound.removed (sound : Sound node) (id : Nat) :
    Sound { node with sessionDict := Function.update node.sessionDict id none } := by
  refine { sound with session := fun other co mapped => ?_ }
  by_cases same : other = id
  · subst same
    simp at mapped
  · change Function.update node.sessionDict id none other = some co at mapped
    rw [Function.update_of_ne same] at mapped
    exact sound.session other co mapped

theorem Sound.own (sound : Sound node) {id co : Nat} {call : Call}
    (session : node.sessionDict id = some co) (found : node.calls co = some call) :
    call.id = id := by
  obtain ⟨other, other_found, own, -⟩ := sound.session id co session
  cases found.symm.trans other_found
  exact own

theorem Sound.startCall (sound : Sound node) {co : Nat}
    (unused : node.calls co = none) (id : Nat) : Sound (node.startCall co id) := by
  have others : ∀ {other call}, node.calls other = some call → other ≠ co := by
    rintro other call found rfl
    rw [unused] at found
    cases found
  have calls : ∀ other, (node.startCall co id).calls other =
      if other = co then some _ else node.calls other := fun other => Function.update_apply _ _ _ _
  refine { sound with
    session := fun other_id other mapped => ?_
    waiting := fun other call sock found waiting => ?_
    woken := fun other call reply err found woken => ?_
    resumed := fun other reply mem => ?_ }
  · change Function.update node.sessionDict id (some co) other_id = some other at mapped
    rw [calls]
    by_cases same : other_id = id
    · subst same
      obtain rfl : co = other := by simpa using mapped
      rw [if_pos rfl]
      refine ⟨_, rfl, rfl, ?_⟩
      cases node.sockId with
      | none => exact .inl rfl
      | some sock => exact .inr ⟨sock, rfl⟩
    · rw [Function.update_of_ne same] at mapped
      obtain ⟨call, found, own, active⟩ := sound.session other_id other mapped
      rw [if_neg (others found)]
      exact ⟨call, found, own, active⟩
  · rw [calls] at found
    split at found
    · cases found
      change node.sockId = some sock
      cases socket : node.sockId with
      | none =>
          rw [socket] at waiting
          cases waiting
      | some other_sock =>
          rw [socket] at waiting
          cases waiting
          rfl
    · exact sound.waiting other call sock found waiting
  · rw [calls] at found
    split at found
    · cases found
      cases socket : node.sockId with
      | none =>
          rw [socket] at woken
          cases woken
      | some other_sock =>
          rw [socket] at woken
          cases woken
    · exact sound.woken other call reply err found woken
  · obtain ⟨call, found, own, finished⟩ := sound.resumed other reply mem
    rw [calls, if_neg (others found)]
    exact ⟨call, found, own, finished⟩

theorem Sound.resume (sound : Sound node) {co reply : Nat} {call : Call} {err : Bool}
    (found : node.calls co = some call) (woken : call.phase = .woken reply err) :
    Sound
      { node.setPhase co call .finished with
        sessionDict := Function.update node.sessionDict call.id none
        resumed := node.resumed ++ [(co, reply)] } := by
  have unmapped : ∀ id, node.sessionDict id ≠ some co := by
    intro id session
    obtain ⟨other, other_found, -, active⟩ := sound.session id co session
    cases found.symm.trans other_found
    rw [woken] at active
    rcases active with sending | ⟨sock, waiting⟩
    · cases sending
    · cases waiting
  have finished : Sound (node.setPhase co call .finished) := by
    refine sound.setPhase found (by simp [woken]) (fun id session => absurd session (unmapped id))
      (fun sock same => ?_) fun other_reply other_err same => ?_
    · cases same
    · cases same
  have ended := finished.removed call.id
  refine { ended with
    once := ?_
    resumed := fun other other_reply mem => ?_ }
  · rw [List.map_append]
    refine List.nodup_append.mpr ⟨sound.once, List.nodup_singleton co, ?_⟩
    rintro other before _ last rfl
    cases List.mem_singleton.mp last
    obtain ⟨⟨_, other_reply⟩, mem, rfl⟩ := List.mem_map.mp before
    obtain ⟨other_call, other_found, -, finished⟩ := sound.resumed _ other_reply mem
    cases found.symm.trans other_found
    rw [woken] at finished
    cases finished
  · rcases List.mem_append.mp mem with before | last
    · exact ended.resumed other other_reply before
    · obtain ⟨rfl, rfl⟩ := Prod.mk.inj (List.mem_singleton.mp last)
      exact ⟨_, Function.update_self _ _ _, sound.woken other call other_reply err found woken, rfl⟩

theorem step_sound {before after : Node} {label : Label} (sound : Sound before)
    (undisturbed : Undisturbed before label) (taken : step before label = some after) :
    Sound after := by
  cases label with
  | call co =>
      simp only [step] at taken
      split at taken
      · cases taken
      · rename_i unused
        obtain ⟨id, free, rfl⟩ := Option.map_eq_some_iff.mp taken
        exact sound.startCall unused id
  | connect sock =>
      simp only [step] at taken
      split at taken
      · cases taken
      · rename_i possible
        cases taken
        obtain ⟨unconnected, fresh⟩ := not_or.mp possible
        have nobody : ∀ co call other, before.calls co = some call →
            call.phase ≠ .waiting other := by
          intro co call other found waiting
          simp [sound.waiting co call other found waiting] at unconnected
        refine { sound with
          waiting := fun co call other found waiting => ?_
          socket := fun other socket => ?_
          closed := fun other mem => List.mem_cons_of_mem sock (sound.closed other mem) }
        · exact absurd waiting (nobody co call other found)
        · cases socket
          exact ⟨List.mem_cons_self, fun mem => fresh (sound.closed sock mem)⟩
  | sent co =>
      simp only [step] at taken
      split at taken
      · rename_i call sock found socket
        split at taken
        · rename_i sending
          cases taken
          refine sound.setPhase found (by simp [sending]) (fun _ _ => .inr ⟨sock, rfl⟩)
            (fun other same => ?_) fun reply err same => ?_
          · cases same
            exact socket
          · cases same
        · cases taken
      · cases taken
  | sendRaise co => exact undisturbed.elim
  | reply id err =>
      simp only [step] at taken
      split at taken
      · cases taken
        exact sound
      · rename_i co session
        split at taken
        · cases taken
        · rename_i call found
          split at taken
          · cases taken
          · rename_i sock waiting
            cases taken
            have own := sound.own session found
            refine (sound.removed id).setPhase found (by simp [waiting])
              (fun other mapped => ?_) (fun other same => ?_) fun reply other same => ?_
            · change Function.update before.sessionDict id none other = some co at mapped
              have different : other ≠ id := by
                rintro rfl
                simp at mapped
              rw [Function.update_of_ne different] at mapped
              exact absurd ((sound.own mapped found).symm.trans own) different
            · cases same
            · cases same
              exact own
          · cases taken
            exact sound.removed id
          · cases taken
            exact sound.removed id
  | resume co =>
      simp only [step] at taken
      split at taken
      · cases taken
      · rename_i call found
        split at taken
        · rename_i reply err woken
          cases taken
          exact sound.resume found woken
        · cases taken
  | close =>
      simp only [step] at taken
      split at taken
      · cases taken
        exact sound
      · rename_i sock socket
        cases taken
        refine { sound with
          waiting := fun co call other found waiting => ?_
          socket := fun other same => by cases same
          closed := fun other mem => ?_ }
        · have open_sock := sound.waiting co call other found waiting
          exact absurd open_sock (undisturbed co call other found waiting)
        · rcases List.mem_cons.mp mem with rfl | mem
          · exact (sound.socket other socket).1
          · exact sound.closed other mem

/-- As long as no call raises on sending, and no socket is closed over which a waiting call was
sent, the sessions are as they should be. -/
theorem sessions_released (labels : List Label)
    (undisturbed : Execution.Guarded step Undisturbed newNode labels) :
    Execution.Always step Released newNode labels :=
  (Execution.always_of_guarded step_sound undisturbed newNode_sound).mono
    fun _ sound => sound.released

/-- The connection for a message is closed before two calls, of which the first connects again; the
replies come in the other order, and the first one twice. -/
def calmRun : List Label :=
  [.connect 5, .close, .call 10, .connect 7, .sent 10, .call 20, .reply 3 false, .resume 20,
    .reply 3 false, .reply 2 true, .resume 10]

theorem sessions_released_calmRun : Execution.Always step Released newNode calmRun := by
  refine sessions_released calmRun ?_
  refine (Execution.guarded_cons_of_step rfl).mpr ⟨trivial, ?_⟩
  refine (Execution.guarded_cons_of_step rfl).mpr ⟨?_, ?_⟩
  · intro co call sock found
    cases found
  iterate 9 refine (Execution.guarded_cons_of_step rfl).mpr ⟨trivial, ?_⟩
  trivial

/-- A call is sent, and the socket is closed. -/
def closedRun : List Label :=
  [.call 10, .connect 7, .sent 10, .close]

/-- The call goes on waiting. -/
theorem closedRun_not_released :
    ¬ ∀ (labels : List Label) (node : Node),
      Execution.run step newNode labels = some node → Released node := by
  intro claim
  have ends : ∃ node, Execution.run step newNode closedRun = some node ∧
      node.calls 10 = some { id := 2, phase := .waiting 7 } ∧ 7 ∈ node.closed := by
    exact ⟨_, rfl, rfl, List.mem_cons_self⟩
  obtain ⟨node, execution, found, closed⟩ := ends
  exact (claim closedRun node execution).closed 10 _ 7 found rfl closed

end UEServer.Cluster
