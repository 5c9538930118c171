import UEServer.Library.Execution

/-!
# The address book of the cluster router

`addr_mgr` of `service/cluster_router/addr_mgr.lua`, with the heartbeats that the nodes send from
`service/clusterd/clusterd_utils.lua`.  A heartbeat arrives or is lost.  The list of all games and
the `.clusterd` of the router itself are left out.
-/

namespace UEServer.Cluster
namespace AddrMgr

/-- What a running node knows for its heartbeats. -/
structure Process where
  /-- `self_node_addr`. -/
  addr : String
  refreshAllCount : Nat

structure State where
  /-- `node_dict`; the address of a node that is down is empty. -/
  nodeDict : String → Option String
  downNodeDict : String → Option String
  processes : String → Option Process
  /-- The address of the second node in the last `ls_update_node_addr` to the first that has
  one. -/
  sent : String → String → Option String

namespace State

def isUp (state : State) (node : String) : Bool :=
  match state.nodeDict node with
  | none => false
  | some addr => addr ≠ ""

/-- `ls_update_node_addr` is sent to nodes. -/
def sendTo (state : State) (receives : String → Bool) (data : String → Option String) : State :=
  { state with
    sent := fun node other =>
      if receives node then (data other).or (state.sent node other) else state.sent node other }

def broadcastNodeAddr (state : State) (nodeName addr : String) : State :=
  state.sendTo (fun node => node ≠ nodeName && state.isUp node)
    fun other => if other = nodeName then some addr else none

/-- The address of a node is set and broadcast. -/
def setAddr (state : State) (nodeName addr : String) : State :=
  { state with
    nodeDict := Function.update state.nodeDict nodeName (some addr) }.broadcastNodeAddr nodeName addr

def refreshAll (state : State) (nodeName : String) : State :=
  state.sendTo (fun node => node = nodeName) state.nodeDict

def heard (state : State) (nodeName : String) : State :=
  { state with downNodeDict := Function.update state.downNodeDict nodeName none }

def onNodeHeartbreak (state : State) (nodeName addr : String) (refresh : Bool) : State :=
  match state.nodeDict nodeName with
  | none => (((state.heard nodeName).setAddr nodeName addr).refreshAll nodeName).refreshAll nodeName
  | some old =>
      let known :=
        if old = addr then state.heard nodeName else (state.heard nodeName).setAddr nodeName addr
      if refresh then known.refreshAll nodeName else known

def onNodeShutdown (state : State) (nodeName : String) : State :=
  (state.heard nodeName).setAddr nodeName ""

/-- The nodes that have not been heard are down. -/
def markDown (state : State) : State :=
  { state with
    nodeDict := fun node =>
      if (state.downNodeDict node).isSome then some "" else state.nodeDict node }

def checkDownNode (state : State) : State :=
  let marked := state.markDown
  { marked.sendTo marked.isUp state.downNodeDict with
    downNodeDict := fun node => if marked.isUp node then some "" else none }

end State

inductive Label where
  | start (node addr : String)
  /-- `send_heartbreak` of a node: the heartbeat arrives, or it is lost. -/
  | sendHeartbreak (node : String) (arrives : Bool)
  | shutdown (node : String)
  | checkDownNode

/-- The state after a label, if it is possible. -/
def step (state : State) : Label → Option State
  | .start node addr =>
      some
        { state with
          processes := Function.update state.processes node
            (some { addr, refreshAllCount := 3 }) }
  | .sendHeartbreak node arrives =>
      match state.processes node with
      | none => none
      | some process =>
          let sending :=
            { state with
              processes := Function.update state.processes node
                (some { process with refreshAllCount := process.refreshAllCount - 1 }) }
          if arrives then
            some (sending.onNodeHeartbreak node process.addr (0 < process.refreshAllCount))
          else some sending
  | .shutdown node => some (state.onNodeShutdown node)
  | .checkDownNode => some state.checkDownNode

/-- The router has been started, and no node. -/
def initial : State where
  nodeDict _ := none
  downNodeDict _ := none
  processes _ := none
  sent _ _ := none

/-- The node has been sent the latest address, or the down notice, of every other node. -/
def Informed (state : State) (node : String) : Prop :=
  ∀ other addr, other ≠ node → state.nodeDict other = some addr →
    state.sent node other = some addr

/-- Every node that the router considers up is informed. -/
def Fresh (state : State) : Prop :=
  ∀ node, state.isUp node → Informed state node

/-- A heartbeat by which a node comes back that was down asks for the whole book, or the node is
informed nevertheless. -/
def Refreshed (state : State) : Label → Prop
  | .sendHeartbreak node true =>
      ∀ process, state.processes node = some process → process.addr ≠ "" →
        state.nodeDict node = some "" → process.refreshAllCount = 0 → Informed state node
  | _ => True

variable {state : State} {node nodeName addr : String}

theorem isUp_iff : state.isUp node ↔ ∃ addr, state.nodeDict node = some addr ∧ addr ≠ "" := by
  unfold State.isUp
  cases state.nodeDict node <;> simp

theorem isUp_congr {other : State} (same : other.nodeDict node = state.nodeDict node) :
    other.isUp node = state.isUp node := by
  unfold State.isUp
  rw [same]

theorem setAddr_nodeDict :
    (state.setAddr nodeName addr).nodeDict =
      Function.update state.nodeDict nodeName (some addr) := rfl

/-- The nodes that are up are told the address, but for the node itself. -/
theorem setAddr_sent (other : String) :
    (state.setAddr nodeName addr).sent node other =
      if node ≠ nodeName ∧ state.isUp node ∧ other = nodeName then some addr
      else state.sent node other := by
  by_cases self : node = nodeName
  · subst self
    simp [State.setAddr, State.broadcastNodeAddr, State.sendTo]
  · have same : State.isUp
        { state with nodeDict := Function.update state.nodeDict nodeName (some addr) } node =
        state.isUp node := isUp_congr (Function.update_of_ne self _ _)
    by_cases up : state.isUp node <;> by_cases other_same : other = nodeName <;>
      simp [State.setAddr, State.broadcastNodeAddr, State.sendTo, self, same, up, other_same]

/-- A node that is up is still informed when an address is set, but for the node itself. -/
theorem Informed.setAddr_of_ne (informed : Informed state node) (up : state.isUp node)
    (different : node ≠ nodeName) : Informed (state.setAddr nodeName addr) node := by
  intro other value other_ne found
  rw [setAddr_nodeDict] at found
  rw [setAddr_sent]
  by_cases same : other = nodeName
  · subst same
    rw [Function.update_self] at found
    rw [if_pos ⟨different, up, rfl⟩]
    exact found
  · rw [Function.update_of_ne same] at found
    rw [if_neg fun told => same told.2.2]
    exact informed other value other_ne found

/-- A node is informed of the others as it was before its own address is set. -/
theorem informed_setAddr_self :
    Informed (state.setAddr nodeName addr) nodeName ↔ Informed state nodeName := by
  refine forall_congr' fun other => forall_congr' fun value => ?_
  refine forall_congr' fun different => ?_
  rw [setAddr_nodeDict, Function.update_of_ne different, setAddr_sent,
    if_neg fun told => told.1 rfl]

theorem informed_refreshAll_self : Informed (state.refreshAll nodeName) nodeName := by
  intro other value _ found
  change state.nodeDict other = some value at found
  simp [State.refreshAll, State.sendTo, found]

theorem Informed.refreshAll (informed : Informed state node) :
    Informed (state.refreshAll nodeName) node := by
  by_cases same : node = nodeName
  · subst same
    exact informed_refreshAll_self
  · intro other value different found
    have before := informed other value different found
    simpa [State.refreshAll, State.sendTo, same] using before

/-- The book is up to date for the other nodes when the address of a node is set. -/
theorem Fresh.setAddr_of_ne (fresh : Fresh state) (different : node ≠ nodeName)
    (up : (state.setAddr nodeName addr).isUp node) :
    Informed (state.setAddr nodeName addr) node := by
  have same : (state.setAddr nodeName addr).isUp node = state.isUp node :=
    isUp_congr (Function.update_of_ne different _ _)
  rw [same] at up
  exact (fresh node up).setAddr_of_ne up different

theorem Fresh.heard (fresh : Fresh state) : Fresh (state.heard nodeName) :=
  fresh

/-- The book is up to date after a heartbeat exactly if the node is informed that it is from. -/
theorem fresh_onNodeHeartbreak (fresh : Fresh state) (refresh : Bool) :
    Fresh (state.onNodeHeartbreak nodeName addr refresh) ↔
      (addr ≠ "" → state.nodeDict nodeName = some "" → refresh = false →
        Informed state nodeName) := by
  unfold State.onNodeHeartbreak
  cases known : state.nodeDict nodeName with
  | none =>
      refine iff_of_true (fun node up => ?_) fun _ none _ => nomatch none
      by_cases same : node = nodeName
      · subst same
        exact informed_refreshAll_self
      · exact (fresh.heard.setAddr_of_ne same up).refreshAll.refreshAll
  | some old =>
      dsimp only
      by_cases same : old = addr
      · subst same
        rw [if_pos rfl]
        refine iff_of_true ?_ fun some_addr empty _ => absurd (Option.some.inj empty) some_addr
        split
        · exact fun node up => (fresh node up).refreshAll
        · exact fresh
      · rw [if_neg same]
        cases refresh with
        | true =>
            refine iff_of_true (fun node up => ?_) fun _ _ no => nomatch no
            by_cases same : node = nodeName
            · subst same
              exact informed_refreshAll_self
            · exact (fresh.heard.setAddr_of_ne same up).refreshAll
        | false =>
            have self_up : ((state.heard nodeName).setAddr nodeName addr).isUp nodeName ↔
                addr ≠ "" := by
              rw [isUp_iff, setAddr_nodeDict, Function.update_self]
              simp
            have before : Informed ((state.heard nodeName).setAddr nodeName addr) nodeName ↔
                Informed state nodeName := informed_setAddr_self
            constructor
            · intro after some_addr _ _
              exact before.mp (after nodeName (self_up.mpr some_addr))
            · intro informed node up
              by_cases same : node = nodeName
              · subst same
                refine before.mpr ?_
                by_cases was_up : state.isUp node
                · exact fresh node was_up
                · have down : old = "" := by
                    by_contra some_old
                    exact was_up (isUp_iff.mpr ⟨old, known, some_old⟩)
                  exact informed (self_up.mp up) (congrArg some down) rfl
              · exact fresh.heard.setAddr_of_ne same up

theorem fresh_onNodeShutdown (fresh : Fresh state) : Fresh (state.onNodeShutdown nodeName) := by
  intro node up
  have different : node ≠ nodeName := by
    rintro rfl
    rw [State.onNodeShutdown, isUp_iff, setAddr_nodeDict, Function.update_self] at up
    simp at up
  exact fresh.heard.setAddr_of_ne different up

/-- The entries of the nodes that have not been heard are empty. -/
def DownEmpty (state : State) : Prop :=
  ∀ node addr, state.downNodeDict node = some addr → addr = ""

theorem fresh_checkDownNode (empty : DownEmpty state) (fresh : Fresh state) :
    Fresh state.checkDownNode := by
  intro node up
  change state.markDown.isUp node = true at up
  have was_up : state.isUp node := by
    obtain ⟨addr, found, some_addr⟩ := isUp_iff.mp up
    simp only [State.markDown] at found
    split at found
    · exact absurd (Option.some.inj found).symm some_addr
    · exact isUp_iff.mpr ⟨addr, found, some_addr⟩
  intro other value different found
  change (if state.markDown.isUp node then
    (state.downNodeDict other).or (state.sent node other) else _) = _
  rw [if_pos up]
  change (if (state.downNodeDict other).isSome then some "" else state.nodeDict other) =
    some value at found
  cases down : state.downNodeDict other with
  | none =>
      rw [down] at found
      exact fresh node was_up other value different found
  | some addr =>
      rw [down] at found
      rw [empty other addr down]
      exact found

theorem DownEmpty.heard (empty : DownEmpty state) : DownEmpty (state.heard nodeName) := by
  intro node addr found
  by_cases same : node = nodeName
  · subst same
    simp [State.heard] at found
  · change Function.update state.downNodeDict nodeName none node = some addr at found
    rw [Function.update_of_ne same] at found
    exact empty node addr found

theorem DownEmpty.step {after : State} {label : Label} (empty : DownEmpty state)
    (taken : step state label = some after) : DownEmpty after := by
  cases label with
  | start node addr =>
      cases taken
      exact empty
  | sendHeartbreak node arrives =>
      simp only [AddrMgr.step] at taken
      split at taken
      · cases taken
      · split at taken
        · cases taken
          unfold State.onNodeHeartbreak
          split
          · exact empty.heard
          · split <;> split <;> exact empty.heard
        · cases taken
          exact empty
  | shutdown node =>
      cases taken
      exact empty.heard
  | checkDownNode =>
      cases taken
      intro node addr found
      simp only [State.checkDownNode] at found
      split at found
      · exact (Option.some.inj found).symm
      · cases found

theorem fresh_step {after : State} {label : Label} (empty : DownEmpty state) (fresh : Fresh state)
    (taken : step state label = some after) : Fresh after ↔ Refreshed state label := by
  cases label with
  | start node addr =>
      cases taken
      exact iff_of_true fresh trivial
  | sendHeartbreak node arrives =>
      simp only [step] at taken
      split at taken
      · cases taken
      · rename_i process found
        split at taken
        · rename_i arrived
          subst arrived
          cases taken
          have sending : Fresh
              { state with
                processes := Function.update state.processes node
                  (some { process with refreshAllCount := process.refreshAllCount - 1 }) } := fresh
          rw [fresh_onNodeHeartbreak sending]
          simp only [Refreshed, found, Option.some.injEq, forall_eq', decide_eq_false_iff_not,
            Nat.not_lt, Nat.le_zero]
          rfl
        · rename_i lost
          obtain rfl : arrives = false := by simpa using lost
          cases taken
          exact iff_of_true fresh trivial
  | shutdown node =>
      cases taken
      exact iff_of_true (fresh_onNodeShutdown fresh) trivial
  | checkDownNode =>
      cases taken
      exact iff_of_true (fresh_checkDownNode empty fresh) trivial

/-- Every node that is up is informed throughout an execution exactly if every node that comes back
asks for the whole book, or is informed nevertheless. -/
theorem addressBook_iff {labels : List Label} {final : State}
    (execution : Execution.run step initial labels = some final) :
    Execution.Always step Fresh initial labels ↔
      Execution.Guarded step Refreshed initial labels := by
  refine Execution.always_iff_guarded (fun empty _ taken => DownEmpty.step empty taken)
    (fun empty fresh taken => fresh_step empty fresh taken) execution ?_ ?_
  · intro node addr found
    cases found
  · intro node up
    cases up

/-- Two nodes register, one of them is restarted with another address while the other one is
down, and that one comes back with its third heartbeat. -/
def restartRun : List Label :=
  [.start "game" "1", .start "login" "2", .sendHeartbreak "game" true,
    .sendHeartbreak "login" true, .checkDownNode, .sendHeartbreak "login" true, .checkDownNode,
    .start "login" "3", .sendHeartbreak "login" true, .sendHeartbreak "game" true]

theorem addressBook_iff_restartRun :
    Execution.Always step Fresh initial restartRun ↔
      Execution.Guarded step Refreshed initial restartRun := by
  have execution : ∃ final, Execution.run step initial restartRun = some final := ⟨_, rfl⟩
  exact addressBook_iff execution.choose_spec

/-- A node that has sent more than three heartbeats is down while another one is restarted with
another address. -/
def staleRun : List Label :=
  [.start "game" "1", .start "login" "2", .sendHeartbreak "game" true,
    .sendHeartbreak "login" true, .sendHeartbreak "game" true, .sendHeartbreak "game" true,
    .checkDownNode, .sendHeartbreak "login" true, .checkDownNode, .start "login" "3",
    .sendHeartbreak "login" true, .sendHeartbreak "game" true]

/-- The node comes back and is not told the other address. -/
theorem staleRun_not_fresh :
    ¬ ∀ (labels : List Label) (state : State),
      Execution.run step initial labels = some state → Fresh state := by
  intro claim
  have ends : ∃ state, Execution.run step initial staleRun = some state ∧
      state.isUp "game" = true ∧ state.nodeDict "login" = some "3" ∧
      state.sent "game" "login" = some "2" :=
    ⟨_, rfl, by decide, by decide, by decide⟩
  obtain ⟨state, execution, up, addr, sent⟩ := ends
  have told := claim staleRun state execution "game" up "login" "3" (by decide) addr
  rw [sent] at told
  exact absurd told (by decide)

end AddrMgr
end UEServer.Cluster
