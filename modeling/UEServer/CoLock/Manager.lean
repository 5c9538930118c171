import UEServer.CoLock.Correct

/-!
# The lock manager

`new_lock_mgr` of `srv_utils/co_lock.lua`, without a timeout: a dictionary from ids to locks.  A
`run` of an id without an entry creates a lock, whose `cb_free` removes the entry.  The locks are
numbered in the order of their creation.
-/

namespace UEServer.CoLock

variable {κ τ ε ι : Type*} [DecidableEq κ] [DecidableEq τ] [DecidableEq ι]

def State.InUse (state : State κ τ ε) (key : κ) : Prop :=
  state.owner key ≠ none ∨ state.queue key ≠ []

/-- The coroutine executes a body of the lock, or is suspended in its `_wait`. -/
def State.Uses (state : State κ τ ε) (thread : τ) (key : κ) : Prop :=
  key ∈ state.bodies thread ∨ state.waiting thread = some key

omit [DecidableEq τ] in
/-- A lock is in use exactly while some coroutine is inside or queued for it. -/
theorem Inv.inUse_iff {state : State κ τ ε} (inv : Inv [] state) (key : κ) :
    state.InUse key ↔ ∃ thread, state.Uses thread key := by
  constructor
  · rintro (owned | queued)
    · obtain ⟨thread, owner⟩ := Option.ne_none_iff_exists'.mp owned
      by_cases inside : key ∈ state.bodies thread
      · exact ⟨thread, .inl inside⟩
      · exact ⟨thread, .inr (inv.handed key thread owner inside).1⟩
    · obtain ⟨thread, member⟩ := List.exists_mem_of_ne_nil _ queued
      exact ⟨thread, .inr (inv.queued_waits key thread member).1⟩
  · rintro ⟨thread, inside | suspended⟩
    · exact .inl (by simp [inv.inside key thread inside])
    · obtain ⟨-, queued | owned⟩ := inv.suspended key thread suspended
      · exact .inr (List.ne_nil_of_mem queued)
      · exact .inl (by simp [owned])

def Label.target : Label κ τ ε → Option κ
  | .run _ key => some key
  | _ => none

omit [DecidableEq τ] in
theorem wakeLock_use (state : State κ τ ε) (key : κ) :
    (state.wakeLock key).freed = state.freed ∧
      ∀ other, ((state.wakeLock key).InUse other ↔ state.InUse other) ∧
        ((state.wakeLock key).lock other).cbFree = (state.lock other).cbFree ∧
        (¬ state.InUse other → (state.wakeLock key).lock other = state.lock other) := by
  unfold State.wakeLock
  split
  · exact ⟨rfl, fun _ => ⟨.rfl, rfl, fun _ => rfl⟩⟩
  · exact ⟨rfl, fun _ => ⟨.rfl, rfl, fun _ => rfl⟩⟩
  · rename_i thread rest free queue
    have lock : ∀ state' : State κ τ ε, (state'.wakeup thread).lock = state'.lock := by
      intro state'
      unfold State.wakeup
      split <;> rfl
    refine ⟨by unfold State.wakeup; split <;> rfl, fun other => ?_⟩
    simp only [State.InUse, State.owner, State.queue, lock]
    by_cases same : other = key
    · subst same
      simp [queue]
    · simp [Function.update_of_ne same]

omit [DecidableEq τ] in
/-- `_wake_waiting` frees no lock, and a lock is in use after it if it was before. -/
theorem wakeLocks_use (state : State κ τ ε) (keys : List κ) :
    (state.wakeLocks keys).freed = state.freed ∧
      ∀ other, ((state.wakeLocks keys).InUse other ↔ state.InUse other) ∧
        ((state.wakeLocks keys).lock other).cbFree = (state.lock other).cbFree ∧
        (¬ state.InUse other → (state.wakeLocks keys).lock other = state.lock other) := by
  induction keys generalizing state with
  | nil => exact ⟨rfl, fun _ => ⟨.rfl, rfl, fun _ => rfl⟩⟩
  | cons key keys ih =>
      unfold State.wakeLocks
      split
      · exact ⟨rfl, fun _ => ⟨.rfl, rfl, fun _ => rfl⟩⟩
      · obtain ⟨freed, locks⟩ := wakeLock_use state key
        obtain ⟨freed', locks'⟩ := ih (state.wakeLock key)
        refine ⟨freed'.trans freed, fun other => ?_⟩
        obtain ⟨use, free, idle⟩ := locks other
        obtain ⟨use', free', idle'⟩ := locks' other
        exact ⟨use'.trans use, free'.trans free,
          fun unused => (idle' (mt use.mp unused)).trans (idle unused)⟩

/-- What a stretch of execution does to the locks in use: `cb_free` is called for exactly those
that come out of use, and a lock that is neither in use nor asked for does not change. -/
theorem step_use {state after : State κ τ ε} {label : Label κ τ ε} (inv : Inv [] state)
    (callbacks : ∀ key, (state.lock key).cbFree = true) (taken : step state label = some after) :
    ∃ freed, after.freed = state.freed ++ freed ∧
      ∀ key, (after.InUse key ↔ (state.InUse key ∧ key ∉ freed) ∨ label.target = some key) ∧
        (key ∈ freed → state.InUse key ∧ label.target = none) ∧
        (after.lock key).cbFree = true ∧
        (¬ state.InUse key → label.target ≠ some key → after.lock key = state.lock key) := by
  cases label with
  | run thread target =>
      simp only [step] at taken
      split at taken
      · cases taken
      · refine ⟨[], ?_⟩
        split at taken
        · cases taken
          simp only [State.enter, State.InUse, State.owner, State.queue, Lock.queue, Label.target,
            Function.update_apply] at *
          grind
        · split at taken <;> obtain rfl := Option.some.inj taken <;>
            simp only [State.enter, State.wait, State.InUse, State.owner, State.queue, Lock.queue,
              Label.target, Function.update_apply] at * <;> grind
  | resume thread =>
      simp only [step] at taken
      split at taken
      · rename_i queued
        obtain ⟨target, waits, owned⟩ := inv.woken thread queued
        rw [waits] at taken
        simp only [(resume_ref inv queued waits).2, if_true] at taken
        cases taken
        refine ⟨[], ?_⟩
        simp only [State.enter, State.InUse, State.owner, State.queue, Lock.queue, Label.target,
          Function.update_apply] at *
        grind
      · cases taken
  | leave thread err =>
      simp only [step] at taken
      split at taken
      · cases taken
      · split at taken
        · cases taken
        · rename_i top rest bodies
          have owned := inv.inside top thread (by simp [bodies])
          by_cases inner : top ∈ rest
          · rw [unlock_inner inv err bodies inner] at taken
            cases taken
            refine ⟨[], ?_⟩
            simp only [State.deliver, State.setLock, State.InUse, State.owner, State.queue,
              Lock.queue, Label.target, Function.update_apply] at *
            grind
          · rw [unlock_outer inv err bodies inner] at taken
            cases taken
            by_cases nobody : state.queue top = []
            · simp only [nobody, callbacks, if_true]
              simp only [State.deliver, State.InUse, State.owner, State.queue, Lock.queue,
                Label.target, Function.update_apply] at *
              grind
            · refine ⟨[], ?_⟩
              simp only [nobody, if_false]
              simp only [State.deliver, State.InUse, State.owner, State.queue, Lock.queue,
                Label.target, Function.update_apply] at *
              grind
  | wakeWaiting =>
      simp only [step] at taken
      split at taken
      · cases taken
      · cases taken
        obtain ⟨freed, locks⟩ := wakeLocks_use
          { state with
            wakeThread := false
            waitingWakeList := []
            forkedWakes := state.forkedWakes - 1 } state.waitingWakeList
        refine ⟨[], by simpa [State.wakeWaiting] using freed, fun key => ?_⟩
        obtain ⟨use, free, idle⟩ := locks key
        refine ⟨?_, by simp, free.trans (callbacks key), fun unused _ => idle unused⟩
        simpa [Label.target, State.wakeWaiting, State.InUse] using use

/-- The closure of one `new_lock_mgr`, and its locks. -/
structure Manager (ι τ ε : Type*) where
  /-- The locks it has created, with the coroutines. -/
  locks : State Nat τ ε
  lockDict : ι → Option Nat
  /-- The `lock_id` that the `cb_free` of a lock has captured. -/
  lockId : Nat → Option ι
  created : Nat

/-- One uninterrupted stretch of execution. -/
inductive MgrLabel (ι τ ε : Type*) where
  /-- The coroutine calls `run` of the manager. -/
  | run (thread : τ) (lockId : ι)
  | resume (thread : τ)
  | leave (thread : τ) (err : Option ε)
  | wakeWaiting

namespace Manager

/-- The `cb_free` of a lock. -/
def cbFree (mgr : Manager ι τ ε) (key : Nat) : Manager ι τ ε :=
  match mgr.lockId key with
  | none => mgr
  | some lockId => { mgr with lockDict := Function.update mgr.lockDict lockId none }

/-- `LockCls.new` in `run`, and the entry of the new lock. -/
def create (mgr : Manager ι τ ε) (lockId : ι) : Manager ι τ ε where
  locks := mgr.locks.setLock mgr.created { cbFree := true }
  lockDict := Function.update mgr.lockDict lockId (some mgr.created)
  lockId := Function.update mgr.lockId mgr.created (some lockId)
  created := mgr.created + 1

/-- A stretch of execution of the locks. Nothing in the stretch reads `lock_dict` after a
`cb_free`. -/
def advance (mgr : Manager ι τ ε) (label : Label Nat τ ε) : Option (Manager ι τ ε) :=
  (CoLock.step mgr.locks label).map fun after =>
    (after.freed.drop mgr.locks.freed.length).foldl cbFree { mgr with locks := after }

/-- The `run` of the manager. -/
def run (mgr : Manager ι τ ε) (thread : τ) (lockId : ι) : Option (Manager ι τ ε) :=
  match mgr.lockDict lockId with
  | some key => mgr.advance (.run thread key)
  | none => (mgr.create lockId).advance (.run thread mgr.created)

/-- Run one stretch of execution, if the coroutine it names can go on. -/
def step (mgr : Manager ι τ ε) : MgrLabel ι τ ε → Option (Manager ι τ ε)
  | .run thread lockId => mgr.run thread lockId
  | .resume thread => mgr.advance (.resume thread)
  | .leave thread err => mgr.advance (.leave thread err)
  | .wakeWaiting => mgr.advance .wakeWaiting

/-- `new_lock_mgr`. -/
def new : Manager ι τ ε where
  locks := initial fun _ => true
  lockDict _ := none
  lockId _ := none
  created := 0

/-- The entries of the manager are the locks in use. -/
structure Inv (mgr : Manager ι τ ε) : Prop where
  locks : CoLock.Inv [] mgr.locks
  /-- Every lock has a `cb_free`. -/
  callbacks : ∀ key, (mgr.locks.lock key).cbFree = true
  unborn : ∀ key, mgr.created ≤ key → mgr.locks.lock key = { cbFree := true }
  unnamed : ∀ key, mgr.created ≤ key → mgr.lockId key = none
  entry : ∀ lockId key,
    mgr.lockDict lockId = some key ↔ mgr.lockId key = some lockId ∧ mgr.locks.InUse key

omit [DecidableEq τ] [DecidableEq ι] in
theorem new_inv : Inv (new : Manager ι τ ε) where
  locks := initial_inv _
  callbacks _ := rfl
  unborn _ _ := rfl
  unnamed _ _ := rfl
  entry lockId key := by simp [new]

section
variable {mgr after : Manager ι τ ε}

section
omit [DecidableEq τ]

theorem cbFree_fields (mgr : Manager ι τ ε) (key : Nat) :
    (mgr.cbFree key).locks = mgr.locks ∧ (mgr.cbFree key).lockId = mgr.lockId ∧
      (mgr.cbFree key).created = mgr.created ∧
      ∀ lockId, (mgr.cbFree key).lockDict lockId =
        if mgr.lockId key = some lockId then none else mgr.lockDict lockId := by
  unfold cbFree
  split
  · rename_i unnamed
    simp [unnamed]
  · rename_i captured named
    simp only [named, Option.some.injEq, Function.update_apply, true_and]
    grind

/-- The calls of `cb_free` remove the entries of the ids their locks were created for. -/
theorem foldl_cbFree (mgr : Manager ι τ ε) (freed : List Nat) :
    (freed.foldl cbFree mgr).locks = mgr.locks ∧ (freed.foldl cbFree mgr).lockId = mgr.lockId ∧
      (freed.foldl cbFree mgr).created = mgr.created ∧
      ∀ lockId, (freed.foldl cbFree mgr).lockDict lockId =
        if ∃ key ∈ freed, mgr.lockId key = some lockId then none else mgr.lockDict lockId := by
  induction freed generalizing mgr with
  | nil => simp
  | cons key freed ih =>
      obtain ⟨locks, ids, created, dict⟩ := cbFree_fields mgr key
      obtain ⟨locks', ids', created', dict'⟩ := ih (mgr.cbFree key)
      refine ⟨locks'.trans locks, ids'.trans ids, created'.trans created, fun lockId => ?_⟩
      rw [List.foldl_cons, dict', dict, ids]
      by_cases first : mgr.lockId key = some lockId <;>
        simp [first]

theorem create_locks (inv : Inv mgr) (lockId : ι) : (mgr.create lockId).locks = mgr.locks := by
  have fresh : mgr.locks.lock mgr.created = { cbFree := true } := inv.unborn _ (Nat.le_refl _)
  unfold create State.setLock
  rw [← fresh, Function.update_eq_self]

end

omit [DecidableEq τ] [DecidableEq ι] in
theorem unborn_unused (inv : Inv mgr) {key : Nat} (unborn : mgr.created ≤ key) :
    ¬ mgr.locks.InUse key := by
  simp [State.InUse, State.owner, State.queue, Lock.queue, inv.unborn key unborn]

/-- A stretch of execution of the locks keeps the invariant, when the lock it asks for has the
entry of its id. -/
theorem advance_inv {label : Label Nat τ ε} (locks : CoLock.Inv [] mgr.locks)
    (callbacks : ∀ key, (mgr.locks.lock key).cbFree = true)
    (unborn : ∀ key, mgr.created ≤ key →
      mgr.locks.lock key = { cbFree := true } ∧ mgr.lockId key = none ∧
        label.target ≠ some key)
    (entry : ∀ lockId key, mgr.lockDict lockId = some key ↔
      mgr.lockId key = some lockId ∧ (mgr.locks.InUse key ∨ label.target = some key))
    (taken : mgr.advance label = some after) : Inv after := by
  obtain ⟨locks', stretch, rfl⟩ := Option.map_eq_some_iff.mp taken
  obtain ⟨freed, log, keys⟩ := step_use locks callbacks stretch
  rw [log, List.drop_left]
  obtain ⟨same, ids, created, dict⟩ := foldl_cbFree { mgr with locks := locks' } freed
  constructor
  case locks => exact same ▸ step_inv locks stretch
  case callbacks => exact fun key => same ▸ (keys key).2.2.1
  case unborn =>
    intro key above
    obtain ⟨fresh, -, other⟩ := unborn key (created ▸ above)
    have unused : ¬ mgr.locks.InUse key := by
      simp [State.InUse, State.owner, State.queue, Lock.queue, fresh]
    rw [same]
    exact ((keys key).2.2.2 unused other).trans fresh
  case unnamed =>
    intro key above
    rw [ids]
    exact (unborn key (created ▸ above)).2.1
  case entry =>
    intro lockId key
    rw [dict, ids, same, (keys key).1]
    by_cases gone : ∃ freedKey ∈ freed, mgr.lockId freedKey = some lockId
    · rw [if_pos gone]
      obtain ⟨freedKey, member, named⟩ := gone
      obtain ⟨used, untargeted⟩ := (keys freedKey).2.1 member
      have held := (entry lockId freedKey).mpr ⟨named, .inl used⟩
      constructor
      · rintro ⟨⟩
      · rintro ⟨named', ⟨used', kept⟩ | targeted⟩
        · have held' := (entry lockId key).mpr ⟨named', .inl used'⟩
          cases held.symm.trans held'
          exact absurd member kept
        · simp [untargeted] at targeted
    · rw [if_neg gone, entry]
      have kept : mgr.lockId key = some lockId → key ∉ freed :=
        fun named member => gone ⟨key, member, named⟩
      exact and_congr_right fun named => or_congr_left (and_iff_left (kept named)).symm

theorem step_inv {label : MgrLabel ι τ ε} (inv : Inv mgr) (taken : mgr.step label = some after) :
    Inv after := by
  have idle : ∀ {label : Label Nat τ ε}, label.target = none →
      mgr.advance label = some after → Inv after := by
    intro label untargeted stretch
    refine advance_inv inv.locks inv.callbacks (fun key above => ⟨inv.unborn key above,
      inv.unnamed key above, ?_⟩) (fun lockId key => ?_) stretch
    · simp [untargeted]
    · simp [untargeted, inv.entry]
  cases label with
  | resume thread => exact idle rfl taken
  | leave thread err => exact idle rfl taken
  | wakeWaiting => exact idle rfl taken
  | run thread lockId =>
      simp only [step, run] at taken
      split at taken
      · rename_i key found
        have used := ((inv.entry lockId key).mp found).2
        refine advance_inv inv.locks inv.callbacks (fun other above => ⟨inv.unborn other above,
          inv.unnamed other above, ?_⟩) (fun id other => ?_) taken
        · rintro same
          cases same
          exact unborn_unused inv above used
        · rw [inv.entry]
          grind [Label.target]
      · have locks := create_locks inv lockId
        have unused := unborn_unused inv (Nat.le_refl mgr.created)
        refine advance_inv (locks ▸ inv.locks) (locks ▸ inv.callbacks) (fun other above => ?_)
          (fun id other => ?_) taken
        · rw [locks]
          have later : other ≠ mgr.created := by
            rintro rfl
            exact Nat.not_succ_le_self _ above
          refine ⟨inv.unborn other (Nat.le_of_succ_le above), ?_, ?_⟩
          · simpa [create, later] using inv.unnamed other (Nat.le_of_succ_le above)
          · simpa [Label.target] using later.symm
        · rw [locks]
          have entry := inv.entry
          simp only [create, Label.target, Function.update_apply]
          grind

theorem run_inv {labels : List (MgrLabel ι τ ε)} (execution : Execution.run step new labels =
    some mgr) : Inv mgr :=
  Execution.run_invariant step_inv execution new_inv

theorem step_lockId {label : MgrLabel ι τ ε} (inv : Inv mgr) (taken : mgr.step label = some after)
    {key : Nat} {lockId : ι} (named : mgr.lockId key = some lockId) :
    after.lockId key = some lockId := by
  have kept : ∀ {before : Manager ι τ ε} {label : Label Nat τ ε},
      before.advance label = some after → after.lockId = before.lockId := by
    intro before label stretch
    obtain ⟨locks, -, rfl⟩ := Option.map_eq_some_iff.mp stretch
    exact (foldl_cbFree _ _).2.1
  cases label with
  | resume thread => rw [kept taken, named]
  | leave thread err => rw [kept taken, named]
  | wakeWaiting => rw [kept taken, named]
  | run thread id =>
      simp only [step, run] at taken
      split at taken
      · rw [kept taken, named]
      · have old : key ≠ mgr.created := by
          rintro rfl
          simp [inv.unnamed mgr.created (Nat.le_refl _)] at named
        simpa [kept taken, create, old] using named

omit [DecidableEq τ] [DecidableEq ι] in
theorem Inv.one_lock (inv : Inv mgr) {lockId : ι} {first second : τ} {key other : Nat}
    (named : mgr.lockId key = some lockId) (used : mgr.locks.Uses first key)
    (named' : mgr.lockId other = some lockId) (used' : mgr.locks.Uses second other) :
    key = other := by
  have held := (inv.entry lockId key).mpr ⟨named, (inv.locks.inUse_iff key).mpr ⟨first, used⟩⟩
  have held' :=
    (inv.entry lockId other).mpr ⟨named', (inv.locks.inUse_iff other).mpr ⟨second, used'⟩⟩
  exact Option.some.inj (held.symm.trans held')

/-- A call of `run` reaches a body, or a wait, of the lock it looked up. -/
theorem run_uses {thread : τ} {lockId : ι} (inv : Inv mgr)
    (taken : mgr.step (.run thread lockId) = some after) :
    ∃ key, after.lockId key = some lockId ∧
      (after.locks.bodies thread = key :: mgr.locks.bodies thread ∨
        after.locks.waiting thread = some key) := by
  have reached : ∀ {before : Manager ι τ ε} {key : Nat},
      before.advance (.run thread key) = some after → after.lockId = before.lockId ∧
        (after.locks.bodies thread = key :: before.locks.bodies thread ∨
          after.locks.waiting thread = some key) := by
    intro before key stretch
    obtain ⟨locks, entered, rfl⟩ := Option.map_eq_some_iff.mp stretch
    simp only [CoLock.step] at entered
    split at entered
    · cases entered
    · split at entered
      · cases entered
        simp [State.enter]
      · split at entered <;> obtain rfl := Option.some.inj entered <;>
          simp [State.enter, State.wait]
  simp only [step, run] at taken
  split at taken
  · rename_i key found
    obtain ⟨ids, used⟩ := reached taken
    exact ⟨key, by rw [ids, ((inv.entry lockId key).mp found).1], used⟩
  · obtain ⟨ids, used⟩ := reached taken
    exact ⟨mgr.created, by simp [ids, create], used⟩

/-- What the manager guarantees for one id in one state. -/
structure Guarantee (mgr : Manager ι τ ε) (lockId : ι) : Prop where
  exclusive : ∀ first second key other, mgr.lockId key = some lockId →
    mgr.lockId other = some lockId → key ∈ mgr.locks.bodies first →
    other ∈ mgr.locks.bodies second → first = second
  /-- There is an entry exactly while some coroutine is inside, or queued for, a lock of the
  id. -/
  entry : mgr.lockDict lockId ≠ none ↔
    ∃ thread key, mgr.lockId key = some lockId ∧ mgr.locks.Uses thread key
  one_lock : ∀ first second key other, mgr.lockId key = some lockId →
    mgr.lockId other = some lockId → mgr.locks.Uses first key → mgr.locks.Uses second other →
    key = other
  /-- A call of `run` for the id enters, or waits for, a lock of the id. -/
  called : ∀ thread after, mgr.step (.run thread lockId) = some after →
    ∃ key, after.lockId key = some lockId ∧
      (after.locks.bodies thread = key :: mgr.locks.bodies thread ∨
        after.locks.waiting thread = some key)
  kept : ∀ label after key, mgr.step label = some after → mgr.lockId key = some lockId →
    after.lockId key = some lockId

theorem Inv.guarantee (inv : Inv mgr) (lockId : ι) : Guarantee mgr lockId where
  exclusive first second key other named named' inside inside' := by
    obtain rfl := inv.one_lock named (.inl inside) named' (.inl inside')
    exact (inv.locks.guarantee key).exclusive first second inside inside'
  entry := by
    rw [Option.ne_none_iff_exists']
    simp only [inv.entry, inv.locks.inUse_iff]
    constructor
    · rintro ⟨key, named, thread, used⟩
      exact ⟨thread, key, named, used⟩
    · rintro ⟨thread, key, named, used⟩
      exact ⟨key, named, thread, used⟩
  one_lock first second key other named named' used used' := inv.one_lock named used named' used'
  called thread after taken := run_uses inv taken
  kept label after key taken named := step_lockId inv taken named

end

/-- Every execution of the manager gives the guarantee for every id. -/
theorem manager_run_correct {labels : List (MgrLabel ι τ ε)} {mgr : Manager ι τ ε}
    (execution : Execution.run step new labels = some mgr) (lockId : ι) :
    Guarantee mgr lockId :=
  (run_inv execution).guarantee lockId

/-- A coroutine nests a second id and raises in it, another queues for the first and gets its
lock, and a third finds both ids without an entry. -/
def sharedRun : List (MgrLabel String Nat Nat) :=
  [.run 0 "name", .run 0 "uuid", .run 1 "name", .leave 0 (some 7), .leave 0 none, .wakeWaiting,
    .resume 1, .leave 1 none, .run 2 "name"]

theorem manager_run_correct_sharedRun :
    ∃ mgr, Execution.run step new sharedRun = some mgr ∧ Guarantee mgr "name" ∧
      mgr.created = 3 ∧ mgr.lockDict "uuid" = none ∧ mgr.lockDict "name" = some 2 := by
  have execution : Execution.run step new sharedRun = some _ := rfl
  exact ⟨_, execution, manager_run_correct execution "name", rfl, rfl, rfl⟩

end Manager
end UEServer.CoLock
