import UEServer.MysqlDb.Transaction

/-!
# When transactions are isolated

The client loses no waiter.  It isolates the transactions of an execution exactly if no woken query
goes on while a transaction is open: `do_transaction` looks at `_trans_co` again after its wait,
`query` does not.
-/

namespace UEServer.MysqlDb

variable {τ : Type*} [DecidableEq τ]

/-- The coroutine whose transaction is open after a log. -/
def opened (log : List (τ × Event)) : Option τ :=
  log.foldl openNext none

section
omit [DecidableEq τ]

theorem isolated_append (start : Option τ) (front back : List (τ × Event)) :
    Isolated start (front ++ back) ↔
      Isolated start front ∧ Isolated (front.foldl openNext start) back := by
  induction front generalizing start with
  | nil => simp [Isolated]
  | cons event front ih =>
      simp only [List.cons_append, Isolated, List.foldl_cons]
      rw [ih, and_assoc]

/-- One more event keeps a log isolated exactly if it respects the open transaction. -/
theorem isolated_concat (log : List (τ × Event)) (event : τ × Event) :
    Isolated none (log ++ [event]) ↔
      Isolated none log ∧
        ∀ owner, opened log = some owner → event.1 = owner ∧ event.2 ≠ .begin := by
  rw [isolated_append]
  simp [Isolated, opened]

@[simp]
theorem opened_concat (log : List (τ × Event)) (event : τ × Event) :
    opened (log ++ [event]) = openNext (opened log) event := by
  simp [opened]

end

/-- The coroutine is between sending its `begin` and the reply to its end. -/
def Coroutine.inside (co : Coroutine) : Prop :=
  co.depth ≠ 0 ∨ co.op = .beginSent ∨ co.op = .endSent

/-- The invariant, except for the pending wake. -/
structure Core (state : State τ) : Prop where
  /-- The transaction coroutine is the one inside a transaction. -/
  inside : ∀ co, state.transCo = some co ↔ (state.coroutine co).inside
  flat : ∀ co, (state.coroutine co).op = .beginSent ∨ (state.coroutine co).op = .endSent →
    (state.coroutine co).depth = 0
  shallow : ∀ co, (state.coroutine co).depth ≤ 1
  /-- The transaction coroutine does not wait for a transaction. -/
  busy : ∀ co, state.transCo = some co → (state.coroutine co).op.isWait = false
  /-- A waiting coroutine is in the waiting list or has a wake queued. -/
  waits : ∀ co, (state.coroutine co).op.isWait = true ↔
    co ∈ state.transWaitingList ∨ co ∈ state.wakeupQueue
  asleep : ∀ co, co ∈ state.transWaitingList → co ∉ state.wakeupQueue
  /-- No coroutine is twice in the waiting list. -/
  list_nodup : state.transWaitingList.Nodup
  queue_nodup : state.wakeupQueue.Nodup
  /-- The log and `_trans_co` agree on the open transaction. -/
  agrees : opened state.log = state.transCo

/-- A waiting list without a transaction has a wake pending. -/
def Pending (state : State τ) : Prop :=
  state.transCo = none → state.transWaitingList ≠ [] → state.wakeupQueue ≠ []

omit [DecidableEq τ] in
theorem initial_core : Core (initial : State τ) := by
  constructor <;> simp [initial, Coroutine.inside, Op.isWait, opened]

section
variable {state : State τ} {co : τ}

section
variable (core : Core state)
include core

theorem wake_core (queued : co ∈ state.wakeupQueue) :
    Core (State.setOp { state with wakeupQueue := state.wakeupQueue.erase co } co .running) := by
  obtain ⟨inside, flat, shallow, busy, waits, asleep, list_nodup, queue_nodup, agrees⟩ := core
  constructor <;> simp only [State.setOp, Function.update_apply] at *
  all_goals
    simp only [Coroutine.inside, Op.isWait] at *
    grind [List.Nodup.mem_erase_iff]

theorem wakeFirst_core : Core state.wakeFirst ∧ Pending state.wakeFirst := by
  unfold State.wakeFirst
  split
  · rename_i empty
    exact ⟨core, fun _ nonempty => absurd empty nonempty⟩
  · rename_i first rest waiting
    have suspended : (state.coroutine first).op.isWait = true :=
      (core.waits first).mpr (.inl (by simp [waiting]))
    simp only [State.wakeup, suspended, if_true]
    refine ⟨?_, fun _ _ => by simp⟩
    obtain ⟨inside, flat, shallow, busy, waits, asleep, list_nodup, queue_nodup, agrees⟩ := core
    constructor
    all_goals grind

theorem sendQuery_core (running : (state.coroutine co).op = .running) :
    Core (state.sendQuery co) := by
  obtain ⟨inside, flat, shallow, busy, waits, asleep, list_nodup, queue_nodup, agrees⟩ := core
  constructor <;>
    simp only [State.sendQuery, State.record, State.setOp, Function.update_apply] at *
  case agrees => simpa [openNext] using agrees
  all_goals
    simp only [Coroutine.inside, Op.isWait] at *
    grind

theorem transWait_core {owner : τ} {op : Op} (running : (state.coroutine co).op = .running)
    (open_other : state.transCo = some owner) (other : owner ≠ co)
    (wait : op = .queryWait ∨ op = .transWait) : Core (state.transWait co op) := by
  have awake : co ∉ state.transWaitingList ∧ co ∉ state.wakeupQueue := by
    have := core.waits co
    simp only [running, Op.isWait] at this
    grind
  cases core
  constructor <;> simp only [State.transWait, State.setOp, Function.update_apply] at *
  all_goals
    simp only [Coroutine.inside, Op.isWait] at *
    grind

theorem begin_core (running : (state.coroutine co).op = .running) (closed : state.transCo = none) :
    Core { (state.setOp co .beginSent).record co .begin with transCo := some co } := by
  have shut : ∀ other, ¬ (state.coroutine other).inside := by
    intro other within
    simpa [closed] using (core.inside other).mpr within
  cases core
  constructor <;> simp only [State.record, State.setOp, Function.update_apply] at *
  case agrees => simp [openNext]
  all_goals
    simp only [Coroutine.inside, Op.isWait] at *
    grind

theorem finish_core (running : (state.coroutine co).op = .running)
    (within : (state.coroutine co).depth ≠ 0) {event : Event}
    (ending : event = .commit ∨ event = .rollback) :
    Core (State.record
      { state with
        coroutine := Function.update state.coroutine co
          { op := .endSent, depth := (state.coroutine co).depth - 1 } } co event) := by
  obtain ⟨inside, flat, shallow, busy, waits, asleep, list_nodup, queue_nodup, agrees⟩ := core
  constructor <;> simp only [State.record, Function.update_apply] at *
  case agrees =>
    rcases ending with rfl | rfl <;> simpa [openNext] using agrees
  all_goals
    simp only [Coroutine.inside, Op.isWait] at *
    grind

theorem reply_core
    (sent : (state.coroutine co).op = .querySent ∨ (state.coroutine co).op = .beginSent) :
    Core { state with
      coroutine := Function.update state.coroutine co
        { op := .running
          depth := (state.coroutine co).depth +
            if (state.coroutine co).op = .beginSent then 1 else 0 } } := by
  cases core
  constructor <;> simp only [Function.update_apply] at *
  all_goals
    simp only [Coroutine.inside, Op.isWait] at *
    grind

theorem ended_core (sent : (state.coroutine co).op = .endSent) :
    Core { (state.setOp co .running).record co .ended with transCo := none } := by
  cases core
  constructor <;> simp only [State.record, State.setOp, Function.update_apply] at *
  case agrees => simp [openNext]
  all_goals
    simp only [Coroutine.inside, Op.isWait] at *
    grind

theorem enterTransaction_spec (running : (state.coroutine co).op = .running) :
    Core (state.enterTransaction co) ∧ Pending (state.enterTransaction co) ∧
      (Isolated none state.log → Isolated none (state.enterTransaction co).log) := by
  unfold State.enterTransaction
  split
  · rename_i owner opened
    split
    · have unchanged : state.setOp co .running = state := by
        have : ({ state.coroutine co with op := .running } : Coroutine) = state.coroutine co := by
          rw [← running]
        simp only [State.setOp, this, Function.update_eq_self]
      rw [unchanged]
      exact ⟨core, fun closed => by simp [opened] at closed, id⟩
    · rename_i other
      refine ⟨transWait_core core running opened other (.inr rfl), fun closed => ?_, id⟩
      simp [State.transWait, State.setOp, opened] at closed
  · rename_i closed
    refine ⟨begin_core core running closed, fun none => by simp at none, fun isolated => ?_⟩
    refine (isolated_concat _ _).mpr ⟨isolated, fun owner owned => ?_⟩
    change opened state.log = some owner at owned
    rw [core.agrees, closed] at owned
    cases owned

end

omit [DecidableEq τ] in
theorem wakeFirst_log (state : State τ) :
    state.wakeFirst.log = state.log ∧ state.wakeFirst.transCo = state.transCo ∧
      state.wakeFirst.coroutine = state.coroutine := by
  unfold State.wakeFirst
  split
  · exact ⟨rfl, rfl, rfl⟩
  · unfold State.wakeup
    split <;> exact ⟨rfl, rfl, rfl⟩

/-- A query sent by a running coroutine respects the transactions exactly if no other coroutine has
one open. -/
theorem sendQuery_isolated (core : Core state) (isolated : Isolated none state.log) :
    Isolated none (state.sendQuery co).log ↔ ∀ owner, state.transCo = some owner → co = owner := by
  rw [← core.agrees]
  change Isolated none (state.log ++ [(co, Event.query)]) ↔ _
  rw [isolated_concat]
  simp [isolated]

/-- Every stretch of execution keeps the invariant and the pending wake. It keeps the transactions
isolated exactly if it does not let a woken query go on inside a transaction. -/
theorem step_spec {after : State τ} {label : Label τ} (core : Core state)
    (pending : Pending state) (taken : step state label = some after) :
    Core after ∧ Pending after ∧
      (Isolated none state.log → (Isolated none after.log ↔ ResumesOutside state label)) := by
  cases label with
  | query co =>
      have allowed : ResumesOutside state (.query co) := trivial
      simp only [step] at taken
      split at taken
      · rename_i running
        split at taken
        · rename_i owner opened
          split at taken
          · rename_i same
            subst same
            cases taken
            refine ⟨sendQuery_core core running, pending, fun isolated => ?_⟩
            rw [sendQuery_isolated core isolated]
            refine ⟨fun _ => allowed, fun _ other other_opened => ?_⟩
            exact Option.some.inj (opened.symm.trans other_opened)
          · rename_i other
            cases taken
            refine ⟨transWait_core core running opened other (.inl rfl), fun closed => ?_,
              fun isolated => ⟨fun _ => allowed, fun _ => isolated⟩⟩
            simp [State.transWait, State.setOp, opened] at closed
        · rename_i closed
          cases taken
          refine ⟨sendQuery_core core running, pending, fun isolated => ?_⟩
          rw [sendQuery_isolated core isolated]
          refine ⟨fun _ => allowed, fun _ other other_opened => ?_⟩
          rw [closed] at other_opened
          cases other_opened
      · cases taken
  | doTransaction co =>
      have allowed : ResumesOutside state (.doTransaction co) := trivial
      simp only [step] at taken
      split at taken
      · rename_i running
        cases taken
        obtain ⟨core', pending', isolates⟩ := enterTransaction_spec core running
        exact ⟨core', pending', fun isolated => ⟨fun _ => allowed, fun _ => isolates isolated⟩⟩
      · cases taken
  | resume co =>
      simp only [step] at taken
      split at taken
      · rename_i queued
        have woken := wake_core core queued
        have runs : ((State.setOp
            { state with wakeupQueue := state.wakeupQueue.erase co } co
            .running).coroutine co).op = .running := by
          simp [State.setOp]
        have waiting := (core.waits co).mpr (.inr queued)
        split at taken
        · rename_i wait
          cases taken
          obtain ⟨core', pending'⟩ := wakeFirst_core woken
          obtain ⟨log, transCo, coroutine⟩ := wakeFirst_log (State.setOp
            { state with wakeupQueue := state.wakeupQueue.erase co } co .running)
          refine ⟨sendQuery_core core' (by rw [coroutine]; exact runs), pending',
            fun isolated => ?_⟩
          rw [sendQuery_isolated core' (by rw [log]; exact isolated), transCo]
          constructor
          · intro others _
            cases opened : state.transCo with
            | none => rfl
            | some owner =>
                obtain rfl := others owner opened
                rw [core.busy _ opened] at waiting
                cases waiting
          · intro allowed owner owned
            have closed := allowed wait
            rw [closed] at owned
            cases owned
        · rename_i wait
          cases taken
          obtain ⟨core', pending', isolates⟩ := enterTransaction_spec woken runs
          have same : (State.enterTransaction
              { state with wakeupQueue := state.wakeupQueue.erase co } co) =
              (State.setOp { state with wakeupQueue := state.wakeupQueue.erase co } co
                .running).enterTransaction co := by
            simp only [State.enterTransaction, State.setOp]
            split <;> simp [State.transWait, State.setOp, State.record]
          rw [same]
          refine ⟨core', pending', fun isolated => ⟨fun _ query => ?_, fun _ => isolates isolated⟩⟩
          rw [wait] at query
          cases query
        · cases op : (state.coroutine co).op <;> simp_all [Op.isWait]
      · cases taken
  | reply co =>
      have allowed : ResumesOutside state (.reply co) := trivial
      simp only [step] at taken
      split at taken
      · rename_i sent
        cases taken
        have replied := reply_core core (.inl sent)
        simp only [sent, reduceCtorEq, if_false, Nat.add_zero] at replied
        exact ⟨replied, pending, fun isolated => ⟨fun _ => allowed, fun _ => isolated⟩⟩
      · rename_i sent
        cases taken
        have replied := reply_core core (.inr sent)
        simp only [sent, if_true] at replied
        exact ⟨replied, pending, fun isolated => ⟨fun _ => allowed, fun _ => isolated⟩⟩
      · rename_i sent
        cases taken
        obtain ⟨core', pending'⟩ := wakeFirst_core (ended_core core sent)
        refine ⟨core', pending', fun isolated => ⟨fun _ => allowed, fun _ => ?_⟩⟩
        rw [(wakeFirst_log _).1]
        refine (isolated_concat _ _).mpr ⟨isolated, fun owner holds => ?_⟩
        have owned := (core.inside co).mpr (.inr (.inr sent))
        change opened state.log = some owner at holds
        rw [core.agrees, owned] at holds
        exact ⟨Option.some.inj holds, by simp⟩
      · cases taken
  | finish co ok =>
      have allowed : ResumesOutside state (.finish co ok) := trivial
      simp only [step] at taken
      split at taken
      · rename_i within
        cases taken
        refine ⟨finish_core core within.1 within.2 (by cases ok <;> simp), pending,
          fun isolated => ⟨fun _ => allowed, fun _ => ?_⟩⟩
        refine (isolated_concat _ _).mpr ⟨isolated, fun owner holds => ?_⟩
        have owned := (core.inside co).mpr (.inl within.2)
        rw [core.agrees, owned] at holds
        exact ⟨Option.some.inj holds, by cases ok <;> simp⟩
      · cases taken

end

omit [DecidableEq τ] in
theorem noLostWaiter {state : State τ} (core : Core state) (pending : Pending state) :
    NoLostWaiter state := by
  intro closed waiting
  obtain ⟨co, queued⟩ := List.exists_mem_of_ne_nil _ (pending closed waiting)
  refine ⟨co, queued, fun listed => ?_, (core.waits co).mpr (.inr queued)⟩
  exact core.asleep co listed queued

/-- In every state of an execution the transactions so far are isolated and no waiter is lost,
exactly if no step of it lets a woken query go on inside a transaction. -/
theorem transactions_isolated_iff {labels : List (Label τ)} {state : State τ}
    (execution : Execution.run step initial labels = some state) :
    Execution.Always step (fun reached => Isolated none reached.log ∧ NoLostWaiter reached)
        initial labels ↔
      Execution.Guarded step ResumesOutside initial labels := by
  have start : Core (initial : State τ) ∧ Pending (initial : State τ) :=
    ⟨initial_core, fun _ nonempty => absurd rfl nonempty⟩
  have preserved : ∀ {before : State τ} {label after}, Core before ∧ Pending before →
      ResumesOutside before label → step before label = some after →
      Core after ∧ Pending after := by
    intro before label after inv _ taken
    obtain ⟨core, pending, -⟩ := step_spec inv.1 inv.2 taken
    exact ⟨core, pending⟩
  refine Execution.always_iff_guarded preserved ?_ execution start
    ⟨trivial, noLostWaiter start.1 start.2⟩
  intro before label after inv good taken
  obtain ⟨core, pending, isolates⟩ := step_spec inv.1 inv.2 taken
  rw [← isolates good.1]
  exact ⟨fun both => both.1, fun isolated => ⟨isolated, noLostWaiter core pending⟩⟩

/-- A query that waits for a transaction, and the transaction ends. -/
theorem transactions_isolated_iff_waitingRun :
    Execution.Always step (fun reached => Isolated none reached.log ∧ NoLostWaiter reached)
        (initial : State Nat)
        [.doTransaction 0, .reply 0, .query 1, .finish 0 true, .reply 0, .resume 1] :=
  (transactions_isolated_iff rfl).mpr (by decide)

/-- A query waits for a transaction whose coroutine starts another one before it yields. -/
def reopenedRun : List (Label Nat) :=
  [.doTransaction 0, .reply 0, .query 1, .finish 0 true, .reply 0, .doTransaction 0, .resume 1]

/-- The log of the connection in that execution. -/
def reopenedLog : List (Nat × Event) :=
  [(0, .begin), (0, .commit), (0, .ended), (0, .begin), (1, .query)]

/-- The woken query is sent inside the second transaction. -/
theorem reopenedRun_not_isolated :
    ¬ ∀ (labels : List (Label Nat)) (state : State Nat),
      Execution.run step initial labels = some state →
        Isolated none state.log ∧ NoLostWaiter state := by
  intro claim
  have isolated : Isolated none reopenedLog := (claim reopenedRun _ rfl).1
  simp [Isolated, reopenedLog, openNext] at isolated

/-- No waiter is lost in any execution, also where transactions are not isolated. -/
theorem waiters_woken (labels : List (Label τ)) :
    Execution.Always step NoLostWaiter (initial : State τ) labels := by
  have preserved : ∀ {before : State τ} {label after}, Core before ∧ Pending before →
      step before label = some after → Core after ∧ Pending after := by
    intro before label after inv taken
    obtain ⟨core, pending, -⟩ := step_spec inv.1 inv.2 taken
    exact ⟨core, pending⟩
  exact (Execution.always_invariant preserved
    ⟨initial_core, fun _ nonempty => absurd rfl nonempty⟩).mono fun _ inv => noLostWaiter inv.1 inv.2

end UEServer.MysqlDb
