import UEServer.CoLock.Release

/-!
# Which runs keep the deadlines

A check takes every lock away that is registered under its second.  The registrations are those of the
holders exactly in the runs in which no lock is entered under the deadline of an earlier holder, no
nested run ends, and no check that finds a lock runs ahead of the clock.
-/

namespace UEServer.CoLock

open Execution

variable {κ τ ε : Type*} [DecidableEq κ] [DecidableEq τ]

namespace Timed

/-- The bodies of a coroutine that has lost a lock. -/
def markLost (key : κ) (frames : List (κ × Bool)) : List (κ × Bool) :=
  frames.map fun frame => (frame.1, frame.2 || frame.1 = key)

theorem flags_markLost (key other : κ) (frames : List (κ × Bool)) :
    flags other (markLost key frames) =
      if other = key then List.replicate (flags key frames).length true else flags other frames := by
  induction frames with
  | nil => split <;> rfl
  | cons frame frames ih =>
      obtain ⟨first, flag⟩ := frame
      rw [markLost, List.map_cons, ← markLost, flags_cons, flags_cons, flags_cons, ih]
      by_cases same : other = key
      · subst same
        by_cases equal : first = other <;> simp [equal, List.replicate_succ]
      · by_cases equal : first = other
        · subst equal
          simp [same]
        · simp [equal, same]

section
variable {state : Timed κ τ ε} {key : κ}

theorem onTimeout_eq {due timeout : ℕ} {thread : τ} (stored : state.timeoutTs key = some due)
    (known : state.timeout key = some timeout)
    (owner : (state.locks.lock key).currentThread = some thread) :
    state.onTimeout key =
      { state with
        locks := (state.locks.setLock key
          { state.locks.lock key with ref := 0, currentThread := none }).wakeNext key
        frames := Function.update state.frames thread (markLost key (state.frames thread))
        taken := state.taken ++ [(state.deadline key timeout, state.clock)] } := by
  unfold onTimeout
  rw [stored]
  dsimp only
  rw [known, owner]
  rfl

omit [DecidableEq τ] in
theorem released_lock (locks : State κ τ ε) (key other : κ) :
    let after := (locks.setLock key
      { locks.lock key with ref := 0, currentThread := none }).wakeNext key
    (after.lock other).ref = (if other = key then 0 else (locks.lock other).ref) ∧
      (after.lock other).currentThread =
        if other = key then none else (locks.lock other).currentThread := by
  dsimp only
  rw [(wakeNext_lock other).1, (wakeNext_lock other).2]
  simp only [State.setLock, Function.update_apply]
  by_cases same : other = key <;> simp [same]

/-- A timeout takes a lock that is held, and no longer registered, from its holder. -/
theorem onTimeout_spec (inv : Inv state) (stored : (state.timeoutTs key).isSome)
    (known : (state.timeout key).isSome) (held : (state.locks.lock key).ref ≠ 0)
    (gone : ∀ ts, key ∉ state.timeoutLockDict ts) :
    Inv (state.onTimeout key) ∧
      (∀ other, ((state.onTimeout key).locks.lock other).ref =
          (if other = key then 0 else (state.locks.lock other).ref) ∧
        ((state.onTimeout key).locks.lock other).currentThread =
          if other = key then none else (state.locks.lock other).currentThread) ∧
      state.onTimeout key =
        { state with
          locks := (state.onTimeout key).locks
          frames := (state.onTimeout key).frames
          taken := state.taken ++
            [(state.deadline key ((state.timeout key).getD 0), state.clock)] } := by
  obtain ⟨due, stored⟩ := Option.isSome_iff_exists.mp stored
  obtain ⟨timeout, known⟩ := Option.isSome_iff_exists.mp known
  obtain ⟨thread, owner⟩ : ∃ thread, (state.locks.lock key).currentThread = some thread := by
    cases owner : (state.locks.lock key).currentThread with
    | none => exact absurd (inv.owners.free_ref key owner) held
    | some thread => exact ⟨thread, rfl⟩
  have locks := released_lock state.locks key
  rw [onTimeout_eq stored known owner, known]
  refine ⟨⟨?_, ?_, ?_, ?_, inv.nodup⟩, locks, rfl⟩
  · exact inv.owners.release held (state.locks.lock key).err
  · intro who
    rw [wakeNext_bodies]
    simp only [State.setLock, Function.update_apply]
    split
    · next same =>
        subst same
        rw [inv.bodies who, markLost, List.map_map]
        rfl
    · exact inv.bodies who
  · intro other who
    obtain ⟨lost, flags⟩ := inv.flags other who
    simp only [State.depth] at flags ⊢
    rw [(locks other).1, (locks other).2]
    by_cases same : other = key
    · subst same
      rw [if_pos rfl, if_pos rfl, if_neg (Option.some_ne_none who).symm]
      by_cases mine : who = thread
      · subst mine
        refine ⟨(CoLock.flags other (state.frames who)).length, ?_⟩
        rw [Function.update_self, flags_markLost, if_pos rfl]
        rfl
      · have none : (state.locks.lock other).currentThread ≠ some who :=
          fun equal => mine (Option.some.inj (equal.symm.trans owner))
        rw [if_neg none] at flags
        rw [Function.update_of_ne mine]
        exact ⟨lost, flags⟩
    · rw [if_neg same, if_neg same]
      refine ⟨lost, ?_⟩
      by_cases mine : who = thread
      · subst mine
        rw [Function.update_self, flags_markLost, if_neg same]
        exact flags
      · rw [Function.update_of_ne mine]
        exact flags
  · intro other ts listed
    have different : other ≠ key := by
      rintro rfl
      exact gone ts listed
    obtain ⟨stored, known, held⟩ := inv.registered other ts listed
    refine ⟨stored, known, ?_⟩
    rwa [(locks other).1, if_neg different]

theorem foldl_onTimeout (order : List κ) (inv : Inv state) (nodup : order.Nodup)
    (each : ∀ key ∈ order, (state.timeoutTs key).isSome ∧ (state.timeout key).isSome ∧
      (state.locks.lock key).ref ≠ 0 ∧ ∀ ts, key ∉ state.timeoutLockDict ts) :
    Inv (order.foldl onTimeout state) ∧
      (∀ other thread, (order.foldl onTimeout state).locks.Holds other thread ↔
        other ∉ order ∧ state.locks.Holds other thread) ∧
      order.foldl onTimeout state =
        { state with
          locks := (order.foldl onTimeout state).locks
          frames := (order.foldl onTimeout state).frames
          taken := state.taken ++ order.map fun key =>
            (state.deadline key ((state.timeout key).getD 0), state.clock) } := by
  induction order generalizing state with
  | nil => exact ⟨inv, by simp, by simp⟩
  | cons key order ih =>
      obtain ⟨stored, known, held, gone⟩ := each key List.mem_cons_self
      obtain ⟨next_inv, locks, rest⟩ := onTimeout_spec inv stored known held gone
      obtain ⟨fresh, nodup⟩ := List.nodup_cons.mp nodup
      rw [List.foldl_cons]
      have next_each : ∀ other ∈ order, ((state.onTimeout key).timeoutTs other).isSome ∧
          ((state.onTimeout key).timeout other).isSome ∧
          ((state.onTimeout key).locks.lock other).ref ≠ 0 ∧
          ∀ ts, other ∉ (state.onTimeout key).timeoutLockDict ts := by
        intro other mem
        have different : other ≠ key := fun same => fresh (same ▸ mem)
        obtain ⟨stored, known, held, gone⟩ := each other (List.mem_cons_of_mem key mem)
        refine ⟨?_, ?_, ?_, ?_⟩
        · rw [rest]
          exact stored
        · rw [rest]
          exact known
        · rwa [(locks other).1, if_neg different]
        · rw [rest]
          exact gone
      obtain ⟨final, holds, same⟩ := ih next_inv nodup next_each
      refine ⟨final, fun other thread => ?_, ?_⟩
      · rw [holds, List.mem_cons, State.Holds, (locks other).1, (locks other).2]
        by_cases equal : other = key
        · simp [equal]
        · simp [equal, State.Holds]
      · refine same.trans ?_
        rw [rest]
        simp [deadline]

/-- The check takes away the locks that are registered under its second, and only these. -/
theorem check_spec {order : List κ} (inv : Inv state)
    (listed : order.Perm (state.timeoutLockDict (state.lastCheckTs + 1))) :
    Inv (state.checkTimeout order) ∧
      (Good state → (Good (state.checkTimeout order) ↔
        (state.timeoutLockDict (state.lastCheckTs + 1) = [] ∨
          (state.lastCheckTs + 1) * 100 ≤ state.clock))) := by
  let begun : Timed κ τ ε :=
    { state with
      lastCheckTs := state.lastCheckTs + 1
      nextCheck := state.nextCheck + 100
      timeoutLockDict := Function.update state.timeoutLockDict (state.lastCheckTs + 1) [] }
  have left : ∀ other ts, other ∈ begun.timeoutLockDict ts ↔
      other ∈ state.timeoutLockDict ts ∧ ts ≠ state.lastCheckTs + 1 := by
    intro other ts
    simp only [begun, Function.update_apply]
    split <;> simp_all
  have begun_inv : Inv begun := by
    refine ⟨inv.owners, inv.bodies, inv.flags, fun other ts mem => ?_, fun ts => ?_⟩
    · exact inv.registered other ts ((left other ts).mp mem).1
    · simp only [begun, Function.update_apply]
      split
      · exact List.nodup_nil
      · exact inv.nodup ts
  have each : ∀ key ∈ order, (begun.timeoutTs key).isSome ∧ (begun.timeout key).isSome ∧
      (begun.locks.lock key).ref ≠ 0 ∧ ∀ ts, key ∉ begun.timeoutLockDict ts := by
    intro key mem
    obtain ⟨stored, known, held⟩ := inv.registered key _ (listed.mem_iff.mp mem)
    refine ⟨Option.isSome_iff_exists.mpr ⟨_, stored⟩, known, held, fun ts mem => ?_⟩
    obtain ⟨mem, different⟩ := (left key ts).mp mem
    have other := (inv.registered key ts mem).1
    exact different (Option.some.inj (other.symm.trans stored))
  obtain ⟨final, holds, same⟩ :=
    foldl_onTimeout order begun_inv (listed.nodup_iff.mpr (inv.nodup _)) each
  refine ⟨final, fun good => ?_⟩
  -- The deadline of every lock that is taken away is the second of the check.
  have due : ∀ key ∈ order,
      state.deadline key ((state.timeout key).getD 0) = state.lastCheckTs + 1 := by
    intro key mem
    have mem := listed.mem_iff.mp mem
    obtain ⟨-, known, held⟩ := inv.registered key _ mem
    obtain ⟨timeout, known⟩ := Option.isSome_iff_exists.mp known
    cases owner : (state.locks.lock key).currentThread with
    | none => exact absurd (inv.owners.free_ref key owner) held
    | some thread =>
        rw [known]
        exact ((good.registered key timeout thread known ⟨owner, held⟩ _).mp mem).symm
  have taken : (state.checkTimeout order).taken = state.taken ++ order.map fun key =>
      (state.deadline key ((state.timeout key).getD 0), state.clock) :=
    congrArg Timed.taken same
  constructor
  · intro after
    rw [or_iff_not_imp_left]
    intro found
    obtain ⟨key, mem⟩ := List.exists_mem_of_ne_nil _ found
    have mem := listed.mem_iff.mpr mem
    refine after.taken (state.lastCheckTs + 1) state.clock ?_
    rw [taken]
    exact List.mem_append_right _ (List.mem_map.mpr ⟨key, mem, by rw [due key mem]⟩)
  · intro permitted
    refine ⟨fun key timeout thread known held ts => ?_, fun deadline clock mem => ?_, ?_⟩
    · obtain ⟨fresh, held⟩ := (holds key thread).mp held
      have known : state.timeout key = some timeout :=
        (congrFun (congrArg Timed.timeout same) key).symm.trans known
      have old := good.registered key timeout thread known held
      have same_dict := congrArg Timed.timeoutLockDict same
      have dict : (state.checkTimeout order).timeoutLockDict = begun.timeoutLockDict := same_dict
      have same_entered := congrArg Timed.entered same
      have entered : (state.checkTimeout order).entered = state.entered := same_entered
      rw [dict, left, old]
      simp only [deadline, entered]
      refine and_iff_left_of_imp fun ripe equal => fresh (listed.mem_iff.mpr ?_)
      exact equal ▸ (old ts).mpr ripe
    · rw [taken] at mem
      rcases List.mem_append.mp mem with mem | mem
      · exact good.taken deadline clock mem
      · obtain ⟨key, found, equal⟩ := List.mem_map.mp mem
        cases equal
        rw [due key found]
        rcases permitted with empty | late
        · rw [listed.mem_iff, empty] at found
          exact absurd found List.not_mem_nil
        · exact late
    · exact (congrArg Timed.harmed same).trans good.harmed

theorem same_holders {locks : State κ τ ε} (inv : Inv state) (owners : Owners locks)
    (bodies : locks.bodies = state.locks.bodies)
    (same : ∀ other, (locks.lock other).ref = (state.locks.lock other).ref ∧
      ((state.locks.lock other).ref ≠ 0 →
        (locks.lock other).currentThread = (state.locks.lock other).currentThread)) :
    Inv { state with locks := locks } ∧
      (Good state → Good { state with locks := locks }) := by
  have depth : ∀ other thread, locks.depth other thread = state.locks.depth other thread := by
    intro other thread
    unfold State.depth
    obtain ⟨ref, owner⟩ := same other
    by_cases zero : (state.locks.lock other).ref = 0
    · rw [ref, zero]
      simp
    · rw [ref, owner zero]
  refine ⟨⟨owners, ?_, ?_, ?_, inv.nodup⟩, fun good => ⟨?_, good.taken, good.harmed⟩⟩
  · intro thread
    exact (congrFun bodies thread).trans (inv.bodies thread)
  · intro key thread
    obtain ⟨lost, flags⟩ := inv.flags key thread
    exact ⟨lost, flags.trans (by rw [depth])⟩
  · intro key ts mem
    obtain ⟨stored, known, held⟩ := inv.registered key ts mem
    exact ⟨stored, known, (same key).1.symm ▸ held⟩
  · intro key timeout thread known held ts
    have entered : (state.locks.lock key).ref ≠ 0 := (same key).1 ▸ held.2
    exact good.registered key timeout thread known
      ⟨((same key).2 entered).symm.trans held.1, entered⟩ ts

end

theorem step_spec {before after : Timed κ τ ε} {label : TimedLabel κ τ ε} (inv : Inv before)
    (taken : timedStep before label = some after) :
    Inv after ∧ (Good before → (Good after ↔ before.Permitted label)) := by
  cases label with
  | run thread key =>
      obtain ⟨running, taken⟩ := Option.ite_none_left_eq_some.mp taken
      have running : before.locks.waiting thread = none := Option.not_isSome_iff_eq_none.mp running
      split at taken
      · next free =>
          cases taken
          have idle := inv.owners.free_ref key free
          have spec := @enter_spec _ _ _ _ _ _ thread key
            (inv.owners.enter running fun owner owned => by rw [free] at owned; cases owned)
            (inv.owners.free_ref key) (inv.owners.ref_nonneg key)
            (fun owner owned => by rw [free] at owned; cases owned)
            inv.bodies inv.flags inv.registered inv.nodup
          refine ⟨spec.1, fun good => (spec.2 good).trans ?_⟩
          exact ⟨fun ok _ => ok idle, fun ok _ => ok free⟩
      · next owner owned =>
          split at taken
          · next same =>
              subst same
              cases taken
              have own : ∀ other, (before.locks.lock key).currentThread = some other →
                  other = owner := by
                intro other equal
                exact Option.some.inj (equal.symm.trans owned)
              have entered : (before.locks.lock key).ref ≠ 0 := by
                intro zero
                rw [inv.owners.handed key owner owned zero] at running
                cases running
              have spec := @enter_spec _ _ _ _ _ _ owner key
                (inv.owners.enter running own) (inv.owners.free_ref key)
                (inv.owners.ref_nonneg key) own inv.bodies inv.flags inv.registered inv.nodup
              refine ⟨spec.1, fun good => (spec.2 good).trans ?_⟩
              refine iff_of_true (fun zero => absurd zero entered) fun free => ?_
              rw [owned] at free
              cases free
          · next other =>
              cases taken
              have same : ∀ other,
                  ((before.locks.wait thread key).lock other).ref = (before.locks.lock other).ref ∧
                    ((before.locks.lock other).ref ≠ 0 →
                      ((before.locks.wait thread key).lock other).currentThread =
                        (before.locks.lock other).currentThread) := by
                intro other
                simp only [State.wait, Function.update_apply]
                split
                · next same => exact same ▸ ⟨rfl, fun _ => rfl⟩
                · exact ⟨rfl, fun _ => rfl⟩
              have spec := same_holders inv (inv.owners.wait running owned other) rfl same
              refine ⟨spec.1, fun good => iff_of_true (spec.2 good) fun free => ?_⟩
              rw [owned] at free
              cases free
  | resume thread =>
      obtain ⟨queued, taken⟩ := Option.ite_none_right_eq_some.mp taken
      obtain ⟨key, waits, owned, zero⟩ := inv.owners.woken thread queued
      rw [waits] at taken
      simp only [zero, if_true] at taken
      cases taken
      have own : ∀ other, (before.locks.lock key).currentThread = some other → other = thread := by
        intro other equal
        exact Option.some.inj (equal.symm.trans owned)
      have spec := @enter_spec _ _ _ _ _
        { before with
          locks := { before.locks with
            wakeupQueue := before.locks.wakeupQueue.erase thread
            waiting := Function.update before.locks.waiting thread none } } _ _
        (inv.owners.resume queued waits) (inv.owners.free_ref key) (inv.owners.ref_nonneg key) own
        inv.bodies inv.flags inv.registered inv.nodup
      refine ⟨spec.1, fun good => (spec.2 ⟨good.registered, good.taken, good.harmed⟩).trans ?_⟩
      constructor
      · intro ok other mem
        cases waits.symm.trans mem
        exact ok zero
      · intro ok _
        exact ok key waits
  | leave thread err =>
      obtain ⟨running, taken⟩ := Option.ite_none_left_eq_some.mp taken
      have running : before.locks.waiting thread = none := Option.not_isSome_iff_eq_none.mp running
      split at taken
      · cases taken
      · next key rest body =>
          cases taken
          have spec := unlock_spec inv running body err
          refine ⟨spec.1, fun good => (spec.2 good).trans ?_⟩
          simp only [Permitted, body, List.head?_cons, Option.mem_some_iff]
          constructor
          · rintro ok other rfl
            exact ok
          · intro ok
            exact ok key rfl
  | wakeWaiting =>
      obtain ⟨-, taken⟩ := Option.ite_none_left_eq_some.mp taken
      cases taken
      have begun : Owners
          { before.locks with
            wakeThread := false
            waitingWakeList := []
            forkedWakes := before.locks.forkedWakes - 1 } := by
        obtain ⟨free_ref, ref_nonneg, handed, woken, woken_nodup, queued_waits, queue_nodup⟩ :=
          inv.owners
        constructor <;> assumption
      obtain ⟨owners, bodies, same⟩ := wakeLocks_ref before.locks.waitingWakeList begun
      have spec := same_holders inv owners bodies same
      exact ⟨spec.1, fun good => iff_of_true (spec.2 good) trivial⟩
  | check order =>
      obtain ⟨⟨-, listed⟩, taken⟩ := Option.ite_none_right_eq_some.mp taken
      cases taken
      exact check_spec inv listed
  | tick passed =>
      cases taken
      refine ⟨{ inv with }, fun good => ?_⟩
      refine iff_of_true ⟨good.registered, fun deadline clock mem => ?_, good.harmed⟩ trivial
      exact good.taken deadline clock mem

theorem inv_initial (cbFree : κ → Bool) (timeout : κ → Option ℚ) (loaded started : ℕ) :
    Inv (timedInitial cbFree timeout loaded started : Timed κ τ ε) := by
  refine ⟨?_, fun _ => rfl, fun key thread => ⟨0, rfl⟩, fun key ts mem => ?_, fun _ => List.nodup_nil⟩
  · constructor <;> simp [timedInitial, initial, Lock.queue]
  · cases mem

omit [DecidableEq κ] [DecidableEq τ] in
theorem good_initial (cbFree : κ → Bool) (timeout : κ → Option ℚ) (loaded started : ℕ) :
    Good (timedInitial cbFree timeout loaded started : Timed κ τ ε) := by
  refine ⟨fun key timeout thread known held => absurd rfl held.2, fun deadline clock mem => ?_, rfl⟩
  cases mem

/-- The locks are registered under the deadlines of their holders, and are taken away neither early nor by
a late return, exactly in the runs in which no coroutine enters a lock that keeps the deadline of an
earlier holder, no nested run ends, and no check that finds a lock runs ahead of the clock. -/
theorem protected_iff (cbFree : κ → Bool) (timeout : κ → Option ℚ) {loaded started : ℕ}
    {labels : List (TimedLabel κ τ ε)} {final : Timed κ τ ε}
    (execution : run timedStep (timedInitial cbFree timeout loaded started) labels = some final) :
    Always timedStep Good (timedInitial cbFree timeout loaded started) labels ↔
      Guarded timedStep Permitted (timedInitial cbFree timeout loaded started) labels := by
  have preserved : ∀ {before : Timed κ τ ε} {label after}, Inv before →
      Permitted before label → timedStep before label = some after → Inv after := by
    intro before label after inv _ taken
    exact (step_spec inv taken).1
  exact always_iff_guarded preserved (fun inv good taken => (step_spec inv taken).2 good) execution
    (inv_initial cbFree timeout loaded started) (good_initial cbFree timeout loaded started)

/-- A second coroutine waits for the lock; then the lock times out, and its holder returns late. -/
def lateRun : List (TimedLabel ℕ ℕ Unit) :=
  [.run 1 0, .tick 50, .check [], .leave 1 none, .run 1 0, .run 2 0, .tick 100, .check [],
    .tick 200, .check [0], .leave 1 (some ()), .wakeWaiting]

theorem protected_iff_lateRun :
    Always timedStep Good (timedInitial (fun _ => true) (fun _ => some (3 / 2)) 50 50) lateRun := by
  obtain ⟨final, execution⟩ := Option.isSome_iff_exists.mp
    (show (run timedStep (timedInitial (fun _ => true) (fun _ => some (3 / 2)) 50 50)
      lateRun).isSome by decide +kernel)
  exact (protected_iff _ _ execution).mpr (by decide +kernel)

/-- A nested run ends, and its outer run is not registered any more. -/
theorem nestedRun_not_protected :
    ¬ Always timedStep Good
      (timedInitial (fun _ => true) (fun _ => some 1) 50 50 : Timed ℕ ℕ Unit)
      [.run 1 0, .run 1 0, .leave 1 none] := by
  intro always
  have ends : (run timedStep (timedInitial (fun _ => true) (fun _ => some 1) 50 50 : Timed ℕ ℕ Unit)
      [.run 1 0, .run 1 0, .leave 1 none]).map (fun state =>
        ((state.locks.lock 0).currentThread, (state.locks.lock 0).ref, state.timeout 0,
          state.deadline 0 1, state.timeoutLockDict 2)) =
      some (some 1, 1, some 1, 2, []) := by decide +kernel
  obtain ⟨final, execution, same⟩ := Option.map_eq_some_iff.mp ends
  obtain ⟨owner, ref, timeout, deadline, empty⟩ : (final.locks.lock 0).currentThread = some 1 ∧
      (final.locks.lock 0).ref = 1 ∧ final.timeout 0 = some 1 ∧ final.deadline 0 1 = 2 ∧
        final.timeoutLockDict 2 = [] := by
    simpa only [Prod.mk.injEq] using same
  have listed := ((always.last execution).registered 0 1 1 timeout ⟨owner, by omega⟩ 2).mpr
    deadline.symm
  rw [empty] at listed
  cases listed

/-- In every run the bodies that have not lost a lock are those of its owner, as many as its depth. -/
theorem bodies_of_owner (cbFree : κ → Bool) (timeout : κ → Option ℚ) (loaded started : ℕ)
    (labels : List (TimedLabel κ τ ε)) :
    Always timedStep (fun state => ∀ key thread,
        (flags key (state.frames thread)).count false = state.locks.depth key thread)
      (timedInitial cbFree timeout loaded started) labels := by
  refine (always_invariant (fun inv taken => (step_spec inv taken).1)
    (inv_initial cbFree timeout loaded started)).mono fun state inv key thread => ?_
  obtain ⟨lost, same⟩ := inv.flags key thread
  simp [same, List.count_replicate]

end Timed
end UEServer.CoLock
