import UEServer.CoLock.Deadline

/-!
# Leaving a lock with a timeout

The end of a run takes the registration of the lock away, whether it is the outermost run or not; a
timeout takes the lock from its holder, all of whose bodies return late.
-/

namespace UEServer.CoLock

variable {κ τ ε : Type*} [DecidableEq κ] [DecidableEq τ]

section
variable {locks : State κ τ ε} {thread : τ} {key : κ} {rest : List κ}

/-- The locks after the innermost body of a coroutine has ended. -/
def State.leave (locks : State κ τ ε) (thread : τ) (key : κ) (rest : List κ) (err : Option ε) :
    State κ τ ε :=
  (State.storeErr { locks with bodies := Function.update locks.bodies thread rest } key err).unlock
    thread key err

section
omit [DecidableEq τ]

theorem Owners.storeErr (owners : Owners locks) (err : Option ε) :
    Owners (locks.storeErr key err) := by
  cases owners
  cases err with
  | none => constructor <;> assumption
  | some err =>
      constructor <;> simp only [State.storeErr, State.setLock, Lock.queue, Function.update_apply] at *
      case woken_nodup => assumption
      all_goals grind

theorem storeErr_lock (err : Option ε) (other : κ) :
    ((locks.storeErr key err).lock other).currentThread = (locks.lock other).currentThread ∧
      ((locks.storeErr key err).lock other).ref = (locks.lock other).ref := by
  cases err with
  | none => exact ⟨rfl, rfl⟩
  | some err =>
      simp only [State.storeErr, State.setLock, Function.update_apply]
      split
      · next same => exact same ▸ ⟨rfl, rfl⟩
      · exact ⟨rfl, rfl⟩

theorem storeErr_rest (err : Option ε) :
    (locks.storeErr key err).bodies = locks.bodies ∧
      (locks.storeErr key err).waiting = locks.waiting := by
  cases err <;> exact ⟨rfl, rfl⟩

end

omit [DecidableEq κ] [DecidableEq τ] in
theorem Owners.finish (owners : Owners locks) (err : Option ε) :
    Owners (locks.finish thread key err) := by
  cases owners
  cases err <;> constructor <;> assumption

omit [DecidableEq τ] in
theorem wakeNext_lock (other : κ) :
    ((locks.wakeNext key).lock other).ref = (locks.lock other).ref ∧
      ((locks.wakeNext key).lock other).currentThread =
        if other = key then none else (locks.lock other).currentThread := by
  unfold State.wakeNext
  dsimp only
  split <;> simp only [State.setLock, Function.update_apply] <;> split <;> simp_all

omit [DecidableEq κ] [DecidableEq τ] in
theorem finish_same (err : Option ε) :
    (locks.finish thread key err).lock = locks.lock ∧
      (locks.finish thread key err).bodies = locks.bodies := by
  cases err <;> exact ⟨rfl, rfl⟩

omit [DecidableEq τ] in
theorem wakeNext_bodies : (locks.wakeNext key).bodies = locks.bodies := by
  unfold State.wakeNext
  dsimp only
  split <;> rfl

omit [DecidableEq τ] in
theorem wakeNext_owner (ref : Int) (err : Option ε) :
    (locks.setLock key { locks.lock key with ref, err }).wakeNext key =
      (locks.setLock key { locks.lock key with ref, currentThread := none, err }).wakeNext key := by
  unfold State.wakeNext State.setLock
  simp only [Function.update_self, Function.update_idem]
  rfl

theorem Owners.leave (owners : Owners locks) (running : locks.waiting thread = none)
    (err : Option ε) : Owners (locks.leave thread key rest err) := by
  have left : Owners { locks with bodies := Function.update locks.bodies thread rest } := by
    cases owners
    constructor <;> assumption
  have stored := @Owners.storeErr _ _ _ _ _ key left err
  have waiting := (@storeErr_rest _ _ _ _
    { locks with bodies := Function.update locks.bodies thread rest } key err).2
  unfold State.leave State.unlock
  split
  · cases stored
    constructor <;> assumption
  · next owned =>
      have owned := not_not.mp owned
      have entered : ((State.storeErr
          { locks with bodies := Function.update locks.bodies thread rest } key err).lock
            key).ref ≠ 0 := by
        intro zero
        have waits := stored.handed key thread owned zero
        rw [waiting, running] at waits
        cases waits
      have nonneg := stored.ref_nonneg key
      split
      · next last =>
          have released := stored.release entered ((State.storeErr
            { locks with bodies := Function.update locks.bodies thread rest } key err).lock key).err
          refine Owners.finish ?_ err
          rw [last, wakeNext_owner]
          exact released
      · next deeper =>
          refine Owners.finish ?_ err
          exact stored.lower (by omega) entered _

theorem leave_lock (locks : State κ τ ε) (thread : τ) (key : κ) (rest : List κ) (err : Option ε) :
    (locks.leave thread key rest err).bodies = Function.update locks.bodies thread rest ∧
      (∀ other, other ≠ key →
        ((locks.leave thread key rest err).lock other).currentThread =
            (locks.lock other).currentThread ∧
          ((locks.leave thread key rest err).lock other).ref = (locks.lock other).ref) ∧
      ((locks.leave thread key rest err).lock key).ref =
        (if (locks.lock key).currentThread = some thread then (locks.lock key).ref - 1
          else (locks.lock key).ref) ∧
      ((locks.leave thread key rest err).lock key).currentThread =
        if (locks.lock key).currentThread = some thread ∧ (locks.lock key).ref = 1 then none
        else (locks.lock key).currentThread := by
  have stored := @storeErr_lock _ _ _ _
    { locks with bodies := Function.update locks.bodies thread rest } key err
  have bodies := (@storeErr_rest _ _ _ _
    { locks with bodies := Function.update locks.bodies thread rest } key err).1
  unfold State.leave State.unlock
  split
  · next late =>
      rw [(stored key).1] at late
      refine ⟨bodies, fun other _ => stored other, ?_, ?_⟩
      · rw [if_neg late]
        exact (stored key).2
      · have kept : ¬ ((locks.lock key).currentThread = some thread ∧ (locks.lock key).ref = 1) :=
          fun both => late both.1
        rw [if_neg kept]
        exact (stored key).1
  · next owned =>
      have owned := not_not.mp owned
      rw [(stored key).1] at owned
      rw [if_pos owned, (stored key).2]
      split
      · next last =>
          have one : (locks.lock key).ref = 1 := by
            have last : (locks.lock key).ref - 1 = 0 := last
            omega
          rw [(finish_same err).1, (finish_same err).2, wakeNext_bodies, if_pos ⟨owned, one⟩]
          refine ⟨bodies, fun other different => ?_, ?_, ?_⟩
          · rw [(wakeNext_lock other).1, (wakeNext_lock other).2, if_neg different]
            simp only [State.setLock, Function.update_of_ne different]
            exact stored other
          · rw [(wakeNext_lock key).1]
            simp only [State.setLock, Function.update_self]
          · rw [(wakeNext_lock key).2, if_pos rfl]
      · next deeper =>
          have more : (locks.lock key).ref ≠ 1 := by
            have deeper : ¬ (locks.lock key).ref - 1 = 0 := deeper
            omega
          rw [(finish_same err).1, (finish_same err).2, if_neg fun both => more both.2]
          refine ⟨bodies, fun other different => ?_, ?_, ?_⟩
          · simp only [State.setLock, Function.update_of_ne different]
            exact stored other
          · simp only [State.setLock, Function.update_self]
          · simp only [State.setLock, Function.update_self]
            exact (stored key).1

end

namespace Timed

variable {state : Timed κ τ ε} {thread : τ} {key : κ} {rest : List κ}

theorem unlock_eq (err : Option ε) :
    state.unlock thread key rest err =
      { (if (state.locks.lock key).currentThread = some thread then state.popTimeout key
          else state) with
        locks := state.locks.leave thread key rest err
        frames := Function.update state.frames thread (state.frames thread).tail
        harmed :=
          if (state.frames thread).head?.map Prod.snd = some true ∧
              (((state.locks.leave thread key rest err).lock key).currentThread ≠
                  (state.locks.lock key).currentThread ∨
                ((state.locks.leave thread key rest err).lock key).ref ≠
                  (state.locks.lock key).ref) then
            state.harmed ++ [key]
          else state.harmed } :=
  rfl

section
omit [DecidableEq τ]

/-- A lock that is registered only under its deadline is not registered after the pop. -/
theorem mem_popTimeout (registered : ∀ ts, key ∈ state.timeoutLockDict ts → state.timeoutTs key = some ts)
    (other : κ) (ts : ℕ) :
    other ∈ (state.popTimeout key).timeoutLockDict ts ↔
      other ∈ state.timeoutLockDict ts ∧ other ≠ key := by
  unfold popTimeout
  split
  · next forgotten =>
      refine ⟨fun mem => ⟨mem, ?_⟩, And.left⟩
      rintro rfl
      rw [registered ts mem] at forgotten
      cases forgotten
  · next due stored =>
      simp only [Function.update_apply]
      split
      · next same =>
          subst same
          simp
      · next different =>
          refine ⟨fun mem => ⟨mem, ?_⟩, And.left⟩
          rintro rfl
          rw [registered ts mem] at stored
          exact different (Option.some.inj stored)

theorem popTimeout_same (other : κ) (different : other ≠ key) :
    (state.popTimeout key).timeoutTs other = state.timeoutTs other := by
  unfold popTimeout
  split
  · rfl
  · exact Function.update_of_ne different _ _

theorem popTimeout_rest :
    (state.popTimeout key).timeout = state.timeout ∧
      (state.popTimeout key).entered = state.entered ∧
      (state.popTimeout key).taken = state.taken := by
  unfold popTimeout
  split <;> exact ⟨rfl, rfl, rfl⟩

theorem popTimeout_nodup (nodup : ∀ ts, (state.timeoutLockDict ts).Nodup) (ts : ℕ) :
    ((state.popTimeout key).timeoutLockDict ts).Nodup := by
  unfold popTimeout
  split
  · exact nodup ts
  · simp only [Function.update_apply]
    split
    · exact (nodup _).filter _
    · exact nodup ts

end

section
variable (inv : Inv state) (running : state.locks.waiting thread = none)
  (body : state.locks.bodies thread = key :: rest)
include inv running body

/-- The owner of a lock that leaves it has not lost it; another coroutine has. -/
theorem head_flag :
    ∃ outer flag, state.frames thread = (key, flag) :: outer ∧ outer.map Prod.fst = rest ∧
      ((state.locks.lock key).currentThread = some thread → flag = false ∧
        1 ≤ (state.locks.lock key).ref) ∧
      ((state.locks.lock key).currentThread ≠ some thread → flag = true) := by
  have frames := inv.bodies thread
  rw [body] at frames
  obtain ⟨⟨other, flag⟩, outer, split, rfl, tail⟩ := List.map_eq_cons_iff.mp frames.symm
  refine ⟨outer, flag, split, tail, fun owned => ?_, fun lost => ?_⟩
  · obtain ⟨late, flags⟩ := inv.flags other thread
    have entered : (state.locks.lock other).ref ≠ 0 := by
      intro zero
      rw [inv.owners.handed other thread owned zero] at running
      cases running
    have nonneg := inv.owners.ref_nonneg other
    have positive : 1 ≤ (state.locks.lock other).ref := by omega
    obtain ⟨depth, deep⟩ := Nat.exists_eq_succ_of_ne_zero
      (n := (state.locks.lock other).ref.toNat) (by omega)
    rw [split, flags_cons, if_pos rfl, State.depth, if_pos owned, deep, List.replicate_succ,
      List.cons_append] at flags
    exact ⟨(List.cons.inj flags).1, positive⟩
  · obtain ⟨late, flags⟩ := inv.flags other thread
    rw [split, flags_cons, if_pos rfl, State.depth, if_neg lost, List.replicate_zero,
      List.nil_append] at flags
    have mem : flag ∈ List.replicate late true := flags ▸ List.mem_cons_self
    exact List.eq_of_mem_replicate mem

theorem unlock_harmed (err : Option ε) :
    (state.unlock thread key rest err).harmed = state.harmed := by
  obtain ⟨outer, flag, frames, -, mine, lost⟩ := head_flag inv running body
  obtain ⟨-, -, ref, owner⟩ := leave_lock state.locks thread key rest err
  refine if_neg fun both => ?_
  obtain ⟨late, changed⟩ := both
  by_cases owned : (state.locks.lock key).currentThread = some thread
  · rw [frames, (mine owned).1] at late
    cases late
  · rw [if_neg owned] at ref
    rw [if_neg fun both => owned both.1] at owner
    exact changed.elim (fun differs => differs owner) fun differs => differs ref

theorem depth_leave (err : Option ε) (other : κ) (who : τ) :
    state.locks.depth other who = (state.locks.leave thread key rest err).depth other who +
      if other = key ∧ who = thread ∧ (state.locks.lock key).currentThread = some thread then 1
      else 0 := by
  obtain ⟨outer, flag, frames, -, mine, lost⟩ := head_flag inv running body
  obtain ⟨-, others, ref, owner⟩ := leave_lock state.locks thread key rest err
  unfold State.depth
  by_cases same : other = key
  · subst same
    rw [ref, owner]
    by_cases owned : (state.locks.lock other).currentThread = some thread
    · have positive := (mine owned).2
      simp only [owned, true_and, if_true, and_true]
      by_cases who_thread : who = thread
      · subst who_thread
        by_cases last : (state.locks.lock other).ref = 1
        · simp [last]
        · simp only [last, if_false, if_true]
          omega
      · have different : ¬ thread = who := fun same => who_thread same.symm
        by_cases last : (state.locks.lock other).ref = 1 <;> simp [last, who_thread, different]
    · simp [owned]
  · simp [(others other same).1, (others other same).2, same]

theorem flags_leave (err : Option ε) (other : κ) (who : τ) :
    ∃ lost, CoLock.flags other
      (Function.update state.frames thread (state.frames thread).tail who) =
        List.replicate ((state.locks.leave thread key rest err).depth other who) false ++
          List.replicate lost true := by
  obtain ⟨outer, flag, frames, -, -, -⟩ := head_flag inv running body
  obtain ⟨late, old⟩ := inv.flags other who
  have depth := depth_leave inv running body err other who
  by_cases mine : who = thread
  · subst mine
    rw [Function.update_self, frames, List.tail_cons]
    rw [frames, flags_cons] at old
    by_cases same : other = key
    · subst same
      rw [if_pos rfl] at old
      by_cases owned : (state.locks.lock other).currentThread = some who
      · -- The innermost body holds the lock.
        rw [if_pos ⟨rfl, rfl, owned⟩] at depth
        rw [depth, List.replicate_succ, List.cons_append] at old
        exact ⟨late, (List.cons.inj old).2⟩
      · -- The innermost body, and all the others, have lost it.
        rw [if_neg fun all => owned all.2.2] at depth
        have none : state.locks.depth other who = 0 := if_neg owned
        rw [none, List.replicate_zero, List.nil_append] at old
        rw [← Nat.add_zero (State.depth _ _ _), ← depth, none]
        cases late with
        | zero => cases old
        | succ late =>
            exact ⟨late, (List.cons.inj old).2⟩
    · rw [if_neg fun all => same all.1] at depth
      rw [if_neg fun equal => same equal.symm] at old
      rw [← Nat.add_zero (State.depth _ _ _), ← depth]
      exact ⟨late, old⟩
  · rw [Function.update_of_ne mine]
    rw [if_neg fun all => mine all.2.1] at depth
    rw [← Nat.add_zero (State.depth _ _ _), ← depth]
    exact ⟨late, old⟩

theorem bodies_leave (err : Option ε) (who : τ) :
    (state.locks.leave thread key rest err).bodies who =
      (Function.update state.frames thread (state.frames thread).tail who).map Prod.fst := by
  obtain ⟨outer, flag, frames, outer_bodies, -, -⟩ := head_flag inv running body
  rw [(leave_lock state.locks thread key rest err).1, Function.update_apply, Function.update_apply]
  split
  · rw [frames, List.tail_cons, outer_bodies]
  · exact inv.bodies who

theorem unlock_spec (err : Option ε) :
    Inv (state.unlock thread key rest err) ∧
      (Good state → (Good (state.unlock thread key rest err) ↔
        ((state.locks.lock key).currentThread = some thread → state.timeout key ≠ none →
          (state.locks.lock key).ref = 1))) := by
  have harmed := unlock_harmed inv running body err
  have new_bodies := bodies_leave inv running body err
  have new_flags := flags_leave inv running body err
  obtain ⟨left, others, ref, owner⟩ := leave_lock state.locks thread key rest err
  have owners := @Owners.leave _ _ _ _ _ _ _ key rest inv.owners running err
  rw [unlock_eq] at harmed ⊢
  by_cases owned : (state.locks.lock key).currentThread = some thread
  · have mem := @mem_popTimeout _ _ _ _ _ key fun ts mem => (inv.registered key ts mem).1
    obtain ⟨timeouts, entered, taken⟩ := @popTimeout_rest _ _ _ _ state key
    rw [if_pos owned] at ref ⊢
    refine ⟨⟨owners, new_bodies, new_flags, fun other ts listed => ?_,
      popTimeout_nodup inv.nodup⟩, fun good => ⟨fun after _ timed => ?_, fun only => ?_⟩⟩
    · obtain ⟨listed, different⟩ := (mem other ts).mp listed
      obtain ⟨stored, known, held⟩ := inv.registered other ts listed
      refine ⟨(popTimeout_same other different).trans stored, ?_, ?_⟩
      · exact timeouts.symm ▸ known
      · rwa [(others other different).2]
    · by_contra deeper
      obtain ⟨timeout, known⟩ := Option.ne_none_iff_exists'.mp timed
      rw [if_neg fun both => deeper both.2, owned] at owner
      have held : (state.locks.leave thread key rest err).Holds key thread :=
        ⟨owner, by omega⟩
      have listed := (after.registered key timeout thread
        ((congrFun timeouts key).trans known) held _).mpr rfl
      exact ((mem key _).mp listed).2 rfl
    · refine ⟨fun other timeout who known held ts => ?_, ?_, ?_⟩
      · have named : state.timeout other = some timeout := (congrFun timeouts other).symm.trans known
        by_cases same : other = key
        · subst same
          have zero : ((state.locks.leave thread other rest err).lock other).ref = 0 := by
            have one := only owned (named ▸ Option.some_ne_none _)
            omega
          exact absurd zero held.2
        · have held : state.locks.Holds other who :=
            ⟨(others other same).1.symm.trans held.1, (others other same).2 ▸ held.2⟩
          have old := good.registered other timeout who named held ts
          simp only [deadline, entered]
          rw [mem, old]
          exact and_iff_left same
      · exact taken.symm ▸ good.taken
      · exact harmed.trans good.harmed
  · rw [if_neg owned] at ref ⊢
    rw [if_neg fun both => owned both.1] at owner
    have same : ∀ other,
        ((state.locks.leave thread key rest err).lock other).currentThread =
            (state.locks.lock other).currentThread ∧
          ((state.locks.leave thread key rest err).lock other).ref =
            (state.locks.lock other).ref := by
      intro other
      by_cases equal : other = key
      · subst equal
        exact ⟨owner, ref⟩
      · exact others other equal
    refine ⟨⟨owners, new_bodies, new_flags, fun other ts listed => ?_, inv.nodup⟩,
      fun good => iff_of_true ⟨fun other timeout who known held ts => ?_, good.taken, ?_⟩
        fun mine => absurd mine owned⟩
    · obtain ⟨stored, known, held⟩ := inv.registered other ts listed
      exact ⟨stored, known, by rwa [(same other).2]⟩
    · have held : state.locks.Holds other who :=
        ⟨(same other).1.symm.trans held.1, (same other).2 ▸ held.2⟩
      exact good.registered other timeout who known held ts
    · exact harmed.trans good.harmed

end

end Timed
end UEServer.CoLock
