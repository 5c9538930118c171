import UEServer.CoLock.Holder

/-!
# Deadlines of holders

A lock is registered only while it is held, and only under its own deadline, so that a check takes it
from the holder that registered it.  But the end of a nested run takes the registration away, and a
holder that comes after a timeout does not register itself.
-/

namespace UEServer.CoLock

open Execution

variable {κ τ ε : Type*} [DecidableEq κ] [DecidableEq τ]

/-- The bodies of one lock, and whether they have lost it. -/
def flags (key : κ) (frames : List (κ × Bool)) : List Bool :=
  (frames.filter fun frame => frame.1 = key).map Prod.snd

def State.depth (locks : State κ τ ε) (key : κ) (thread : τ) : ℕ :=
  if (locks.lock key).currentThread = some thread then (locks.lock key).ref.toNat else 0

/-- The coroutine holds the lock: it owns it, and has entered it. -/
def State.Holds (locks : State κ τ ε) (key : κ) (thread : τ) : Prop :=
  (locks.lock key).currentThread = some thread ∧ (locks.lock key).ref ≠ 0

namespace Timed

/-- What holds of the locks with timeouts. -/
structure Inv (state : Timed κ τ ε) : Prop where
  owners : Owners state.locks
  bodies : ∀ thread, state.locks.bodies thread = (state.frames thread).map Prod.fst
  /-- The inner bodies of a holder hold the lock; those outside of them have lost it. -/
  flags : ∀ key thread, ∃ lost, flags key (state.frames thread) =
    List.replicate (state.locks.depth key thread) false ++ List.replicate lost true
  /-- A lock is registered under its deadline only, and only while it is held. -/
  registered : ∀ key ts, key ∈ state.timeoutLockDict ts → state.timeoutTs key = some ts ∧
    (state.timeout key).isSome ∧ (state.locks.lock key).ref ≠ 0
  nodup : ∀ ts, (state.timeoutLockDict ts).Nodup

/-- While a coroutine holds a lock with a timeout, the lock is registered under one deadline, which is
that of the holder; no lock has been taken away before the deadline of its holder; and no late return has
changed the owner or the depth of a lock. -/
structure Good (state : Timed κ τ ε) : Prop where
  /-- A lock that is held is registered under the deadline of its holder. -/
  registered : ∀ key timeout thread, state.timeout key = some timeout →
    state.locks.Holds key thread →
      ∀ ts, key ∈ state.timeoutLockDict ts ↔ ts = state.deadline key timeout
  taken : ∀ deadline clock, (deadline, clock) ∈ state.taken → deadline * 100 ≤ clock
  harmed : state.harmed = []

/-- No lock is entered that keeps the deadline of an earlier holder; no nested run ends; and no check
that runs ahead of the clock finds a lock. -/
def Permitted (state : Timed κ τ ε) : TimedLabel κ τ ε → Prop
  | .run _ key => (state.locks.lock key).currentThread = none → state.timeout key ≠ none →
      state.timeoutTs key = none
  | .resume thread => ∀ key ∈ state.locks.waiting thread, state.timeout key ≠ none →
      state.timeoutTs key = none
  | .leave thread _ => ∀ key ∈ (state.locks.bodies thread).head?,
      (state.locks.lock key).currentThread = some thread → state.timeout key ≠ none →
        (state.locks.lock key).ref = 1
  | .check _ => state.timeoutLockDict (state.lastCheckTs + 1) = [] ∨
      (state.lastCheckTs + 1) * 100 ≤ state.clock
  | _ => True

instance (state : Timed κ τ ε) : (label : TimedLabel κ τ ε) → Decidable (state.Permitted label)
  | .run _ key => inferInstanceAs (Decidable
      ((state.locks.lock key).currentThread = none → state.timeout key ≠ none →
        state.timeoutTs key = none))
  | .resume thread => inferInstanceAs (Decidable
      (∀ key ∈ state.locks.waiting thread, state.timeout key ≠ none →
        state.timeoutTs key = none))
  | .leave thread _ => inferInstanceAs (Decidable
      (∀ key ∈ (state.locks.bodies thread).head?,
        (state.locks.lock key).currentThread = some thread → state.timeout key ≠ none →
          (state.locks.lock key).ref = 1))
  | .check _ => inferInstanceAs (Decidable
      (state.timeoutLockDict (state.lastCheckTs + 1) = [] ∨
        (state.lastCheckTs + 1) * 100 ≤ state.clock))
  | .wakeWaiting => isTrue trivial
  | .tick _ => isTrue trivial

section
variable {state : Timed κ τ ε} {thread : τ} {key : κ}

theorem flags_cons (key other : κ) (flag : Bool) (frames : List (κ × Bool)) :
    flags key ((other, flag) :: frames) =
      if other = key then flag :: flags key frames else flags key frames := by
  unfold CoLock.flags
  by_cases same : other = key <;> simp [same]

theorem depth_enter (locks : State κ τ ε) (free : (locks.lock key).currentThread = none →
      (locks.lock key).ref = 0) (nonneg : 0 ≤ (locks.lock key).ref)
    (own : ∀ owner, (locks.lock key).currentThread = some owner → owner = thread)
    (other : κ) (who : τ) :
    (locks.enter thread key).depth other who =
      locks.depth other who + if other = key ∧ who = thread then 1 else 0 := by
  simp only [State.depth, State.enter, Function.update_apply]
  by_cases same : other = key
  · subst same
    by_cases mine : who = thread
    · subst mine
      cases owner : (locks.lock other).currentThread with
      | none => simp [free owner]
      | some holder =>
          obtain rfl := own holder owner
          simp [Int.toNat_add nonneg]
    · have elsewhere : (locks.lock other).currentThread ≠ some who :=
        fun owner => mine (own who owner)
      simp [elsewhere, mine, Ne.symm mine]
  · simp [same]

theorem holds_enter (locks : State κ τ ε)
    (nonneg : 0 ≤ (locks.lock key).ref) (other : κ) (who : τ) :
    (locks.enter thread key).Holds other who ↔
      if other = key then who = thread else locks.Holds other who := by
  simp only [State.Holds, State.enter, Function.update_apply]
  grind

omit [DecidableEq τ] in
theorem mem_pushTimeout {timeout : ℕ} (other : κ) (ts : ℕ) :
    other ∈ (state.pushTimeout key timeout).timeoutLockDict ts ↔
      other ∈ state.timeoutLockDict ts ∨ other = key ∧ ts = seconds state.clock + timeout := by
  simp only [pushTimeout, Function.update_apply]
  split
  · split <;> grind
  · grind

theorem enter_spec (owners : Owners (state.locks.enter thread key))
    (free : (state.locks.lock key).currentThread = none → (state.locks.lock key).ref = 0)
    (nonneg : 0 ≤ (state.locks.lock key).ref)
    (own : ∀ owner, (state.locks.lock key).currentThread = some owner → owner = thread)
    (bodies : ∀ thread, state.locks.bodies thread = (state.frames thread).map Prod.fst)
    (flags : ∀ key thread, ∃ lost, flags key (state.frames thread) =
      List.replicate (state.locks.depth key thread) false ++ List.replicate lost true)
    (registered : ∀ key ts, key ∈ state.timeoutLockDict ts → state.timeoutTs key = some ts ∧
      (state.timeout key).isSome ∧ (state.locks.lock key).ref ≠ 0)
    (nodup : ∀ ts, (state.timeoutLockDict ts).Nodup) :
    Inv (state.enter thread key) ∧ (Good state → (Good (state.enter thread key) ↔
      ((state.locks.lock key).ref = 0 → state.timeout key ≠ none →
        state.timeoutTs key = none))) := by
  have depth := depth_enter state.locks free nonneg own
  have holds := @holds_enter _ _ _ _ _ thread _ state.locks nonneg
  have new_bodies : ∀ who, (state.locks.enter thread key).bodies who =
      (Function.update state.frames thread ((key, false) :: state.frames thread) who).map
        Prod.fst := by
    intro who
    simp only [State.enter, Function.update_apply]
    split
    · next same =>
        subst same
        rw [bodies who, List.map_cons]
    · exact bodies who
  have new_flags : ∀ other who, ∃ lost, CoLock.flags other
      (Function.update state.frames thread ((key, false) :: state.frames thread) who) =
        List.replicate ((state.locks.enter thread key).depth other who) false ++
          List.replicate lost true := by
    intro other who
    obtain ⟨lost, old⟩ := flags other who
    refine ⟨lost, ?_⟩
    rw [depth other who]
    by_cases mine : who = thread
    · subst mine
      rw [Function.update_self, flags_cons, old]
      by_cases same : key = other
      · rw [if_pos same, if_pos ⟨same.symm, rfl⟩]
        rfl
      · rw [if_neg same, if_neg fun both => same both.1.symm]
        rfl
    · rw [Function.update_of_ne mine, old, if_neg fun both => mine both.2]
      rfl
  have refs : ∀ other, (state.locks.lock other).ref ≠ 0 →
      ((state.locks.enter thread key).lock other).ref ≠ 0 := by
    simp only [State.enter, Function.update_apply]
    grind
  unfold Timed.enter
  dsimp only
  split
  · next timeout known forgotten =>
      refine ⟨⟨owners, new_bodies, new_flags, ?_, ?_⟩, fun good => iff_of_true ?_ fun _ _ => forgotten⟩
      · intro other ts mem
        rw [mem_pushTimeout] at mem
        simp only [pushTimeout, Function.update_apply]
        rcases mem with mem | ⟨rfl, rfl⟩
        · obtain ⟨stored, some, entered⟩ := registered other ts mem
          have different : other ≠ key := by
            rintro rfl
            rw [forgotten] at stored
            cases stored
          rw [if_neg different]
          exact ⟨stored, some, refs other entered⟩
        · refine ⟨by simp, by simp [known], ?_⟩
          simp only [State.enter, Function.update_self]
          omega
      · intro ts
        simp only [pushTimeout, Function.update_apply]
        split
        · split
          · exact nodup _
          · next fresh =>
              grind
        · exact nodup ts
      · -- The lock was not held, since its deadline is forgotten.
        have idle : (state.locks.lock key).ref = 0 := by
          by_contra entered
          cases owner : (state.locks.lock key).currentThread with
          | none => exact entered (free owner)
          | some who =>
              have mem := (good.registered key timeout who known ⟨owner, entered⟩ _).mpr rfl
              rw [(registered key _ mem).1] at forgotten
              cases forgotten
        refine ⟨fun other time who some held ts => ?_, good.taken, good.harmed⟩
        rw [mem_pushTimeout]
        have held := (holds other who).mp held
        simp only [deadline, pushTimeout, if_pos idle, Function.update_apply]
        by_cases same : other = key
        · subst same
          cases known.symm.trans some
          rw [if_pos rfl]
          constructor
          · rintro (mem | ⟨-, rfl⟩)
            · exact absurd idle (registered other ts mem).2.2
            · rfl
          · exact fun due => .inr ⟨rfl, due⟩
        · rw [if_neg same] at held ⊢
          rw [good.registered other time who some held ts]
          simp [same, deadline]
  · next kept =>
      refine ⟨⟨owners, new_bodies, new_flags, fun other ts mem => ?_, nodup⟩, fun good => ?_⟩
      · obtain ⟨stored, some, entered⟩ := registered other ts mem
        exact ⟨stored, some, refs other entered⟩
      · constructor
        · intro after idle timed
          obtain ⟨timeout, known⟩ := Option.ne_none_iff_exists'.mp timed
          have held : (state.locks.enter thread key).Holds key thread := by
            rw [holds, if_pos rfl]
          have mem := (after.registered key timeout thread known held _).mpr rfl
          exact absurd idle (registered key _ mem).2.2
        · intro permitted
          refine ⟨fun other time who some held ts => ?_, good.taken, good.harmed⟩
          have held := (holds other who).mp held
          by_cases same : other = key
          · subst same
            have entered : (state.locks.lock other).ref ≠ 0 := by
              intro idle
              exact kept time some (permitted idle (by rw [some]; exact Option.some_ne_none _))
            rw [if_neg entered]
            cases owner : (state.locks.lock other).currentThread with
            | none => exact absurd (free owner) entered
            | some holder => exact good.registered other time holder some ⟨owner, entered⟩ ts
          · rw [if_neg same] at held
            rw [good.registered other time who some held ts]
            split
            · simp [deadline, same]
            · rfl

end
end Timed
end UEServer.CoLock
