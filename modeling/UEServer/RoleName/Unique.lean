import UEServer.RoleName.Basic

/-!
# Unique names

The registry is what keeps names unique: a name is put on a role only while the registry holds it
for that role.  The invariant follows a name from its claim to the end of the creation or rename,
and from there to the end of the rename that gives it up.
-/

namespace UEServer.RoleName

namespace Flow
variable {ν : Type*}

/-- The name that the coroutine has claimed and not put on the role yet. -/
def claim : Flow ν → Option (ℕ × ν)
  | .inserted _ uuid name true => some (uuid, name)
  | .loading uuid name | .releasing uuid _ name | .deleting uuid _ name | .deleted uuid _ name =>
      some (uuid, name)
  | _ => none

/-- The role whose rename has read the old name. -/
def moving : Flow ν → Option (ℕ × ν)
  | .releasing uuid old _ | .deleting uuid old _ | .deleted uuid old _ => some (uuid, old)
  | _ => none

/-- The old name has been taken out of the registry, and is still that of the role. -/
def leaving : Flow ν → Option (ℕ × ν)
  | .deleted uuid old _ => some (uuid, old)
  | _ => none

def creating : Flow ν → Option ℕ
  | .claiming true uuid _ | .inserting true uuid _ | .inserted true uuid _ _ | .loading uuid _ =>
      some uuid
  | _ => none

attribute [simp, grind =] claim moving leaving creating

end Flow

variable {ν τ : Type*}

/-- The role is in the last part of a rename: its name is free and will be replaced next. -/
def Leaving (state : State ν τ) (uuid : ℕ) (name : ν) : Prop :=
  ∃ thread, (state.flows thread).leaving = some (uuid, name)

/-- Names are unique, registered, and available exactly when no role bears or has claimed them. -/
structure Good (state : State ν τ) : Prop where
  distinct : ∀ uuid other name, state.names uuid = some name → state.names other = some name →
    uuid = other
  registered : ∀ uuid name, state.names uuid = some name →
    state.registry name = some uuid ∨ Leaving state uuid name
  /-- A name is available if and only if no role bears it or has claimed it. -/
  available : ∀ name, state.registry name = none ↔
    (∀ uuid, state.names uuid = some name → Leaving state uuid name) ∧
      ∀ thread uuid, (state.flows thread).claim ≠ some (uuid, name)

/-- Nothing is going on: the registry lists the names of the roles, and the next number is new. -/
structure Started (env : ServerEnv ν) (state : State ν τ) : Prop where
  registry : ∀ name uuid, state.registry name = some uuid ↔ state.names uuid = some name
  numbered : ∀ uuid, state.names uuid ≠ none → uuid < env.serverId * env.maxRoleNum + state.lastRoleNum
  idle : ∀ thread, state.flows thread = .idle

/-- A creation goes on only if its claim has succeeded, a rename with a successful claim only if no
other rename of the role has read its old name, and the database executes the claim of a name only
if no rename that has deleted it is still waiting for the answer. -/
def Event.Permitted (state : State ν τ) : Event ν τ → Prop
  | .resume thread _ =>
      match state.flows thread with
      | .inserted true _ _ done => done = true
      | .inserted false uuid _ true =>
          ∀ other, (state.flows other).moving.map Prod.fst ≠ some uuid
      | _ => True
  | .execute thread =>
      match state.flows thread with
      | .inserting _ _ name => ∀ other, (state.flows other).leaving.map Prod.snd ≠ some name
      | _ => True
  | _ => True

/-- Where the names are between their claim and their end. -/
structure Inv (env : ServerEnv ν) (state : State ν τ) : Prop where
  registered : ∀ uuid name, state.names uuid = some name →
    state.registry name = some uuid ∨ Leaving state uuid name
  claimed : ∀ thread uuid name, (state.flows thread).claim = some (uuid, name) →
    state.registry name = some uuid
  /-- A registered name has been claimed or is that of the role. -/
  owned : ∀ uuid name, state.registry name = some uuid →
    state.names uuid = some name ∨ ∃ thread, (state.flows thread).claim = some (uuid, name)
  once : ∀ thread other uuid name, (state.flows thread).claim = some (uuid, name) →
    (state.flows other).claim = some (uuid, name) → thread = other
  unborne : ∀ thread uuid name, (state.flows thread).claim = some (uuid, name) →
    ∀ other, state.names other ≠ some name
  moving : ∀ thread uuid old, (state.flows thread).moving = some (uuid, old) →
    state.names uuid = some old
  single : ∀ thread other uuid old last, (state.flows thread).moving = some (uuid, old) →
    (state.flows other).moving = some (uuid, last) → thread = other
  gone : ∀ thread uuid old, (state.flows thread).leaving = some (uuid, old) →
    state.registry old = none
  alone : ∀ uuid other name, state.names uuid = some name → state.names other = some name →
    uuid = other
  fresh : ∀ thread uuid, (state.flows thread).creating = some uuid →
    state.names uuid = none ∧ uuid < env.serverId * env.maxRoleNum + state.lastRoleNum
  created : ∀ thread other uuid, (state.flows thread).creating = some uuid →
    (state.flows other).creating = some uuid → thread = other
  numbered : ∀ uuid, state.names uuid ≠ none →
    uuid < env.serverId * env.maxRoleNum + state.lastRoleNum

theorem Inv.good {env : ServerEnv ν} {state : State ν τ} (inv : Inv env state) : Good state := by
  refine ⟨inv.alone, inv.registered, fun name => ⟨fun free => ⟨fun uuid named => ?_, ?_⟩, ?_⟩⟩
  · rcases inv.registered uuid name named with registered | leaving
    · cases free.symm.trans registered
    · exact leaving
  · intro thread uuid claims
    cases free.symm.trans (inv.claimed thread uuid name claims)
  · rintro ⟨unborne, unclaimed⟩
    cases registered : state.registry name with
    | none => rfl
    | some uuid =>
        rcases inv.owned uuid name registered with named | ⟨thread, claims⟩
        · obtain ⟨thread, leaves⟩ := unborne uuid named
          cases registered.symm.trans (inv.gone thread uuid name leaves)
        · exact absurd claims (unclaimed thread uuid)

theorem Started.inv {env : ServerEnv ν} {state : State ν τ} (started : Started env state) :
    Inv env state := by
  obtain ⟨registry, numbered, idle⟩ := started
  have unique : ∀ uuid other name, state.names uuid = some name → state.names other = some name →
      uuid = other := by
    intro uuid other name named named_other
    rw [← registry] at named named_other
    exact Option.some.inj (named.symm.trans named_other)
  constructor
  case alone => exact unique
  all_goals simp_all

section
variable [DecidableEq τ] {env : ServerEnv ν} {state : State ν τ} {thread : τ}

theorem part_update {α : Type*} (part : Flow ν → α) (flows : τ → Flow ν) (thread other : τ)
    (flow : Flow ν) : part (Function.update flows thread flow other) =
      if other = thread then part flow else part (flows other) := by
  rw [Function.update_apply]
  split <;> rfl

variable {lock : ν → Option τ}

theorem goes_inv (inv : Inv env state) {flow : Flow ν}
    (claim : flow.claim = (state.flows thread).claim)
    (moving : flow.moving = (state.flows thread).moving)
    (leaving : flow.leaving = (state.flows thread).leaving)
    (creating : flow.creating = (state.flows thread).creating ∨ flow.creating = none) :
    Inv env { state with lock, flows := Function.update state.flows thread flow } := by
  cases inv
  constructor <;>
    simp only [Leaving, part_update Flow.claim, part_update Flow.moving, part_update Flow.leaving,
      part_update Flow.creating] at *
  all_goals grind

variable {uuid : ℕ}

theorem release_inv (inv : Inv env state) {old name : ν}
    (doing : state.flows thread = .inserted false uuid name true)
    (named : state.names uuid = some old)
    (only : ∀ other, (state.flows other).moving.map Prod.fst ≠ some uuid) :
    Inv env { state with
      lock, flows := Function.update state.flows thread (.releasing uuid old name) } := by
  cases inv
  have first : ∀ other last, (state.flows other).moving ≠ some (uuid, last) := by
    intro other last moving
    exact only other (by rw [moving]; rfl)
  constructor <;> simp only [Leaving, Function.update_apply] at *
  all_goals grind

theorem rename_inv (inv : Inv env state) {old name : ν}
    (doing : state.flows thread = .deleted uuid old name) :
    Inv env { state with
      lock
      names := Function.update state.names uuid (some name)
      flows := Function.update state.flows thread .idle } := by
  cases inv
  have claim : (state.flows thread).claim = some (uuid, name) := by rw [doing]; rfl
  constructor <;> simp only [Leaving, Function.update_apply] at *
  all_goals grind

theorem load_inv (inv : Inv env state) {name : ν}
    (doing : state.flows thread = .loading uuid name) :
    Inv env { state with
      names := Function.update state.names uuid (some name)
      flows := Function.update state.flows thread .idle } := by
  cases inv
  have claim : (state.flows thread).claim = some (uuid, name) := by rw [doing]; rfl
  constructor <;> simp only [Leaving, Function.update_apply] at *
  all_goals grind

theorem create_inv (inv : Inv env state) {name : ν}
    (claim : (state.flows thread).claim = none) (moving : (state.flows thread).moving = none)
    (leaving : (state.flows thread).leaving = none) :
    Inv env (create env state thread name) := by
  have counted : Inv env { state with lastRoleNum := state.lastRoleNum + 1 } := by
    obtain ⟨registered, claimed, owned, once, unborne, moves, single, gone, alone, fresh, created,
      numbered⟩ := inv
    refine ⟨registered, claimed, owned, once, unborne, moves, single, gone, alone, ?_, created, ?_⟩
    · intro other uuid creating
      exact ⟨(fresh other uuid creating).1, Nat.lt_succ_of_lt (fresh other uuid creating).2⟩
    · exact fun uuid named => Nat.lt_succ_of_lt (numbered uuid named)
  unfold create
  split
  · exact goes_inv counted claim.symm moving.symm leaving.symm (.inr rfl)
  · cases inv
    constructor <;> simp only [Leaving, State.goes, Function.update_apply] at *
    all_goals grind

variable [DecidableEq ν]

theorem insert_inv (inv : Inv env state) {creates : Bool} {name : ν}
    (doing : state.flows thread = .inserting creates uuid name) (free : state.registry name = none)
    (stays : ∀ other, (state.flows other).leaving.map Prod.snd ≠ some name) :
    Inv env { state with
      registry := Function.update state.registry name (some uuid)
      flows := Function.update state.flows thread (.inserted creates uuid name true) } := by
  cases inv
  have unleft : ∀ other role, (state.flows other).leaving ≠ some (role, name) := by
    intro other role leaves
    exact stays other (by rw [leaves]; rfl)
  have creating : (state.flows thread).creating = (Flow.inserted creates uuid name true).creating := by
    rw [doing]
    cases creates <;> rfl
  constructor <;> simp only [Leaving, Function.update_apply] at *
  all_goals grind

theorem delete_inv (inv : Inv env state) {old name : ν}
    (doing : state.flows thread = .deleting uuid old name) :
    Inv env { state with
      registry := Function.update state.registry old none
      flows := Function.update state.flows thread (.deleted uuid old name) } := by
  cases inv
  constructor <;> simp only [Leaving, Function.update_apply] at *
  all_goals grind

theorem unlock_eq (state : State ν τ) (thread : τ) (name : ν) :
    ∃ lock, state.unlock thread name = { state with lock } := by
  unfold State.unlock
  split
  · exact ⟨_, rfl⟩
  · exact ⟨_, rfl⟩

variable {after : State ν τ}

theorem execute_inv (inv : Inv env state)
    (permitted : Event.Permitted state (.execute thread))
    (taken : execute state thread = some after) : Inv env after := by
  unfold execute at taken
  split at taken
  · next role name doing =>
      cases taken
      apply goes_inv inv <;> simp [doing]
  · next creates uuid name doing =>
      simp only [Event.Permitted, doing] at permitted
      split at taken
      · cases taken
        apply goes_inv inv <;> cases creates <;> simp [doing]
      · next free =>
          cases taken
          exact insert_inv inv doing (Option.not_isSome_iff_eq_none.mp free) permitted
  · next uuid old name doing =>
      cases taken
      exact delete_inv inv doing
  · cases taken

theorem acquire_inv (inv : Inv env state)
    (taken : acquire state thread = some after) : Inv env after := by
  unfold acquire at taken
  split at taken
  · next creates uuid name doing =>
      split at taken
      · cases taken
        apply goes_inv inv <;> cases creates <;> simp [doing]
      · cases taken
  · next uuid old name doing =>
      split at taken
      · cases taken
        apply goes_inv inv <;> simp [doing]
      · cases taken
  · cases taken

theorem resume_inv {pays : Bool} (inv : Inv env state)
    (permitted : Event.Permitted state (.resume thread pays))
    (taken : resume env state thread pays = some after) : Inv env after := by
  unfold resume at taken
  split at taken
  · next role name known doing =>
      have claim : (state.flows thread).claim = none := by rw [doing]; rfl
      have moving : (state.flows thread).moving = none := by rw [doing]; rfl
      have leaving : (state.flows thread).leaving = none := by rw [doing]; rfl
      split at taken
      · cases taken
        exact goes_inv inv claim.symm moving.symm leaving.symm (.inr rfl)
      · split at taken
        · cases taken
          exact create_inv inv claim moving leaving
        · cases taken
          cases pays <;> exact goes_inv inv claim.symm moving.symm leaving.symm (.inr rfl)
  · next uuid name done doing =>
      simp only [Event.Permitted, doing] at permitted
      subst permitted
      cases taken
      obtain ⟨lock, unlocked⟩ := unlock_eq state thread name
      rw [unlocked]
      apply goes_inv inv <;> simp [doing]
  · next uuid name done doing =>
      obtain ⟨lock, unlocked⟩ := unlock_eq state thread name
      rw [unlocked] at taken
      split at taken
      · next success =>
          subst success
          obtain ⟨old, named, rfl⟩ := Option.map_eq_some_iff.mp taken
          simp only [Event.Permitted, doing] at permitted
          exact release_inv inv doing named permitted
      · next failure =>
          cases taken
          obtain rfl := Bool.eq_false_iff.mpr failure
          apply goes_inv inv <;> simp [doing]
  · next uuid name doing =>
      cases taken
      exact load_inv inv doing
  · next uuid old name doing =>
      cases taken
      obtain ⟨lock, unlocked⟩ := unlock_eq state thread old
      rw [unlocked]
      exact rename_inv inv doing
  · cases taken

theorem step_inv {event : Event ν τ} (inv : Inv env state)
    (permitted : event.Permitted state) (taken : step env state event = some after) :
    Inv env after := by
  cases event with
  | newRole thread name =>
      obtain ⟨⟨idle, -⟩, taken⟩ := Option.ite_none_right_eq_some.mp taken
      cases taken
      apply goes_inv inv <;> simp [idle]
  | modifyRoleName thread uuid name =>
      obtain ⟨⟨idle, -⟩, taken⟩ := Option.ite_none_right_eq_some.mp taken
      cases taken
      apply goes_inv inv <;> simp [idle]
  | answer thread clean =>
      simp only [step] at taken
      split at taken
      · next role name doing =>
          cases taken
          apply goes_inv inv <;> cases clean <;> simp [doing]
      · cases taken
  | execute thread => exact execute_inv inv permitted taken
  | acquire thread => exact acquire_inv inv taken
  | resume thread pays => exact resume_inv inv permitted taken
  | timeout name =>
      cases taken
      exact { inv with }

/-- In every run whose stretches are all permitted, names are unique, registered, and available
when they are not in use. -/
theorem names_unique {events : List (Event ν τ)} (started : Started env state)
    (permitted : Execution.Guarded (step env) (fun state event => event.Permitted state) state
      events) : Execution.Always (step env) Good state events :=
  (Execution.always_of_guarded step_inv permitted started.inv).mono fun _ inv => inv.good

end

section
def sampleEnv : ServerEnv ℕ where
  serverId := 0
  maxRoleNum := 10
  legal := fun _ => true

def emptyState : State ℕ Bool where
  registry := fun _ => none
  names := fun _ => none
  lastRoleNum := 0
  lock := fun _ => none
  flows := fun _ => .idle

theorem emptyState_started : Started sampleEnv emptyState :=
  ⟨fun _ _ => ⟨nofun, nofun⟩, fun _ named => absurd rfl named, fun _ => rfl⟩

/-- A coroutine asks whether the name is in use, and is told what the registry says. -/
def asking (thread : Bool) : List (Event ℕ Bool) :=
  [.answer thread true, .execute thread, .resume thread true]

instance (state : State ℕ Bool) (event : Event ℕ Bool) : Decidable (event.Permitted state) := by
  unfold Event.Permitted
  split
  · split <;> infer_instance
  · split <;> infer_instance
  · infer_instance

def claimRun (thread : Bool) : List (Event ℕ Bool) :=
  [.acquire thread, .execute thread, .resume thread true]

def renamingRun : List (Event ℕ Bool) :=
  [.newRole false 7] ++ asking false ++ claimRun false ++ [.resume false true] ++
    [.modifyRoleName true 0 8] ++ asking true ++ claimRun true ++ claimRun true

theorem names_unique_renamingRun :
    Execution.Always (step sampleEnv) Good emptyState renamingRun ∧
      ((Execution.run (step sampleEnv) emptyState renamingRun).map fun state =>
        (state.names 0, state.registry 7, state.registry 8)) = some (some 8, none, some 0) :=
  ⟨names_unique emptyState_started (by decide), by decide⟩

/-- Two creations ask for the same name before either has claimed it. -/
def racingRun : List (Event ℕ Bool) :=
  [.newRole false 7, .newRole true 7] ++ asking false ++ asking true ++ claimRun false ++
    claimRun true ++ [.resume false true, .resume true true]

/-- Both roles have the name. -/
theorem racingRun_not_unique :
    Started sampleEnv emptyState ∧ ¬ Execution.Always (step sampleEnv) Good emptyState racingRun := by
  refine ⟨emptyState_started, fun always => ?_⟩
  have names : ((Execution.run (step sampleEnv) emptyState racingRun).map fun state =>
      (state.names 0, state.names 1)) = some (some 7, some 7) := by decide
  obtain ⟨final, execution, named⟩ := Option.map_eq_some_iff.mp names
  obtain ⟨first, second⟩ := Prod.mk.inj named
  cases (always.last execution).distinct 0 1 7 first second

end

end UEServer.RoleName
