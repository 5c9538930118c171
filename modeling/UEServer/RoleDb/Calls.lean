import UEServer.Library.Execution

/-!
# What the calls for a role's record return

`get`, `find_one`, `create` and the removals of `role_db`, for the one collection that it manages.  A
load waits for the database; its end reads the entry although there may be none, and replaces the
entry although there may be one.
-/

namespace UEServer.RoleDb
namespace Calls

variable {κ α : Type*} [DecidableEq κ]

/-- A record, as an object: every `new_obj` and `load` makes another one. -/
structure Obj (α : Type*) where
  serial : ℕ
  record : α
  deriving DecidableEq

inductive Result where
  | record (serial : ℕ)
  | nil
  | raised
  deriving DecidableEq

structure Answer (κ : Type*) where
  key : κ
  removals : ℕ
  /-- The call is a `find_one` that has found no row, and no record is cached. -/
  missing : Bool
  result : Result
  deriving DecidableEq

/-- The entries, the calls under way and what has been answered. -/
structure State (κ α : Type*) where
  dbDict : κ → Option (Obj α)
  /-- `_load_lock`, with the `not_auto_create` of the load under way. -/
  loadLock : κ → Option Bool
  /-- The calls that sleep, with their `not_auto_create`. -/
  sleeping : List (κ × Bool)
  serial : ℕ
  removals : κ → ℕ
  answers : List (Answer κ)

inductive Op (κ α : Type*) where
  | get (key : κ)
  | findOne (key : κ)
  | wake (key : κ) (notAutoCreate : Bool)
  /-- The database has answered: a row or none, or the call raises. -/
  | loaded (key : κ) (found : Option (Option α))
  | create (key : κ)
  | saveClear (key : κ)

namespace State

def answer (state : State κ α) (key : κ) (missing : Bool) (result : Result) : State κ α :=
  { state with answers := state.answers ++ [⟨key, state.removals key, missing, result⟩] }

/-- A new object is put into `_db_dict`. -/
def put (state : State κ α) (key : κ) (record : α) : State κ α :=
  { state with
    dbDict := Function.update state.dbDict key (some ⟨state.serial, record⟩)
    serial := state.serial + 1 }

/-- `get` or `find_one`, up to its end or its first wait. -/
def call (state : State κ α) (key : κ) (notAutoCreate : Bool) : State κ α :=
  match state.dbDict key with
  | some obj => state.answer key false (.record obj.serial)
  | none =>
      match state.loadLock key with
      | some _ => { state with sleeping := (key, notAutoCreate) :: state.sleeping }
      | none => { state with loadLock := Function.update state.loadLock key (some notAutoCreate) }

/-- The last line of `_load`, which raises if there is no entry. -/
def respond (state : State κ α) (key : κ) (missing : Bool) : State κ α :=
  match state.dbDict key with
  | some obj => state.answer key false (.record obj.serial)
  | none => state.answer key missing .raised

/-- `_load` goes on. -/
def loaded (newObj : κ → α) (state : State κ α) (key : κ) (notAutoCreate : Bool) :
    Option (Option α) → State κ α
  | none => { state with loadLock := Function.update state.loadLock key none }.respond key false
  | some none =>
      let unlocked := { state with loadLock := Function.update state.loadLock key none }
      if notAutoCreate then unlocked.respond key true
      else (unlocked.put key (newObj key)).respond key false
  | some (some row) =>
      ({ state with loadLock := Function.update state.loadLock key none }.put key row).respond key
        false

/-- `create`, which returns the new object. -/
def create (newObj : κ → α) (state : State κ α) (key : κ) : State κ α :=
  (state.put key (newObj key)).answer key false (.record state.serial)

/-- `_get_save_query` with `is_save_clear`. -/
def saveClear (state : State κ α) (key : κ) : State κ α :=
  match state.dbDict key with
  | none => state
  | some _ =>
      { state with
        dbDict := Function.update state.dbDict key none
        removals := Function.update state.removals key (state.removals key + 1) }

end State

/-- One stretch of execution, if it is possible. -/
def step (newObj : κ → α) (state : State κ α) : Op κ α → Option (State κ α)
  | .get key => some (state.call key false)
  | .findOne key => some (state.call key true)
  | .wake key notAutoCreate =>
      if (key, notAutoCreate) ∈ state.sleeping then
        match state.loadLock key with
        | some _ => some state
        | none =>
            some ({ state with sleeping := state.sleeping.erase (key, notAutoCreate) }.call key
              notAutoCreate)
      else none
  | .loaded key found =>
      (state.loadLock key).map fun notAutoCreate => state.loaded newObj key notAutoCreate found
  | .create key => some (state.create newObj key)
  | .saveClear key => some (state.saveClear key)

/-- Nothing is cached, and there are no calls. -/
def initial : State κ α where
  dbDict _ := none
  loadLock _ := none
  sleeping := []
  serial := 0
  removals _ := 0
  answers := []

structure Good (state : State κ α) : Prop where
  returns : ∀ answer ∈ state.answers, answer.result ≠ .raised
  /-- `find_one` returns `nil` when there is no row and nothing is cached. -/
  absent : ∀ answer ∈ state.answers, answer.missing = true → answer.result = .nil
  same : ∀ answer ∈ state.answers, ∀ other ∈ state.answers, answer.key = other.key →
    answer.removals = other.removals → ∀ serial, answer.result = .record serial →
      ∀ other_serial, other.result = .record other_serial → serial = other_serial

/-- A load that is answered this way puts an object into `_db_dict`. -/
def makes (notAutoCreate : Bool) : Option (Option α) → Bool
  | none => false
  | some none => !notAutoCreate
  | some (some _) => true

/-- A load that makes no object finds that the record has been created meanwhile, and one that makes an
object does not.  A record is created only when it is not there. -/
def Apt (state : State κ α) : Op κ α → Prop
  | .loaded key found =>
      ∀ notAutoCreate ∈ state.loadLock key, (state.dbDict key).isNone = makes notAutoCreate found
  | .create key => (state.dbDict key).isNone
  | _ => True

instance (state : State κ α) (op : Op κ α) : Decidable (Apt state op) := by
  cases op <;> (unfold Apt; infer_instance)

/-- The answers are about the entries. -/
structure Inv (state : State κ α) : Prop where
  /-- The object of an entry has been returned since the record was last removed. -/
  returned : ∀ key obj, state.dbDict key = some obj → ∃ answer ∈ state.answers,
    answer.key = key ∧ answer.removals = state.removals key ∧ answer.result = .record obj.serial
  made : ∀ answer ∈ state.answers, ∀ serial, answer.result = .record serial → serial < state.serial
  /-- What has been returned since the last removal is in the entry. -/
  current : ∀ answer ∈ state.answers, answer.removals = state.removals answer.key →
    ∀ serial, answer.result = .record serial →
      ∃ obj, state.dbDict answer.key = some obj ∧ obj.serial = serial
  past : ∀ answer ∈ state.answers, answer.removals ≤ state.removals answer.key

variable {newObj : κ → α} {state after : State κ α} {key : κ} {op : Op κ α}

section
omit [DecidableEq κ]

theorem Inv.congr (inv : Inv state) (dbDict : after.dbDict = state.dbDict)
    (serial : after.serial = state.serial) (removals : after.removals = state.removals)
    (answers : after.answers = state.answers) : Inv after := by
  obtain ⟨returned, made, current, past⟩ := inv
  refine ⟨?_, ?_, ?_, ?_⟩
  · rw [dbDict, removals, answers]
    exact returned
  · rw [serial, answers]
    exact made
  · rw [dbDict, removals, answers]
    exact current
  · rw [removals, answers]
    exact past

theorem Good.congr (good : Good state) (answers : after.answers = state.answers) : Good after := by
  obtain ⟨returns, absent, same⟩ := good
  refine ⟨?_, ?_, ?_⟩
  · rw [answers]
    exact returns
  · rw [answers]
    exact absent
  · rw [answers]
    exact same

theorem Inv.answer (inv : Inv state) {obj : Obj α} (found : state.dbDict key = some obj)
    (missing : Bool) : Inv (state.answer key missing (.record obj.serial)) := by
  obtain ⟨returned, made, current, past⟩ := inv
  obtain ⟨before, before_mem, before_key, before_removals, before_result⟩ := returned key obj found
  refine ⟨fun other entry there => ?_, fun answer mem serial result => ?_,
    fun answer mem removals serial result => ?_, fun answer mem => ?_⟩
  · obtain ⟨answer, mem, rest⟩ := returned other entry there
    exact ⟨answer, List.mem_append_left _ mem, rest⟩
  · rcases List.mem_append.mp mem with mem | mem
    · exact made answer mem serial result
    · obtain rfl := List.mem_singleton.mp mem
      obtain rfl := Result.record.inj result
      exact made before before_mem _ before_result
  · rcases List.mem_append.mp mem with mem | mem
    · exact current answer mem removals serial result
    · obtain rfl := List.mem_singleton.mp mem
      obtain rfl := Result.record.inj result
      exact ⟨obj, found, rfl⟩
  · rcases List.mem_append.mp mem with mem | mem
    · exact past answer mem
    · obtain rfl := List.mem_singleton.mp mem
      exact Nat.le_refl _

/-- An object is returned that agrees with what has been returned since the last removal. -/
theorem Good.append (good : Good state) {serial : ℕ}
    (agrees : ∀ answer ∈ state.answers, answer.key = key → answer.removals = state.removals key →
      ∀ other, answer.result = .record other → other = serial) :
    Good (state.answer key false (.record serial)) := by
  obtain ⟨returns, absent, same⟩ := good
  refine ⟨fun answer mem => ?_, fun answer mem missing => ?_, fun answer mem other other_mem => ?_⟩
  · rcases List.mem_append.mp mem with mem | mem
    · exact returns answer mem
    · obtain rfl := List.mem_singleton.mp mem
      exact nofun
  · rcases List.mem_append.mp mem with mem | mem
    · exact absent answer mem missing
    · obtain rfl := List.mem_singleton.mp mem
      cases missing
  · intro same_key removals first result second other_result
    rcases List.mem_append.mp mem with mem | mem
    · rcases List.mem_append.mp other_mem with other_mem | other_mem
      · exact same answer mem other other_mem same_key removals first result second other_result
      · obtain rfl := List.mem_singleton.mp other_mem
        obtain rfl := Result.record.inj other_result
        exact agrees answer mem same_key removals first result
    · obtain rfl := List.mem_singleton.mp mem
      obtain rfl := Result.record.inj result
      rcases List.mem_append.mp other_mem with other_mem | other_mem
      · exact (agrees other other_mem same_key.symm removals.symm second other_result).symm
      · obtain rfl := List.mem_singleton.mp other_mem
        exact Result.record.inj other_result

theorem Good.answer (good : Good state) (inv : Inv state) {obj : Obj α}
    (found : state.dbDict key = some obj) :
    Good (state.answer key false (.record obj.serial)) := by
  refine good.append ?_
  rintro answer mem rfl removals serial result
  obtain ⟨entry, there, rfl⟩ := inv.current answer mem removals serial result
  rw [Option.some.inj (there.symm.trans found)]

end

/-- A new object, where there was none, is put into `_db_dict` and returned. -/
theorem Inv.make (inv : Inv state) (absent : state.dbDict key = none) (record : α) :
    Inv ((state.put key record).answer key false (.record state.serial)) := by
  obtain ⟨returned, made, current, past⟩ := inv
  refine ⟨fun other entry there => ?_, fun answer mem serial result => ?_,
    fun answer mem removals serial result => ?_, fun answer mem => ?_⟩
  · change Function.update state.dbDict key _ other = some entry at there
    by_cases here : other = key
    · subst here
      rw [Function.update_self] at there
      cases there
      exact ⟨_, List.mem_append_right _ List.mem_cons_self, rfl, rfl, rfl⟩
    · rw [Function.update_of_ne here] at there
      obtain ⟨answer, mem, rest⟩ := returned other entry there
      exact ⟨answer, List.mem_append_left _ mem, rest⟩
  · rcases List.mem_append.mp mem with mem | mem
    · exact Nat.lt_succ_of_lt (made answer mem serial result)
    · cases List.mem_singleton.mp mem
      cases result
      exact Nat.lt_succ_self _
  · change ∃ obj, Function.update state.dbDict key _ answer.key = some obj ∧ _
    rcases List.mem_append.mp mem with mem | mem
    · obtain ⟨obj, there, serial_eq⟩ := current answer mem removals serial result
      have other : answer.key ≠ key := by
        intro same
        cases absent.symm.trans (same ▸ there)
      rw [Function.update_of_ne other]
      exact ⟨obj, there, serial_eq⟩
    · cases List.mem_singleton.mp mem
      cases result
      exact ⟨⟨state.serial, record⟩, Function.update_self .., rfl⟩
  · rcases List.mem_append.mp mem with mem | mem
    · exact past answer mem
    · cases List.mem_singleton.mp mem
      exact Nat.le_refl _

theorem Good.make (good : Good state) (inv : Inv state) (none_there : state.dbDict key = none)
    (record : α) : Good ((state.put key record).answer key false (.record state.serial)) := by
  have kept : Good (state.put key record) := good.congr rfl
  refine kept.append ?_
  -- Without an entry, nothing has been returned since the last removal.
  rintro answer mem rfl removals serial result
  obtain ⟨entry, there, -⟩ := inv.current answer mem removals serial result
  cases none_there.symm.trans there

/-- A new object in place of another one is returned while the other one has been. -/
theorem make_not_good (inv : Inv state) {obj : Obj α} (found : state.dbDict key = some obj)
    (record : α) : ¬ Good ((state.put key record).answer key false (.record state.serial)) := by
  intro good
  obtain ⟨before, mem, same_key, removals, result⟩ := inv.returned key obj found
  have same := good.same before (List.mem_append_left _ mem) _
    (List.mem_append_right _ List.mem_cons_self) same_key removals obj.serial result state.serial rfl
  exact Nat.ne_of_lt (inv.made before mem obj.serial result) same

omit [DecidableEq κ] in
theorem raised_not_good (state : State κ α) (key : κ) (missing : Bool) :
    ¬ Good (state.answer key missing .raised) :=
  fun good => good.returns _ (List.mem_append_right _ List.mem_cons_self) rfl

section
variable (good : Good state) (inv : Inv state)
include good inv

theorem Good.call (key : κ) (notAutoCreate : Bool) :
    Good (state.call key notAutoCreate) ∧ Inv (state.call key notAutoCreate) := by
  unfold State.call
  cases found : state.dbDict key with
  | some obj => exact ⟨good.answer inv found, inv.answer found false⟩
  | none =>
      cases state.loadLock key with
      | some _ => exact ⟨good.congr rfl, inv.congr rfl rfl rfl rfl⟩
      | none => exact ⟨good.congr rfl, inv.congr rfl rfl rfl rfl⟩

theorem Good.saveClear (key : κ) : Good (state.saveClear key) ∧ Inv (state.saveClear key) := by
  unfold State.saveClear
  cases state.dbDict key with
  | none => exact ⟨good, inv⟩
  | some obj =>
      obtain ⟨returned, made, current, past⟩ := inv
      refine ⟨good.congr rfl, fun other entry there => ?_, made, fun answer mem removals => ?_,
        fun answer mem => ?_⟩
      · change Function.update state.dbDict key none other = some entry at there
        by_cases here : other = key
        · rw [here, Function.update_self] at there
          cases there
        · rw [Function.update_of_ne here] at there
          obtain ⟨answer, mem, same_key, removals, result⟩ := returned other entry there
          refine ⟨answer, mem, same_key, ?_, result⟩
          change _ = Function.update state.removals key _ other
          rw [Function.update_of_ne here]
          exact removals
      · change answer.removals = Function.update state.removals key _ answer.key at removals
        have other : answer.key ≠ key := by
          intro here
          have before := past answer mem
          rw [here] at before removals
          rw [Function.update_self] at removals
          omega
        rw [Function.update_of_ne other] at removals
        change ∀ serial, _ → ∃ obj, Function.update state.dbDict key none answer.key = some obj ∧ _
        rw [Function.update_of_ne other]
        exact current answer mem removals
      · change answer.removals ≤ Function.update state.removals key _ answer.key
        have before := past answer mem
        by_cases here : answer.key = key
        · rw [here, Function.update_self]
          rw [here] at before
          omega
        · rw [Function.update_of_ne here]
          exact before

/-- The end of a load is right exactly if it makes an object where there is none, or makes none where
there is one. -/
theorem loaded_good_iff (notAutoCreate : Bool) (found : Option (Option α)) :
    (Good (state.loaded newObj key notAutoCreate found) ↔
      (state.dbDict key).isNone = makes notAutoCreate found) ∧
    ((state.dbDict key).isNone = makes notAutoCreate found →
      Inv (state.loaded newObj key notAutoCreate found)) := by
  -- The state in which the lock has been released.
  have unlocked_good : Good { state with loadLock := Function.update state.loadLock key none } :=
    good.congr rfl
  have unlocked_inv : Inv { state with loadLock := Function.update state.loadLock key none } :=
    inv.congr rfl rfl rfl rfl
  have nothing : ∀ missing,
      (Good ({ state with loadLock := Function.update state.loadLock key none }.respond key missing) ↔
        (state.dbDict key).isNone = false) ∧
      ((state.dbDict key).isNone = false →
        Inv ({ state with loadLock := Function.update state.loadLock key none }.respond key
          missing)) := by
    intro missing
    unfold State.respond
    cases there : state.dbDict key with
    | none => exact ⟨iff_of_false (raised_not_good _ key missing) nofun, nofun⟩
    | some obj =>
        exact ⟨iff_of_true (unlocked_good.answer unlocked_inv there) rfl,
          fun _ => unlocked_inv.answer there false⟩
  have object : ∀ record,
      (Good (({ state with loadLock := Function.update state.loadLock key none }.put key
        record).respond key false) ↔ (state.dbDict key).isNone = true) ∧
      ((state.dbDict key).isNone = true →
        Inv (({ state with loadLock := Function.update state.loadLock key none }.put key
          record).respond key false)) := by
    intro record
    have responded : ({ state with loadLock := Function.update state.loadLock key none }.put key
        record).respond key false =
          ({ state with loadLock := Function.update state.loadLock key none }.put key
            record).answer key false (.record state.serial) := by
      unfold State.respond State.put
      dsimp only
      rw [Function.update_self]
    rw [responded]
    cases there : state.dbDict key with
    | none =>
        exact ⟨iff_of_true (unlocked_good.make unlocked_inv there record) rfl,
          fun _ => unlocked_inv.make there record⟩
    | some obj => exact ⟨iff_of_false (make_not_good unlocked_inv there record) nofun, nofun⟩
  match found, notAutoCreate with
  | none, _ => exact nothing false
  | some none, true => exact nothing true
  | some none, false => exact object (newObj key)
  | some (some row), _ => exact object row

theorem step_good (taken : step newObj state op = some after) :
    (Good after ↔ Apt state op) ∧ (Apt state op → Inv after) := by
  cases op with
  | get key =>
      cases taken
      obtain ⟨kept, inv⟩ := good.call inv key false
      exact ⟨iff_of_true kept trivial, fun _ => inv⟩
  | findOne key =>
      cases taken
      obtain ⟨kept, inv⟩ := good.call inv key true
      exact ⟨iff_of_true kept trivial, fun _ => inv⟩
  | wake key notAutoCreate =>
      obtain ⟨sleeps, taken⟩ := Option.ite_none_right_eq_some.mp taken
      cases locked : state.loadLock key with
      | some _ =>
          rw [locked] at taken
          cases taken
          exact ⟨iff_of_true good trivial, fun _ => inv⟩
      | none =>
          rw [locked] at taken
          cases taken
          have kept : Good { state with sleeping := state.sleeping.erase (key, notAutoCreate) } :=
            good.congr rfl
          obtain ⟨kept, inv⟩ := kept.call (inv.congr rfl rfl rfl rfl) key notAutoCreate
          exact ⟨iff_of_true kept trivial, fun _ => inv⟩
  | loaded key found =>
      obtain ⟨notAutoCreate, locked, rfl⟩ := Option.map_eq_some_iff.mp taken
      obtain ⟨iff, kept⟩ := @loaded_good_iff _ _ _ newObj _ key good inv notAutoCreate found
      have apt : Apt state (.loaded key found) ↔
          (state.dbDict key).isNone = makes notAutoCreate found := by
        simp only [Apt, locked, Option.mem_def, Option.some.injEq, forall_eq']
      rw [apt]
      exact ⟨iff, kept⟩
  | create key =>
      cases taken
      have apt : Apt state (.create key : Op κ α) ↔ (state.dbDict key).isNone = true := Iff.rfl
      rw [apt]
      cases there : state.dbDict key with
      | none =>
          exact ⟨iff_of_true (good.make inv there (newObj key)) rfl,
            fun _ => inv.make there (newObj key)⟩
      | some obj => exact ⟨iff_of_false (make_not_good inv there (newObj key)) nofun, nofun⟩
  | saveClear key =>
      cases taken
      obtain ⟨kept, inv⟩ := good.saveClear inv key
      exact ⟨iff_of_true kept trivial, fun _ => inv⟩

end

omit [DecidableEq κ] in
theorem initial_inv : Inv (initial : State κ α) :=
  ⟨nofun, nofun, nofun, nofun⟩

omit [DecidableEq κ] in
theorem initial_good : Good (initial : State κ α) :=
  ⟨nofun, nofun, nofun⟩

/-- In every run the calls do as they should in every state reached if and only if no load ends without
an entry, and no object is made where there is one. -/
theorem calls_good_iff {ops : List (Op κ α)} {final : State κ α}
    (execution : Execution.run (step newObj) initial ops = some final) :
    Execution.Always (step newObj) Good initial ops ↔
      Execution.Guarded (step newObj) Apt initial ops := by
  have preserved : ∀ {before op after}, Good before ∧ Inv before → Apt before op →
      step newObj before op = some after → Good after ∧ Inv after := by
    intro before op after both apt taken
    obtain ⟨iff, inv⟩ := step_good both.1 both.2 taken
    exact ⟨iff.mpr apt, inv apt⟩
  exact Execution.always_iff_guarded preserved
    (fun both _ taken => (step_good both.1 both.2 taken).1) execution ⟨initial_good, initial_inv⟩
    initial_good

/-- Two calls for one record, of which the second one sleeps until the first one has made an object; then
the record is removed, created and looked for. -/
def sharedRun : List (Op ℕ ℕ) :=
  [.get 1, .findOne 1, .loaded 1 (some none), .wake 1 true, .saveClear 1, .create 1, .findOne 1]

theorem calls_good_iff_sharedRun :
    Execution.Always (step fun _ => 0) Good initial sharedRun ∧
      ((Execution.run (step fun _ => 0) initial sharedRun).map fun state =>
        state.answers.map Answer.result) =
          some [.record 0, .record 0, .record 1, .record 1] := by
  refine ⟨?_, by decide⟩
  have enabled : (Execution.run (step fun _ => 0) initial sharedRun).isSome := by decide
  obtain ⟨final, execution⟩ := Option.isSome_iff_exists.mp enabled
  exact (calls_good_iff execution).mpr (by decide)

/-- A role that does not exist is looked for. -/
def strangerRun : List (Op ℕ ℕ) := [.findOne 1, .loaded 1 (some none)]

/-- The call raises. -/
theorem strangerRun_not_good : ¬ Execution.Always (step fun _ => 0) Good initial strangerRun := by
  intro always
  have answered : ((Execution.run (step fun _ => 0) initial strangerRun).map fun state =>
      state.answers) = some [⟨1, 0, true, .raised⟩] := by decide
  obtain ⟨final, execution, answers⟩ := Option.map_eq_some_iff.mp answered
  have returns := (always.last execution).returns ⟨1, 0, true, .raised⟩
  rw [answers] at returns
  exact returns List.mem_cons_self rfl

end Calls
end UEServer.RoleDb
