import UEServer.RoleDb.Manager

/-!
# When no record is lost

What has been created or changed and is not in the database is in an entry, whose flag tells whether
the record is to be inserted.  `_get_save_query` takes the flag, or the entry itself, away before the
database has been called, and nothing puts it back when the call fails.
-/

namespace UEServer.RoleDb

variable {κ α : Type*} [DecidableEq κ] {newObj : κ → α} {state after : State κ α}

structure Good (state : State κ α) : Prop where
  /-- An entry has the record as it was created or changed last. -/
  current : ∀ key entry, state.dbDict key = some entry → state.latest key = some entry.value
  /-- The next save of an entry is an insertion exactly if the database does not have the record. -/
  insert_iff : ∀ key entry, state.dbDict key = some entry →
    (entry.isInsert = true ↔ state.rows key = none)
  kept : ∀ key, state.dbDict key = none → state.rows key = state.latest key
  written : ∀ key isSaveClear, (state.dbDict key).isSome →
    (state.saveRole key isSaveClear .done).rows key = state.latest key

/-- The record, as the entries and the database have it. -/
def State.content (state : State κ α) (key : κ) : Option α :=
  match state.dbDict key with
  | some entry => some entry.value
  | none => state.rows key

/-- What the load of a record puts into the entries is still what there is. -/
def Load.UpToDate (newObj : κ → α) (state : State κ α) (key : κ) (load : Load α) : Prop :=
  match load.found with
  | none => True
  | some (some row) => (state.rows key).isSome ∧ state.content key = some row
  | some none => load.notAutoCreate = true ∨
      state.rows key = none ∧ ∀ value ∈ state.content key, value = newObj key

instance [DecidableEq α] (state : State κ α) (key : κ) (load : Load α) :
    Decidable (load.UpToDate newObj state key) := by
  unfold Load.UpToDate
  split <;> infer_instance

/-- A save whose call fails is neither to insert nor to drop what is not in the database.  Only an
existing record is set, and only one that the database does not have is created.  A load has not been
overtaken, and no object is changed after its entry has been dropped. -/
def Op.Permitted (newObj : κ → α) (state : State κ α) : Op κ α → Prop
  | .loaded key => ∀ load ∈ state.loadLock key, load.UpToDate newObj state key
  | .create key => state.rows key = none
  | .set key _ => (state.dbDict key).isSome ∨ (state.rows key).isSome
  | .changeDropped key value => state.content key = some value
  | .saveRole key isSaveClear outcome => ∀ entry ∈ state.dbDict key, outcome = .done ∨
      entry.isInsert = false ∧ (isSaveClear = true → state.rows key = some entry.value)
  | _ => True

instance [DecidableEq α] (state : State κ α) (op : Op κ α) :
    Decidable (op.Permitted newObj state) := by
  cases op <;> (unfold Op.Permitted; infer_instance)

/-- What holds of one record: its entry, its row and what was made of it last. -/
def Sound : Option (Entry α) → Option α → Option α → Prop
  | none, row, latest => row = latest
  | some entry, row, latest =>
      latest = some entry.value ∧ (entry.isInsert = true ↔ row = none)

variable {key : κ}

theorem saveRole_of_some {entry : Entry α} (found : state.dbDict key = some entry)
    (isSaveClear : Bool) (outcome : Outcome) :
    state.saveRole key isSaveClear outcome =
      { state with
        dbDict := Function.update state.dbDict key
          (if isSaveClear then none else some { entry with isInsert := false })
        rows := if outcome = .done ∧ entry.isInsert = (state.rows key).isNone then
          Function.update state.rows key (some entry.value) else state.rows } := by
  simp only [State.saveRole, State.getSaveQuery, found, State.save]
  split <;> rfl

theorem saveRole_of_none (missing : state.dbDict key = none) (isSaveClear : Bool)
    (outcome : Outcome) : state.saveRole key isSaveClear outcome = state := by
  simp only [State.saveRole, State.getSaveQuery, missing]

theorem good_iff : Good state ↔
    ∀ key, Sound (state.dbDict key) (state.rows key) (state.latest key) := by
  constructor
  · intro good key
    cases found : state.dbDict key with
    | none => exact good.kept key found
    | some entry => exact ⟨good.current key entry found, good.insert_iff key entry found⟩
  · intro sound
    have entries : ∀ key entry, state.dbDict key = some entry →
        state.latest key = some entry.value ∧ (entry.isInsert = true ↔ state.rows key = none) := by
      intro key entry found
      have held := sound key
      rw [found] at held
      exact held
    refine ⟨fun key entry found => (entries key entry found).1,
      fun key entry found => (entries key entry found).2, fun key missing => ?_,
      fun key isSaveClear present => ?_⟩
    · have held := sound key
      rw [missing] at held
      exact held
    · obtain ⟨entry, found⟩ := Option.isSome_iff_exists.mp present
      obtain ⟨latest, insert_iff⟩ := entries key entry found
      have flag : entry.isInsert = (state.rows key).isNone := by
        rw [Bool.eq_iff_iff, insert_iff, Option.isNone_iff_eq_none]
      have written : (state.saveRole key isSaveClear .done).rows =
          Function.update state.rows key (some entry.value) := by
        rw [saveRole_of_some found]
        exact if_pos ⟨rfl, flag⟩
      rw [written, latest]
      exact Function.update_self ..

theorem Good.content (good : Good state) (key : κ) : state.content key = state.latest key := by
  unfold State.content
  cases found : state.dbDict key with
  | none => exact good.kept key found
  | some entry => exact (good.current key entry found).symm

def Frame (state after : State κ α) (key : κ) : Prop :=
  ∀ other, other ≠ key → after.dbDict other = state.dbDict other ∧
    after.rows other = state.rows other ∧ after.latest other = state.latest other

theorem good_after_iff (good : Good state) (frame : Frame state after key) :
    Good after ↔ Sound (after.dbDict key) (after.rows key) (after.latest key) := by
  rw [good_iff]
  refine ⟨fun sound => sound key, fun sound other => ?_⟩
  by_cases same : other = key
  · subst same
    exact sound
  · obtain ⟨entry, row, latest⟩ := frame other same
    rw [entry, row, latest]
    exact good_iff.mp good other

theorem put_checkStartTimer (key : κ) (entry : Entry α) :
    (state.put key entry).checkStartTimer key entry = state.put key entry := by
  rw [State.checkStartTimer, if_neg]
  simp [State.isUuidOnline, State.put]

section
variable (good : Good state)
include good

theorem put_iff {entry : Entry α} :
    Good (state.put key entry) ↔
      state.latest key = some entry.value ∧ (entry.isInsert = true ↔ state.rows key = none) := by
  have frame : Frame state (state.put key entry) key := by
    intro other different
    simp [State.put, Function.update_of_ne different]
  rw [good_after_iff good frame]
  simp [State.put, Sound]

theorem put_make_iff {entry : Entry α} {value : α} :
    Good ((state.put key entry).make key value) ↔
      value = entry.value ∧ (entry.isInsert = true ↔ state.rows key = none) := by
  have frame : Frame state ((state.put key entry).make key value) key := by
    intro other different
    simp [State.put, State.make, Function.update_of_ne different]
  rw [good_after_iff good frame]
  simp [State.put, State.make, Sound]

theorem make_iff {value : α} : Good (state.make key value) ↔ state.content key = some value := by
  have frame : Frame state (state.make key value) key := by
    intro other different
    simp [State.make, Function.update_of_ne different]
  rw [good_after_iff good frame]
  cases found : state.dbDict key with
  | none => simp [State.make, State.content, Sound, found]
  | some entry =>
      have insert_iff := good.insert_iff key entry found
      simp [State.make, State.content, Sound, found, insert_iff, eq_comm]

theorem Good.unlock (loadLock : κ → Option (Load α)) : Good { state with loadLock } := by
  have sound := good_iff.mp good
  exact good_iff.mpr fun key => sound key

theorem loaded_iff {load : Load α} (loading : state.loadLock key = some load) :
    Good (state.loaded newObj key load) ↔ (Op.loaded key).Permitted newObj state := by
  have unlocked := good.unlock (Function.update state.loadLock key none)
  obtain ⟨notAutoCreate, found⟩ := load
  simp only [State.loaded, Op.Permitted, loading, Option.mem_def, Option.some.injEq, forall_eq',
    Load.UpToDate]
  rcases found with - | - | row
  · exact iff_of_true unlocked trivial
  · cases notAutoCreate with
    | true => exact iff_of_true unlocked (.inl rfl)
    | false =>
        rw [if_neg Bool.false_ne_true, State.putNew, put_checkStartTimer, put_make_iff unlocked,
          good.content, iff_true_left rfl, and_comm, or_iff_right Bool.false_ne_true]
        cases state.latest key with
        | none => simp
        | some value => simp
  · rw [put_iff unlocked, good.content, and_comm]
    simp [Option.isSome_iff_ne_none]

theorem saveRole_iff (key : κ) (isSaveClear : Bool) (outcome : Outcome) :
    Good (state.saveRole key isSaveClear outcome) ↔
      (Op.saveRole key isSaveClear outcome).Permitted newObj state := by
  cases found : state.dbDict key with
  | none =>
      rw [saveRole_of_none found]
      refine iff_of_true good fun entry other => ?_
      cases found.symm.trans other
  | some entry =>
      have current := good.current key entry found
      have insert_iff := good.insert_iff key entry found
      have frame : Frame state (state.saveRole key isSaveClear outcome) key := by
        intro other different
        rw [saveRole_of_some found]
        refine ⟨Function.update_of_ne different .., ?_, rfl⟩
        dsimp only
        split
        · exact Function.update_of_ne different ..
        · rfl
      rw [good_after_iff good frame, saveRole_of_some found]
      simp only [Op.Permitted, found, Option.mem_def, Option.some.injEq, forall_eq']
      -- What is written depends on the outcome, and on the flag and the row being in step.
      obtain ⟨value, isSave, isInsert, saveTimer⟩ := entry
      cases row : state.rows key <;> cases isSaveClear <;> cases isInsert <;>
        by_cases done : outcome = .done <;> simp_all [Sound]

theorem step_good {op : Op κ α} (taken : step newObj state op = some after) :
    Good after ↔ op.Permitted newObj state := by
  cases op with
  | load key notAutoCreate outcome =>
      obtain ⟨-, taken⟩ := Option.ite_none_right_eq_some.mp taken
      cases taken
      exact iff_of_true (good.unlock _) trivial
  | loaded key =>
      obtain ⟨load, loading, rfl⟩ := Option.map_eq_some_iff.mp taken
      exact loaded_iff good loading
  | create key =>
      cases taken
      rw [State.create, State.putNew, put_checkStartTimer, put_make_iff good]
      simp [Op.Permitted]
  | set key value =>
      cases taken
      rw [State.set, put_checkStartTimer, put_make_iff good, Op.Permitted]
      cases found : state.dbDict key with
      | none => simp [Option.isSome_iff_ne_none]
      | some entry => simp [good.insert_iff key entry found]
  | change key value =>
      obtain ⟨entry, found, rfl⟩ := Option.map_eq_some_iff.mp taken
      rw [put_make_iff good]
      exact iff_of_true ⟨rfl, good.insert_iff key entry found⟩ trivial
  | changeDropped key value =>
      obtain ⟨-, taken⟩ := Option.ite_none_right_eq_some.mp taken
      cases taken
      exact make_iff good
  | timer key outcome =>
      simp only [step] at taken
      split at taken
      · next entry found =>
          obtain ⟨-, taken⟩ := Option.ite_none_right_eq_some.mp taken
          cases taken
          have online : (state.put key { entry with saveTimer := false }).isUuidOnline key = true := by
            simp [State.isUuidOnline, State.put]
          rw [State.saveTimerCb, if_pos online, put_iff good]
          exact iff_of_true ⟨good.current key entry found, good.insert_iff key entry found⟩ trivial
      · cases taken
  | saveRole key isSaveClear outcome =>
      cases taken
      exact saveRole_iff good key isSaveClear outcome

end

/-- In every run from a state in which no record is lost, none is lost in any state reached if and
only if every operation of the run is permitted. -/
theorem not_lost_iff {ops : List (Op κ α)} {final : State κ α} (good : Good state)
    (execution : Execution.run (step newObj) state ops = some final) :
    Execution.Always (step newObj) Good state ops ↔
      Execution.Guarded (step newObj) (fun state op => op.Permitted newObj state) state ops :=
  Execution.always_iff_guarded (fun _ _ _ => trivial) (fun _ good taken => step_good good taken)
    execution trivial good

def emptyState : State ℕ ℕ where
  dbDict := fun _ => none
  loadLock := fun _ => none
  rows := fun _ => none
  latest := fun _ => none

theorem emptyState_good : Good emptyState :=
  good_iff.mpr fun _ => rfl

/-- A record is created, saved, changed and unloaded, and loaded again. -/
def savedRun : List (Op ℕ ℕ) :=
  [.load 1 false .done, .loaded 1, .saveRole 1 false .done, .change 1 5, .saveRole 1 false .raised,
    .saveRole 1 true .done, .load 1 true .done, .loaded 1]

theorem not_lost_iff_savedRun :
    Execution.Always (step fun _ => 0) Good emptyState savedRun ∧
      ((Execution.run (step fun _ => 0) emptyState savedRun).map fun state =>
        (state.rows 1, state.content 1)) = some (some 5, some 5) := by
  refine ⟨?_, by decide⟩
  have enabled : (Execution.run (step fun _ => 0) emptyState savedRun).isSome := by decide
  obtain ⟨final, execution⟩ := Option.isSome_iff_exists.mp enabled
  exact (not_lost_iff emptyState_good execution).mpr (by decide)

/-- The insertion of a record fails once, and every later save succeeds. -/
def failedInsertRun : List (Op ℕ ℕ) :=
  [.load 1 false .done, .loaded 1, .saveRole 1 false .refused, .change 1 5, .saveRole 1 false .done,
    .saveRole 1 true .done]

/-- The record is not written by any of them, and dropped. -/
theorem failedInsertRun_lost :
    Good emptyState ∧ ¬ Execution.Always (step fun _ => 0) Good emptyState failedInsertRun := by
  refine ⟨emptyState_good, fun always => ?_⟩
  have dropped : ((Execution.run (step fun _ => 0) emptyState failedInsertRun).map fun state =>
      (state.dbDict 1, state.rows 1, state.latest 1)) = some (none, none, some 5) := by decide
  obtain ⟨final, execution, parts⟩ := Option.map_eq_some_iff.mp dropped
  obtain ⟨missing, row, latest⟩ : final.dbDict 1 = none ∧ final.rows 1 = none ∧
      final.latest 1 = some 5 := by simpa using parts
  have kept := (always.last execution).kept 1 missing
  rw [row, latest] at kept
  cases kept

end UEServer.RoleDb
