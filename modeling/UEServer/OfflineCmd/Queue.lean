import Mathlib.Data.List.Perm.Subperm
import UEServer.Library.Execution

/-!
# Offline commands

`service/agent/offline_cmd.lua`, with the parts of `role_cls.lua` that put a role into `role_dict`
and take it out.  A command that is pushed for a role is executed at once if the role is loaded, and
stored otherwise; a login executes the stored commands one by one and then deletes them.  All
requests here are for one role.  The database acts in the order of the calls.
-/

namespace UEServer.OfflineCmd

/-- The keys of `cmd_mapper`. -/
inductive Cmd where
  | test | childReceiveRequest | childRefuseRequest | childCancelRequest | childMarriage | addMail
  | salonPvpResults | partyEnd | partyGamesEnd | partyReceiveInvite | partyReceiveRefuseInvite
  | joinDynasty | deleteDynastyApply | kickedOutDynasty | friendSendGift | addFriend
  | addFriendApply | deleteFriend | deleteTraitor | addTitle | onRename
  deriving DecidableEq

/-- `curr_version` in `cmd_mapper`. -/
def currVersion (_ : Cmd) : Nat := 1

variable {α : Type} [DecidableEq α]

structure Obj (α : Type) where
  cmd : Cmd
  version : Nat
  ts : Nat
  args : α
  deriving DecidableEq

/-- A role object in `role_dict`. -/
structure Role where
  /-- Distinguishes the objects that are loaded one after another. -/
  serial : Nat
  /-- Whether an `online_do_offline_cmd` for it has returned. -/
  caughtUp : Bool
  deriving DecidableEq

/-- What the lock of the role is held for. -/
inductive Holder where
  | push
  | load
  /-- A `save`; `isClear` says that it belongs to a logout that removes the role. -/
  | save (isClear : Bool)
  deriving DecidableEq

/-- An `online_do_offline_cmd`. -/
structure Run (α : Type) where
  serial : Nat
  /-- The commands that were fetched and are not executed yet. -/
  pending : List (Obj α)
  needDelete : Bool
  /-- Whether it waits for `delete_many`. -/
  deleting : Bool
  deriving DecidableEq

structure State (α : Type) where
  /-- The entry of `role_dict`. -/
  roleDict : Option Role
  /-- The number of role objects loaded so far. -/
  loads : Nat
  lock : Option Holder
  /-- Commands whose `_push` waits for the lock. -/
  waiting : List (Obj α)
  /-- The rows of `OfflineCmd`. -/
  rows : List (Obj α)
  /-- The `online_do_offline_cmd` that are under way. -/
  runs : List (Run α)
  executed : List (Obj α)
  pushed : List (Obj α)

/-- One uninterrupted stretch of execution. -/
inductive Label (α : Type) where
  | push (cmd : Cmd) (ts : Nat) (args : α)
  | pushLocked (obj : Obj α)
  | pushed
  | loadLocked
  | loaded
  /-- A login calls `online_do_offline_cmd` for a role object. -/
  | online (serial : Nat)
  /-- An `online_do_offline_cmd` executes a command and sleeps. -/
  | doCmd (run : Run α)
  /-- An `online_do_offline_cmd` has executed all commands that it fetched. -/
  | fetchedDone (run : Run α)
  | deleted (run : Run α)
  | saveLocked (isClear : Bool)
  /-- A `save` returns, and a logout removes the role. -/
  | saved

namespace State

def doCmd (state : State α) (obj : Obj α) : State α :=
  { state with executed := state.executed ++ [obj] }

/-- `_push` under the lock. -/
def pushLocked (state : State α) (obj : Obj α) : State α :=
  match state.roleDict with
  | some _ => state.doCmd obj
  | none => { state with rows := state.rows ++ [obj] }

/-- `_load`, at its end. -/
def load (state : State α) : State α :=
  match state.roleDict with
  | some _ => state
  | none =>
      { state with
        roleDict := some { serial := state.loads, caughtUp := false }
        loads := state.loads + 1 }

/-- An `online_do_offline_cmd` returns. -/
def finish (state : State α) (run : Run α) : State α :=
  { state with
    runs := state.runs.erase run
    roleDict := state.roleDict.map fun role =>
      if role.serial = run.serial then { role with caughtUp := true } else role }

end State

/-- One stretch of execution, if it is possible. -/
def step (state : State α) : Label α → Option (State α)
  | .push cmd ts args =>
      let obj : Obj α := { cmd, version := currVersion cmd, ts, args }
      some { state with waiting := obj :: state.waiting, pushed := state.pushed ++ [obj] }
  | .pushLocked obj =>
      if state.lock = none ∧ obj ∈ state.waiting then
        some ({ state with lock := some .push, waiting := state.waiting.erase obj }.pushLocked obj)
      else none
  | .pushed => if state.lock = some .push then some { state with lock := none } else none
  | .loadLocked => if state.lock = none then some { state with lock := some .load } else none
  | .loaded =>
      if state.lock = some .load then some ({ state with lock := none }.load) else none
  | .online serial =>
      if serial < state.loads then
        some
          { state with
            runs := { serial, pending := state.rows, needDelete := false, deleting := false } ::
              state.runs }
      else none
  | .doCmd run =>
      match run.pending with
      | [] => none
      | obj :: pending =>
          if run ∈ state.runs ∧ run.deleting = false then
            some
              ({ state with
                runs := { run with pending, needDelete := true } :: state.runs.erase run }.doCmd obj)
          else none
  | .fetchedDone run =>
      if run ∈ state.runs ∧ run.pending = [] ∧ run.deleting = false then
        if run.needDelete then
          some
            { state with
              rows := []
              runs := { run with deleting := true } :: state.runs.erase run }
        else some (state.finish run)
      else none
  | .deleted run =>
      if run ∈ state.runs ∧ run.deleting then some (state.finish run) else none
  | .saveLocked isClear =>
      if state.lock = none then some { state with lock := some (.save isClear) } else none
  | .saved =>
      match state.lock with
      | some (.save isClear) =>
          some
            { state with
              lock := none
              roleDict := if isClear then none else state.roleDict }
      | _ => none

def initial : State α where
  roleDict := none
  loads := 0
  lock := none
  waiting := []
  rows := []
  runs := []
  executed := []
  pushed := []

/-- Every pushed command is executed exactly once. -/
structure ExactlyOnce (state : State α) : Prop where
  /-- No command is executed more often than it was pushed. -/
  atMost : state.executed.Subperm state.pushed
  kept : state.pushed.Subperm (state.waiting ++ state.rows ++ state.executed)
  /-- Once a login has executed the stored commands, every command has been executed. -/
  done : (∃ role, state.roleDict = some role ∧ role.caughtUp = true) → state.waiting = [] →
    state.executed.Perm state.pushed

/-- A login executes the stored commands for the role that is loaded and with no other login doing
so, and the role is not removed meanwhile. -/
def RunsAlone (state : State α) : Label α → Prop
  | .online serial => state.runs = [] ∧ (state.roleDict.map Role.serial) = some serial
  | .saved => state.lock = some (.save true) → state.runs = []
  | _ => True

instance (state : State α) : (label : Label α) → Decidable (RunsAlone state label)
  | .online serial => inferInstanceAs
      (Decidable (state.runs = [] ∧ (state.roleDict.map Role.serial) = some serial))
  | .saved => inferInstanceAs (Decidable (state.lock = some (.save true) → state.runs = []))
  | .push _ _ _ | .pushLocked _ | .pushed | .loadLocked | .loaded | .doCmd _ | .fetchedDone _
  | .deleted _ | .saveLocked _ => isTrue trivial

/-- The stored commands that have not been executed. -/
def State.outstanding (state : State α) : List (Obj α) :=
  match state.runs with
  | [] => state.rows
  | run :: _ => run.pending

/-- What holds if the logins run alone. -/
structure Alone (state : State α) : Prop where
  /-- Every pushed command waits for the lock, is stored and not executed, or is executed. -/
  conserved : (state.waiting ++ state.outstanding ++ state.executed).Perm state.pushed
  /-- At most one `online_do_offline_cmd` is under way, for the role that is loaded. -/
  single : ∀ run ∈ state.runs,
    state.runs = [run] ∧ state.roleDict.map Role.serial = some run.serial
  fetched : ∀ run ∈ state.runs, run.deleting = false →
    run.pending.Subperm state.rows ∧ (run.needDelete = false → run.pending = state.rows)
  /-- It deletes the rows when all commands have been executed. -/
  cleared : ∀ run ∈ state.runs, run.deleting = true → run.pending = [] ∧ state.rows = []
  /-- Nothing is stored for a role that has executed its commands. -/
  caught : ∀ role, state.roleDict = some role → role.caughtUp = true → state.rows = []

section
variable {state : State α}

section
variable (alone : Alone state)
include alone

omit [DecidableEq α] in
theorem Alone.outstanding_subperm : state.outstanding.Subperm state.rows := by
  unfold State.outstanding
  split
  · exact List.Subperm.refl _
  · rename_i run runs running
    have mem : run ∈ state.runs := running ▸ List.mem_cons_self
    cases deleting : run.deleting with
    | false => exact (alone.fetched run mem deleting).1
    | true =>
        rw [(alone.cleared run mem deleting).1]
        exact List.nil_subperm

omit [DecidableEq α] in
theorem Alone.exactlyOnce : ExactlyOnce state := by
  refine ⟨?_, ?_, ?_⟩
  · refine List.Subperm.trans ?_ alone.conserved.subperm
    exact (List.sublist_append_right _ _).subperm
  · refine alone.conserved.symm.subperm.trans ?_
    have stored := (List.subperm_append_left state.waiting).mpr alone.outstanding_subperm
    exact (List.subperm_append_right state.executed).mpr stored
  · rintro ⟨role, loaded, caughtUp⟩ idle
    have none_stored := alone.outstanding_subperm
    rw [alone.caught role loaded caughtUp, List.subperm_nil] at none_stored
    have conserved := alone.conserved
    rw [idle, none_stored] at conserved
    exact conserved

theorem finish_alone {run : Run α} (mem : run ∈ state.runs) (rows : state.rows = [])
    (pending : run.pending = []) : Alone (state.finish run) := by
  obtain ⟨single, -⟩ := alone.single run mem
  have idle : state.runs.erase run = [] := by simp [single]
  refine ⟨?_, ?_, ?_, ?_, fun _ _ _ => rows⟩
  · have conserved := alone.conserved
    simp only [State.outstanding, single, pending] at conserved
    simpa [State.outstanding, State.finish, idle, rows] using conserved
  · simp [State.finish, idle]
  · simp [State.finish, idle]
  · simp [State.finish, idle]

theorem pushLocked_alone {obj : Obj α} (mem : obj ∈ state.waiting) :
    Alone ({ state with
      lock := some .push, waiting := state.waiting.erase obj }.pushLocked obj) := by
  have front := List.perm_cons_erase mem
  have conserved := alone.conserved
  unfold State.pushLocked
  split
  · refine { alone with conserved := ?_ }
    refine List.Perm.trans ?_ conserved
    change (state.waiting.erase obj ++ state.outstanding ++ (state.executed ++ [obj])).Perm _
    rw [← List.append_assoc]
    refine (List.perm_append_singleton obj _).trans ?_
    exact (front.symm.append_right state.outstanding).append_right state.executed
  · rename_i unloaded
    have idle : state.runs = [] := by
      cases running : state.runs with
      | nil => rfl
      | cons run runs =>
          have first : run ∈ state.runs := running ▸ List.mem_cons_self
          have loaded := (alone.single run first).2
          rw [show state.roleDict = none from unloaded] at loaded
          cases loaded
    refine ⟨?_, ?_, ?_, ?_, fun role loaded => ?_⟩
    · refine List.Perm.trans ?_ conserved
      simp only [State.outstanding, idle]
      rw [← List.append_assoc]
      refine List.Perm.append_right _ ((List.perm_append_singleton obj _).trans ?_)
      exact front.symm.append_right state.rows
    · simp [idle]
    · simp [idle]
    · simp [idle]
    · rw [show state.roleDict = none from unloaded] at loaded
      cases loaded

omit [DecidableEq α] in
theorem load_alone : Alone ({ state with lock := none }.load) := by
  unfold State.load
  split
  · exact { alone with }
  · rename_i unloaded
    refine { alone with single := fun run mem => ?_, caught := ?_ }
    · have loaded := (alone.single run mem).2
      rw [show state.roleDict = none from unloaded] at loaded
      cases loaded
    · rintro role loaded caughtUp
      obtain rfl := Option.some.inj loaded
      cases caughtUp

theorem doCmd_alone {run : Run α} {obj : Obj α} {pending : List (Obj α)} (mem : run ∈ state.runs)
    (fetched : run.deleting = false) (next : run.pending = obj :: pending) :
    Alone ({ state with
      runs := { run with pending, needDelete := true } :: state.runs.erase run }.doCmd obj) := by
  obtain ⟨single, loaded⟩ := alone.single run mem
  have idle : state.runs.erase run = [] := by simp [single]
  have conserved := alone.conserved
  simp only [State.outstanding, single, next] at conserved
  refine ⟨?_, ?_, ?_, ?_, alone.caught⟩
  · refine List.Perm.trans ?_ conserved
    change (state.waiting ++ pending ++ (state.executed ++ [obj])).Perm _
    rw [← List.append_assoc]
    refine (List.perm_append_singleton obj _).trans ?_
    exact List.perm_middle.symm.append_right state.executed
  · simp [State.doCmd, idle, loaded]
  · have stored := (alone.fetched run mem fetched).1
    rw [next] at stored
    simpa [State.doCmd, idle, fetched] using
      (List.sublist_cons_self obj pending).subperm.trans stored
  · simp [State.doCmd, idle, fetched]

theorem deleteMany_alone {run : Run α} (mem : run ∈ state.runs) (pending : run.pending = []) :
    Alone { state with
      rows := [], runs := { run with deleting := true } :: state.runs.erase run } := by
  obtain ⟨single, loaded⟩ := alone.single run mem
  have idle : state.runs.erase run = [] := by simp [single]
  refine ⟨?_, ?_, ?_, ?_, fun _ _ _ => rfl⟩
  · have conserved := alone.conserved
    simp only [State.outstanding, single] at conserved
    exact conserved
  · simp [idle, loaded]
  · simp [idle]
  · simp [idle, pending]

end

end

theorem step_alone {state after : State α} {label : Label α} (alone : Alone state)
    (allowed : RunsAlone state label) (taken : step state label = some after) : Alone after := by
  cases label with
  | push cmd ts args =>
      cases taken
      refine { alone with conserved := ?_ }
      let obj : Obj α := { cmd, version := currVersion cmd, ts, args }
      exact (alone.conserved.cons obj).trans (List.perm_append_singleton obj state.pushed).symm
  | pushLocked obj =>
      simp only [step] at taken
      split at taken
      · rename_i locked
        cases taken
        exact pushLocked_alone alone locked.2
      · cases taken
  | pushed =>
      simp only [step] at taken
      split at taken
      · cases taken
        exact { alone with }
      · cases taken
  | loadLocked =>
      simp only [step] at taken
      split at taken
      · cases taken
        exact { alone with }
      · cases taken
  | loaded =>
      simp only [step] at taken
      split at taken
      · cases taken
        exact load_alone alone
      · cases taken
  | online serial =>
      simp only [step] at taken
      split at taken
      · cases taken
        obtain ⟨idle, loaded⟩ := allowed
        refine ⟨?_, ?_, ?_, ?_, alone.caught⟩
        · have conserved := alone.conserved
          simp only [State.outstanding, idle] at conserved
          exact conserved
        · simp [idle, loaded]
        · simp [idle, List.Subperm.refl]
        · simp [idle]
      · cases taken
  | doCmd run =>
      simp only [step] at taken
      split at taken
      · cases taken
      · rename_i obj pending next
        split at taken
        · rename_i running
          cases taken
          exact doCmd_alone alone running.1 running.2 next
        · cases taken
  | fetchedDone run =>
      simp only [step] at taken
      split at taken
      · rename_i running
        obtain ⟨mem, pending, fetched⟩ := running
        split at taken
        · cases taken
          exact deleteMany_alone alone mem pending
        · rename_i untouched
          cases taken
          have rows := (alone.fetched run mem fetched).2 (by simpa using untouched)
          exact finish_alone alone mem (rows.symm.trans pending) pending
      · cases taken
  | deleted run =>
      simp only [step] at taken
      split at taken
      · rename_i ends
        cases taken
        obtain ⟨pending, rows⟩ := alone.cleared run ends.1 ends.2
        exact finish_alone alone ends.1 rows pending
      · cases taken
  | saveLocked isClear =>
      simp only [step] at taken
      split at taken
      · cases taken
        exact { alone with }
      · cases taken
  | saved =>
      simp only [step] at taken
      split at taken
      · rename_i isClear saving
        cases taken
        cases isClear with
        | false =>
            exact { alone with }
        | true =>
            have idle : state.runs = [] := allowed saving
            refine { alone with single := ?_, caught := fun _ removed => ?_ }
            · simp [idle]
            · cases removed
      · cases taken

omit [DecidableEq α] in
theorem initial_alone : Alone (initial : State α) := by
  refine ⟨List.Perm.refl _, ?_, ?_, ?_, ?_⟩ <;> simp [initial]

/-- A mail is pushed, the role logs in and executes it, and then gets another mail. -/
def calmRun : List (Label Nat) :=
  let run : Run Nat :=
    { serial := 0, pending := [⟨.addMail, 1, 10, 1⟩], needDelete := false, deleting := false }
  [.push .addMail 10 1, .pushLocked ⟨.addMail, 1, 10, 1⟩, .pushed, .loadLocked, .loaded, .online 0,
    .doCmd run, .fetchedDone { run with pending := [], needDelete := true },
    .deleted { run with pending := [], needDelete := true, deleting := true },
    .push .addMail 20 2, .pushLocked ⟨.addMail, 1, 20, 2⟩, .pushed]

/-- The role logs out while its first mail is executed, and then gets another mail. -/
def logoutRun : List (Label Nat) :=
  let run : Run Nat :=
    { serial := 0, pending := [⟨.addMail, 1, 10, 1⟩], needDelete := false, deleting := false }
  [.push .addMail 10 1, .pushLocked ⟨.addMail, 1, 10, 1⟩, .pushed, .loadLocked, .loaded, .online 0,
    .doCmd run, .saveLocked true, .saved,
    .push .addMail 20 2, .pushLocked ⟨.addMail, 1, 20, 2⟩, .pushed,
    .fetchedDone { run with pending := [], needDelete := true }]

end UEServer.OfflineCmd
