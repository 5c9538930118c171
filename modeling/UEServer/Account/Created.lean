import UEServer.Account.Stages

/-!
# When the creation of accounts is atomic

Every request that gets to the insertion of the account's row has already made its role.  The accounts and
the roles match in the end exactly if no such row is refused.
-/

namespace UEServer.Account

open Execution

variable {υ ν τ : Type*}

/-- Every account has the role whose record names it and no other one, no two roles have the same
uuid, and requests without an answer leave nothing behind. -/
structure Good (state : State υ ν τ) : Prop where
  /-- The row of an account refers to a role whose record names the account. -/
  row : ∀ urs role, state.players urs = some role →
    ∃ uuid, role = some uuid ∧ state.records uuid = some urs
  single : ∀ urs first second, state.records first = some urs → state.records second = some urs →
    first = second
  distinct : state.given.Nodup
  known : ∀ uuid urs, state.records uuid = some urs → uuid ∈ state.given
  /-- A request without an answer leaves no role in memory, no record and no name. -/
  nothing : ∀ uuid ∈ state.failed, state.roleDict uuid = none ∧ state.records uuid = none ∧
    ∀ name, state.registry name ≠ some uuid

/-- Before the first request, the accounts and the roles match. -/
structure Started (env : ServerEnv ν) (state : State υ ν τ) : Prop where
  idle : ∀ thread, state.flows thread = .idle
  /-- The row of an account refers to a role whose record names the account. -/
  row : ∀ urs role, state.players urs = some role →
    ∃ uuid, role = some uuid ∧ state.records uuid = some urs
  /-- The record of a role names an account whose row refers to it. -/
  record : ∀ uuid urs, state.records uuid = some urs → state.players urs = some (some uuid)
  distinct : state.given.Nodup
  known : ∀ uuid urs, state.records uuid = some urs → uuid ∈ state.given
  next : ∀ uuid ∈ state.given, uuid < env.serverId * env.maxRoleNum + state.lastRoleNum
  failed : state.failed = []

/-- What holds while no row has been refused. -/
structure Orderly (view : View υ τ) : Prop where
  distinct : view.given.Nodup
  next : ∀ uuid ∈ view.given, uuid < view.next
  known : ∀ uuid urs, view.records uuid = some urs → uuid ∈ view.given
  fresh : ∀ thread urs uuid, view.stages thread = .fresh urs uuid →
    uuid ∈ view.given ∧ view.records uuid = none
  fresh_inj : ∀ first second urs urs' uuid, view.stages first = .fresh urs uuid →
    view.stages second = .fresh urs' uuid → first = second
  kept : ∀ thread urs uuid, view.stages thread = .kept urs uuid → view.records uuid = some urs
  placed : ∀ thread urs uuid, view.stages thread = .placed urs uuid →
    view.players urs = some none ∧ view.records uuid = some urs
  placed_inj : ∀ first second urs uuid uuid', view.stages first = .placed urs uuid →
    view.stages second = .placed urs uuid' → first = second
  waits : ∀ urs, view.players urs = some none →
    ∃ thread uuid, view.stages thread = .placed urs uuid
  /-- The row of an account refers to a role whose record names the account. -/
  row : ∀ urs uuid, view.players urs = some (some uuid) → view.records uuid = some urs
  /-- The record of a role names an account whose row refers to it, or will. -/
  record : ∀ uuid urs, view.records uuid = some urs → view.players urs = some (some uuid) ∨
    ∃ thread, view.stages thread = .kept urs uuid ∨ view.stages thread = .placed urs uuid
  granted : ∀ thread urs uuid, view.stages thread ≠ .refused urs uuid
  failed : view.failed = []

/-- A role whose row has been refused, or will be, has its record. -/
structure Recorded (view : View υ τ) : Prop where
  kept : ∀ thread urs uuid, view.stages thread = .kept urs uuid → view.records uuid ≠ none
  refused : ∀ thread urs uuid, view.stages thread = .refused urs uuid → view.records uuid ≠ none
  failed : ∀ uuid ∈ view.failed, view.records uuid ≠ none

def Marked (view : View υ τ) : Prop :=
  view.failed ≠ [] ∨ ∃ thread urs uuid, view.stages thread = .refused urs uuid

section

variable [DecidableEq υ] [DecidableEq τ] {before after : View υ τ}

theorem Orderly.effect (orderly : Orderly before) (effect : Effect before after) :
    Orderly after := by
  obtain ⟨distinct, next, known, fresh, fresh_inj, kept, placed, placed_inj, waits, row, record,
    granted, failed⟩ := orderly
  cases effect with
  | same => constructor <;> assumption
  | counted =>
      refine ⟨distinct, ?_, known, fresh, fresh_inj, kept, placed, placed_inj, waits, row, record,
        granted, failed⟩
      exact fun uuid mem => Nat.lt_succ_of_lt (next uuid mem)
  | given urs idle =>
      have unused : before.next ∉ before.given := fun mem => Nat.lt_irrefl _ (next _ mem)
      have absent : before.records before.next = none :=
        Option.eq_none_iff_forall_ne_some.mpr fun urs found => unused (known _ urs found)
      constructor <;> simp only [View.goes, Function.update_apply] <;> grind
  | kept stage =>
      constructor <;> simp only [View.goes, Function.update_apply] <;> grind
  | placed stage absent =>
      constructor <;> simp only [View.goes, Function.update_apply] <;> grind
  | set stage =>
      constructor <;> simp only [View.goes, Function.update_apply] <;> grind
  | answered stage => exact absurd stage (granted _ _ _)

theorem Recorded.effect (recorded : Recorded before) (effect : Effect before after) :
    Recorded after := by
  obtain ⟨kept, refused, failed⟩ := recorded
  cases effect with
  | same => exact ⟨kept, refused, failed⟩
  | counted => exact ⟨kept, refused, failed⟩
  | given urs idle =>
      constructor <;> simp only [View.goes, Function.update_apply] <;> grind
  | kept stage =>
      constructor <;> simp only [View.goes, Function.update_apply] <;> grind
  | placed stage absent =>
      constructor <;> simp only [View.goes, Function.update_apply] <;> grind
  | set stage =>
      constructor <;> simp only [View.goes, Function.update_apply] <;> grind
  | answered stage =>
      constructor <;> simp only [View.goes, Function.update_apply] <;> grind

omit [DecidableEq υ] in
theorem Recorded.refusal (recorded : Recorded before) (refusal : Refusal before after) :
    Recorded after := by
  obtain ⟨kept, refused, failed⟩ := recorded
  cases refusal with
  | refused stage =>
      constructor <;> simp only [View.goes, Function.update_apply] <;> grind

omit [DecidableEq υ] in
theorem View.refused_goes {later : View υ τ} {thread other : τ} {urs : υ} {uuid : ℕ}
    {stage : Stage υ} (refused : before.stages thread = .refused urs uuid)
    (unlike : before.stages other ≠ .refused urs uuid) (same : later.stages = before.stages) :
    (later.goes other stage).stages thread = .refused urs uuid := by
  have apart : thread ≠ other := by
    rintro rfl
    exact unlike refused
  rw [← refused, ← same]
  exact Function.update_of_ne apart _ _

theorem Marked.effect (marked : Marked before) (effect : Effect before after) : Marked after := by
  rcases marked with failed | ⟨thread, urs, uuid, refused⟩
  · refine .inl ?_
    cases effect with
    | answered stage => exact List.append_ne_nil_of_left_ne_nil failed _
    | _ => exact failed
  · cases effect with
    | same => exact .inr ⟨thread, urs, uuid, refused⟩
    | counted => exact .inr ⟨thread, urs, uuid, refused⟩
    | answered stage => exact .inl (List.append_ne_nil_of_right_ne_nil _ (List.cons_ne_nil _ _))
    | given _ idle => exact .inr ⟨thread, urs, uuid, View.refused_goes refused (by simp [idle]) rfl⟩
    | kept stage => exact .inr ⟨thread, urs, uuid, View.refused_goes refused (by simp [stage]) rfl⟩
    | placed stage absent => exact .inr ⟨thread, urs, uuid, View.refused_goes refused (by simp [stage]) rfl⟩
    | set stage => exact .inr ⟨thread, urs, uuid, View.refused_goes refused (by simp [stage]) rfl⟩

omit [DecidableEq υ] in
theorem Refusal.marked (refusal : Refusal before after) : Marked after := by
  cases refusal with
  | refused stage => exact .inr ⟨_, _, _, Function.update_self _ _ _⟩

end

section

variable {env : ServerEnv ν} {initial final : State υ ν τ}

theorem Started.stages (started : Started env initial) (thread : τ) :
    (initial.view env).stages thread = .free :=
  State.stages_view (started.idle thread)

theorem Started.orderly (started : Started env initial) : Orderly (initial.view env) := by
  have free := started.stages
  refine ⟨started.distinct, started.next, started.known, ?_, ?_, ?_, ?_, ?_, ?_, ?_, ?_, ?_,
    started.failed⟩
  · exact fun thread urs uuid stage => absurd ((free thread).symm.trans stage) nofun
  · exact fun thread _ urs _ uuid stage => absurd ((free thread).symm.trans stage) nofun
  · exact fun thread urs uuid stage => absurd ((free thread).symm.trans stage) nofun
  · exact fun thread urs uuid stage => absurd ((free thread).symm.trans stage) nofun
  · exact fun thread _ urs uuid _ stage => absurd ((free thread).symm.trans stage) nofun
  · intro urs absent
    obtain ⟨uuid, present, -⟩ := started.row urs none absent
    cases present
  · intro urs uuid found
    obtain ⟨other, same, record⟩ := started.row urs (some uuid) found
    rwa [Option.some.inj same]
  · exact fun uuid urs found => .inl (started.record uuid urs found)
  · exact fun thread urs uuid stage => absurd ((free thread).symm.trans stage) nofun

theorem Started.recorded (started : Started env initial) : Recorded (initial.view env) := by
  have free := started.stages
  refine ⟨?_, ?_, ?_⟩
  · exact fun thread urs uuid stage => absurd ((free thread).symm.trans stage) nofun
  · exact fun thread urs uuid stage => absurd ((free thread).symm.trans stage) nofun
  · intro uuid mem
    exact absurd (started.failed ▸ mem : uuid ∈ ([] : List ℕ)) List.not_mem_nil

/-- When all requests have been handled in order, the accounts and the roles match. -/
theorem Orderly.good (orderly : Orderly (final.view env))
    (completed : ∀ thread, final.flows thread = .idle) : Good final := by
  have free : ∀ thread, (final.view env).stages thread = .free :=
    fun thread => State.stages_view (completed thread)
  have record : ∀ uuid urs, final.records uuid = some urs →
      final.players urs = some (some uuid) := by
    intro uuid urs found
    rcases orderly.record uuid urs found with row | ⟨thread, kept | placed⟩
    · exact row
    · cases (free thread).symm.trans kept
    · cases (free thread).symm.trans placed
  refine ⟨?_, ?_, orderly.distinct, orderly.known, ?_⟩
  · intro urs role found
    cases role with
    | none =>
        obtain ⟨thread, uuid, placed⟩ := orderly.waits urs found
        cases (free thread).symm.trans placed
    | some uuid => exact ⟨uuid, rfl, orderly.row urs uuid found⟩
  · intro urs first second first_found second_found
    have same := (record first urs first_found).symm.trans (record second urs second_found)
    exact Option.some.inj (Option.some.inj same)
  · intro uuid mem
    exact absurd (orderly.failed ▸ mem : uuid ∈ ([] : List ℕ)) List.not_mem_nil

theorem Recorded.unmarked (recorded : Recorded (final.view env))
    (completed : ∀ thread, final.flows thread = .idle) (good : Good final) :
    ¬ Marked (final.view env) := by
  rintro (failed | ⟨thread, urs, uuid, refused⟩)
  · obtain ⟨uuid, mem⟩ := List.exists_mem_of_ne_nil _ failed
    exact recorded.failed uuid mem (good.nothing uuid mem).2.1
  · have free : (final.view env).stages thread = .free := State.stages_view (completed thread)
    cases free.symm.trans refused

variable [DecidableEq υ] [DecidableEq ν] [DecidableEq τ]

/-- Once all requests have completed, the accounts and the roles match, and requests without an answer
have left nothing behind, exactly if no row was inserted for an account that had got one meanwhile. -/
theorem created_iff {events : List (Event υ ν τ)} (started : Started env initial)
    (execution : run (step env) initial events = some final)
    (completed : ∀ thread, final.flows thread = .idle) :
    Good final ↔ Guarded (step env) Permitted initial events := by
  constructor
  · intro good
    have recorded : ∀ {before : State υ ν τ} {event after}, Recorded (before.view env) →
        step env before event = some after → Recorded (after.view env) := by
      intro before event after recorded taken
      rcases step_effect taken with ⟨-, effect⟩ | ⟨-, refusal⟩
      · exact recorded.effect effect
      · exact recorded.refusal refusal
    have marks : ∀ {before : State υ ν τ} {event after}, Recorded (before.view env) →
        step env before event = some after → ¬ Permitted before event →
          Marked (after.view env) := by
      intro before event after _ taken violated
      rcases step_effect taken with ⟨permitted, -⟩ | ⟨-, refusal⟩
      · exact absurd permitted violated
      · exact refusal.marked
    have stays : ∀ {before : State υ ν τ} {event after}, Recorded (before.view env) →
        step env before event = some after → Marked (before.view env) →
          Marked (after.view env) := by
      intro before event after _ taken marked
      rcases step_effect taken with ⟨-, effect⟩ | ⟨-, refusal⟩
      · exact marked.effect effect
      · exact refusal.marked
    have ends := run_invariant recorded execution started.recorded
    exact guarded_of_unmarked recorded marks stays execution started.recorded
      (ends.unmarked completed good)
  · intro guarded
    have preserved : ∀ {before : State υ ν τ} {event after}, Orderly (before.view env) →
        Permitted before event → step env before event = some after →
          Orderly (after.view env) := by
      intro before event after orderly permitted taken
      rcases step_effect taken with ⟨-, effect⟩ | ⟨violated, -⟩
      · exact orderly.effect effect
      · exact absurd permitted violated
    exact ((always_of_guarded preserved guarded started.orderly).last execution).good completed

end

/-- A server without roles, where every name is legal. -/
def serverOne : ServerEnv ℕ := ⟨1, 1000000, fun _ => true⟩

/-- There are no accounts and no roles yet, and roles are numbered from 1. -/
def empty : State ℕ ℕ Bool :=
  ⟨fun _ => none, fun _ => none, fun _ => none, fun _ => none, 1, fun _ => none, fun _ => .idle, [], []⟩

/-- What a coroutine does up to the insertion of the account's row. -/
def make (thread : Bool) (request : Request ℕ ℕ) : List (Event ℕ ℕ Bool) :=
  [.newRole thread request, .answer thread true, .execute thread, .resume thread, .execute thread,
    .resume thread, .acquire thread, .execute thread, .resume thread, .resume thread, .execute thread,
    .resume thread]

def enter (thread : Bool) : List (Event ℕ ℕ Bool) :=
  [.execute thread, .resume thread, .execute thread, .resume thread]

theorem empty_started : Started serverOne empty :=
  ⟨fun _ => rfl, nofun, nofun, List.nodup_nil, nofun, nofun, rfl⟩

/-- Two accounts get their roles at the same time. -/
def apartRun : List (Event ℕ ℕ Bool) :=
  make true ⟨1, 1⟩ ++ make false ⟨2, 2⟩ ++ enter true ++ enter false

theorem created_iff_apartRun :
    ∃ final, run (step serverOne) empty apartRun = some final ∧ Good final ∧
      final.given = [1000001, 1000002] := by
  have ends : (run (step serverOne) empty apartRun).map
      (fun state => (state.flows true, state.flows false, state.given)) =
        some (.idle, .idle, [1000001, 1000002]) := by decide
  obtain ⟨final, execution, same⟩ := Option.map_eq_some_iff.mp ends
  have completed : ∀ thread, final.flows thread = .idle := by
    rintro (_ | _)
    · exact congrArg (fun part => part.2.1) same
    · exact congrArg (fun part => part.1) same
  exact ⟨final, execution, (created_iff empty_started execution completed).mpr (by decide),
    congrArg (fun part => part.2.2) same⟩

/-- Two requests for one account, with different names, get to the insertion of its row; one of them
inserts it, and the other one is answered with an error. -/
def racedRun : List (Event ℕ ℕ Bool) :=
  make true ⟨1, 1⟩ ++ make false ⟨1, 2⟩ ++ enter true ++ [.execute false, .resume false]

/-- The role of the other one is left behind. -/
theorem racedRun_not_good :
    ∃ final, run (step serverOne) empty racedRun = some final ∧
      (∀ thread, final.flows thread = .idle) ∧ ¬ Good final := by
  have ends : (run (step serverOne) empty racedRun).map
      (fun state => (state.flows true, state.flows false, state.failed, state.roleDict 1000002)) =
        some (.idle, .idle, [1000002], some 1) := by decide
  obtain ⟨final, execution, same⟩ := Option.map_eq_some_iff.mp ends
  have failed : final.failed = [1000002] := congrArg (fun part => part.2.2.1) same
  have memory : final.roleDict 1000002 = some 1 := congrArg (fun part => part.2.2.2) same
  refine ⟨final, execution, ?_, fun good => ?_⟩
  · rintro (_ | _)
    · exact congrArg (fun part => part.2.1) same
    · exact congrArg (fun part => part.1) same
  · have nothing := (good.nothing 1000002 (failed ▸ List.mem_singleton_self _)).1
    cases memory.symm.trans nothing

end UEServer.Account
