import Mathlib.Data.List.TakeWhile
import UEServer.Arena.Save

/-!
# When the periodic save loses nothing

A save forgets the marks of the chunks that changed after it had passed them.  If while a save runs
only chunks that it has yet to reach change, every chunk that differs from its database copy stays
marked.
-/

namespace UEServer.Arena
namespace Saving

/-- What holds if while a save runs only chunks that it has yet to reach change. -/
structure Covered (state : Saving) : Prop where
  single : ∀ save ∈ state.saves, state.saves = [save]
  undisturbed : ∀ save ∈ state.saves, save.disturbed = false
  housed : Housed state.arena
  keys : ∀ rankStart, rankStart ∈ state.chunks ↔ (state.arena.allRank rankStart).isSome = true
  rows : ∀ rankStart, (state.database rankStart).isSome = (state.arena.allRank rankStart).isSome
  /-- A chunk that differs from its row is marked, and a running save will reach it. -/
  covered : ∀ rankStart, state.arena.allRank rankStart ≠ state.database rankStart →
    state.changeDict rankStart = true ∧ ∀ save ∈ state.saves, rankStart ∈ save.pending

section
variable {state after : Saving}

section
variable (covered : Covered state)
include covered

theorem Covered.marked : Marked state :=
  fun _ rankStart differs => (covered.covered rankStart differs).1

theorem change_covered {arena : State} {created : Option Nat} {marks : List Nat}
    (touched : Touched state.arena arena created marks) (ahead : state.Ahead created marks) :
    Covered (state.change arena created marks) := by
  cases created with
  | none =>
      refine ⟨covered.single, covered.undisturbed, touched.housed covered.housed, ?_, ?_, ?_⟩
      · intro rankStart
        refine Iff.trans ?_ ((covered.keys rankStart).trans ?_)
        · simp [change]
        · rw [← touched.present rankStart (by simp)]
          rfl
      · intro rankStart
        exact (covered.rows rankStart).trans (touched.present rankStart (by simp)).symm
      · intro rankStart differs
        change arena.allRank rankStart ≠ state.database rankStart at differs
        by_cases marked : rankStart ∈ marks
        · refine ⟨by simp [change, marked], fun save running => ?_⟩
          exact (ahead save running).2 rankStart marked
        · rw [touched.kept rankStart marked (by simp)] at differs
          obtain ⟨dirty, reached⟩ := covered.covered rankStart differs
          exact ⟨by simp [change, dirty], reached⟩
  | some start =>
      have idle : state.saves = [] := by
        cases running : state.saves with
        | nil => rfl
        | cons save saves =>
            have first : save ∈ state.saves := running ▸ List.mem_cons_self
            cases (ahead save first).1
      have no_save : (state.change arena (some start) marks).saves = [] := by
        simp [change, idle]
      obtain ⟨missing, empty⟩ := touched.fresh start rfl
      refine ⟨?_, ?_, touched.housed covered.housed, ?_, ?_, ?_⟩
      · simp [no_save]
      · simp [no_save]
      · intro rankStart
        change rankStart ∈ state.chunks ++ [start] ↔ (arena.allRank rankStart).isSome = true
        rw [List.mem_append, List.mem_singleton, covered.keys]
        by_cases same : rankStart = start
        · simp [same, empty]
        · rw [touched.present rankStart (by simpa using Ne.symm same)]
          simp [same]
      · intro rankStart
        change (Function.update state.database start (some []) rankStart).isSome =
          (arena.allRank rankStart).isSome
        by_cases same : rankStart = start
        · rw [same, Function.update_self, empty]
        · rw [Function.update_of_ne same, covered.rows,
            touched.present rankStart (by simpa using Ne.symm same)]
      · intro rankStart differs
        change arena.allRank rankStart ≠ Function.update state.database start (some []) rankStart
          at differs
        by_cases same : rankStart = start
        · rw [same, Function.update_self, empty] at differs
          exact absurd rfl differs
        · rw [Function.update_of_ne same] at differs
          refine ⟨?_, by simp [no_save]⟩
          by_cases marked : rankStart ∈ marks
          · simp [change, marked]
          · rw [touched.kept rankStart marked (by simpa using Ne.symm same)] at differs
            simp [change, (covered.covered rankStart differs).1]

theorem advance_covered {save : Save} (alone : state.saves = [save]) :
    Covered (state.advance save) := by
  have erased : state.saves.erase save = [] := by
    rw [alone]
    simp
  have running : save ∈ state.saves := alone ▸ List.mem_cons_self
  unfold advance
  split
  · rename_i passed
    have unmarked : ∀ rankStart ∈ save.pending, state.changeDict rankStart = false := by
      simpa using List.dropWhile_eq_nil_iff.mp passed
    refine ⟨?_, ?_, covered.housed, covered.keys, covered.rows, ?_⟩
    · simp [erased]
    · simp [erased]
    · intro rankStart differs
      obtain ⟨dirty, reached⟩ := covered.covered rankStart differs
      rw [unmarked rankStart (reached save running)] at dirty
      cases dirty
  · rename_i next rest stops
    refine ⟨?_, ?_, covered.housed, covered.keys, ?_, ?_⟩
    · simp [erased]
    · simpa [erased] using covered.undisturbed save running
    · intro rankStart
      change (Function.update state.database next _ rankStart).isSome = _
      by_cases same : rankStart = next
      · have row := covered.rows rankStart
        cases database : state.database rankStart <;> simp_all
      · rw [Function.update_of_ne same]
        exact covered.rows rankStart
    · intro rankStart differs
      change state.arena.allRank rankStart ≠ Function.update state.database next _ rankStart
        at differs
      by_cases same : rankStart = next
      · have row := covered.rows rankStart
        cases database : state.database rankStart <;> simp_all
      · rw [Function.update_of_ne same] at differs
        obtain ⟨dirty, reached⟩ := covered.covered rankStart differs
        refine ⟨dirty, ?_⟩
        have pending := reached save running
        rw [← List.takeWhile_append_dropWhile (p := fun rankStart => !state.changeDict rankStart)
          (l := save.pending), stops, List.mem_append] at pending
        have ahead : rankStart ∈ rest := by
          rcases pending with before | here
          · have clean := List.mem_takeWhile_imp before
            simp [dirty] at clean
          · exact (List.mem_cons.mp here).resolve_left same
        simpa [erased] using ahead

theorem started_covered (idle : state.saves = []) {order : List Nat}
    (keys : order.Perm state.chunks) :
    Covered { state with
      saves := { pending := order, disturbed := false } :: state.saves } := by
  refine ⟨?_, ?_, covered.housed, covered.keys, covered.rows, ?_⟩
  · simp [idle]
  · simp [idle]
  · intro rankStart differs
    refine ⟨(covered.covered rankStart differs).1, ?_⟩
    have chunk : rankStart ∈ order := by
      rw [keys.mem_iff, covered.keys]
      by_contra missing
      have row := covered.rows rankStart
      simp only [Option.not_isSome_iff_eq_none] at missing
      rw [missing, Option.isSome_none, Option.isSome_eq_false_iff,
        Option.isNone_iff_eq_none] at row
      exact differs (missing.trans row.symm)
    simpa [idle] using chunk

end

/-- A step that changes only what the running saves have yet to reach keeps the invariant. -/
theorem step_covered {label : SaveLabel} (covered : Covered state)
    (allowed : ChangesAhead state label) (taken : step state label = some after) :
    Covered after := by
  cases label with
  | arena label =>
      obtain ⟨arena, arena_taken, rfl⟩ := Option.map_eq_some_iff.mp taken
      exact change_covered covered (step_touched covered.housed arena_taken) allowed
  | swap selfUuid fightUuid =>
      simp only [step] at taken
      split at taken
      · rename_i selfRank fightRank self_index fight_index
        cases taken
        refine change_covered covered ?_ allowed
        rw [swapMarks, self_index, fight_index]
        exact swap_touched covered.housed self_index fight_index
      · cases taken
  | saveAllRank order =>
      simp only [step] at taken
      split at taken
      · rename_i keys
        cases taken
        exact advance_covered (started_covered covered allowed keys)
          (by rw [show state.saves = [] from allowed])
      · cases taken
  | written save =>
      simp only [step] at taken
      split at taken
      · rename_i running
        cases taken
        exact advance_covered covered (covered.single save running)
      · cases taken
  | rehashed save order =>
      simp only [step] at taken
      split at taken
      · rename_i possible
        obtain ⟨running, disturbed, -⟩ := possible
        rw [covered.undisturbed save running] at disturbed
        cases disturbed
      · cases taken

/-- The only running save ends and forgets all marks, or waits for one write less. -/
theorem advance_cases {save : Save} (alone : state.saves = [save]) :
    ((state.advance save).saves = [] ∧ ∀ rankStart,
      (state.advance save).changeDict rankStart = false) ∨
    ∃ next, (state.advance save).saves = [next] ∧ next.pending.length < save.pending.length := by
  unfold advance
  split
  · exact .inl ⟨by simp [alone], fun rankStart => rfl⟩
  · rename_i rankStart rest stops
    refine .inr ⟨_, by rw [alone, List.erase_cons_head], ?_⟩
    have shorter := List.length_dropWhile_le (fun rankStart => !state.changeDict rankStart)
      save.pending
    rw [stops, List.length_cons] at shorter
    exact shorter

theorem advance_arena (save : Save) : (state.advance save).arena = state.arena := by
  unfold advance
  split <;> rfl

/-- The only running save ends if nothing else happens, and then the database equals the arena. -/
theorem finishes (bound : Nat) {state : Saving} (covered : Covered state) {save : Save}
    (alone : state.saves = [save]) (short : save.pending.length < bound) :
    ∃ labels final, (∀ label ∈ labels, ∃ save, label = SaveLabel.written save) ∧
      Execution.run step (state.advance save) labels = some final ∧
      final.saves = [] ∧ final.arena = state.arena ∧ final.database = final.arena.allRank := by
  induction bound generalizing state save with
  | zero => exact absurd short (Nat.not_lt_zero _)
  | succ bound ih =>
      have advanced := advance_covered covered alone
      rcases advance_cases alone with ⟨idle, clean⟩ | ⟨next, waits, shorter⟩
      · refine ⟨[], _, by simp, rfl, idle, advance_arena save, ?_⟩
        funext rankStart
        by_contra differs
        have dirty := (advanced.covered rankStart (Ne.symm differs)).1
        rw [clean] at dirty
        cases dirty
      · obtain ⟨labels, final, written, execution, idle, arena, equal⟩ :=
          ih advanced waits (by omega)
        refine ⟨.written next :: labels, final, ?_, ?_, idle,
          arena.trans (advance_arena save), equal⟩
        · intro label mem
          rcases List.mem_cons.mp mem with rfl | later
          · exact ⟨next, rfl⟩
          · exact written label later
        · have running : next ∈ (state.advance save).saves := waits ▸ List.mem_cons_self
          rw [Execution.run_cons, step, if_pos running]
          exact execution

theorem Covered.savable (covered : Covered state) : Savable state := by
  intro idle order keys
  have taken : step state (.saveAllRank order) = some
      ({ state with
        saves := { pending := order, disturbed := false } :: state.saves }.advance
          { pending := order, disturbed := false }) := by
    rw [step, if_pos keys]
  have started := started_covered covered idle keys
  obtain ⟨labels, final, written, execution, ended⟩ :=
    finishes (order.length + 1) started (by rw [idle]) (Nat.lt_succ_self order.length)
  refine ⟨labels, final, written, ?_, ended⟩
  rw [Execution.run_cons, taken]
  exact execution

theorem initial_allRank_isSome (rankStart : Nat) :
    (Arena.initial.allRank rankStart).isSome = true ↔
      rankStart % roleListLen = 1 ∧ rankStart ≤ arenaRobotNum := by
  simp only [Arena.initial]
  split <;> simp_all

theorem initial_covered : Covered initial := by
  refine ⟨by simp [initial], by simp [initial], ?_, ?_, fun _ => rfl, ?_⟩
  · intro uuid rank index
    simp only [initial, Arena.initial] at index
    split at index
    · rename_i robot
      cases index
      obtain ⟨first, start_le, -⟩ := getRankStart_spec robot.1
      exact (initial_allRank_isSome _).mpr ⟨first, by omega⟩
    · cases index
  · intro rankStart
    refine Iff.trans ?_ (initial_allRank_isSome rankStart).symm
    simp only [initial, List.mem_cons, List.not_mem_nil, or_false, roleListLen, arenaRobotNum]
    omega
  · intro rankStart differs
    exact absurd rfl differs

/-- If while a save runs only chunks that it has yet to reach change, then whenever no save is
running every chunk that differs from its database copy is marked, and a save with nothing else
running leaves the database equal to the arena. -/
theorem save_loses_nothing {labels : List SaveLabel}
    (guarded : Execution.Guarded step ChangesAhead initial labels) :
    Execution.Always step (fun state => Marked state ∧ Savable state) initial labels := by
  have always := Execution.always_of_guarded step_covered guarded initial_covered
  exact always.mono fun state covered => ⟨covered.marked, covered.savable⟩

end

/-- Two newcomers and a save. The second challenges the first before the save begins. -/
def earlyRun : List SaveLabel :=
  [.arena (.getArenaInfo 3001), .arena (.inserted { uuid := 3001, lastRank := 3001 }),
    .arena (.getArenaInfo 3002),
    .arena (.look { uuid := 3002, selfRank := some 3002, roleList := [] } 3001 0),
    .arena (.show
      { uuid := 3002, selfRank := some 3002, roleList := [{ uuid := 3001, rank := 3001 }] }),
    .arena (.challenge 3002 3001 true true), .saveAllRank [1, 1001, 2001, 3001],
    .written { pending := [], disturbed := false }]

theorem save_loses_nothing_earlyRun :
    Execution.Always step (fun state => Marked state ∧ Savable state) initial earlyRun :=
  save_loses_nothing (by decide)

/-- Two newcomers and a save. The second challenges the first while the chunk is written. -/
def lateRun : List SaveLabel :=
  [.arena (.getArenaInfo 3001), .arena (.inserted { uuid := 3001, lastRank := 3001 }),
    .arena (.getArenaInfo 3002),
    .arena (.look { uuid := 3002, selfRank := some 3002, roleList := [] } 3001 0),
    .arena (.show
      { uuid := 3002, selfRank := some 3002, roleList := [{ uuid := 3001, rank := 3001 }] }),
    .saveAllRank [1, 1001, 2001, 3001], .arena (.challenge 3002 3001 true true),
    .written { pending := [], disturbed := false }]

/-- The swap is neither in the database nor marked. -/
theorem lateRun_not_marked :
    ¬ ∀ (labels : List SaveLabel) (state : Saving),
      Execution.run step initial labels = some state → Marked state := by
  intro claim
  have ends : ∃ state, Execution.run step initial lateRun = some state ∧ state.saves = [] ∧
      state.arena.allRank 3001 =
        some [{ uuid := 3002, rank := 3001 }, { uuid := 3001, rank := 3002 }] ∧
      state.database 3001 =
        some [{ uuid := 3001, rank := 3001 }, { uuid := 3002, rank := 3002 }] ∧
      state.changeDict 3001 = false := by
    exact ⟨_, rfl, rfl, rfl, rfl, rfl⟩
  obtain ⟨state, execution, idle, memory, row, unmarked⟩ := ends
  have marked := claim lateRun state execution idle 3001 (by rw [memory, row]; decide)
  rw [unmarked] at marked
  cases marked

end Saving
end UEServer.Arena
