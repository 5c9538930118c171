import Mathlib.Tactic.Linarith
import Mathlib.Tactic.Ring
import UEServer.RushActivity.Basic

/-!
# The schedule of a rush activity

The cycles follow each other without end.  At every time there is a cycle that runs or comes next, and
the schedule prescribes from it the state of the activity and its next transition.
-/

namespace UEServer.RushActivity
namespace Config

variable {config : Config} {now : ℤ} {cycle other : ℕ}

def start (config : Config) (cycle : ℕ) : ℤ :=
  config.firstStartTs + config.offsetSec + config.loopUnitSec * cycle

def stop (config : Config) (cycle : ℕ) : ℤ := config.start cycle + config.durationSec

def finish (config : Config) (cycle : ℕ) : ℤ := config.stop cycle + config.reserveSec

def Current (config : Config) (now : ℤ) (cycle : ℕ) : Prop :=
  now < config.finish cycle ∧ ∀ other < cycle, config.finish other ≤ now

def phase (config : Config) (now : ℤ) (cycle : ℕ) : Phase :=
  if now < config.start cycle then .nostart
  else if now < config.stop cycle then .started
  else .stopped

def next (config : Config) (now : ℤ) (cycle : ℕ) : ℤ × Transition :=
  if now < config.start cycle then (config.start cycle, .toStarted)
  else if now < config.stop cycle then (config.stop cycle, .toStopped)
  else (config.finish cycle, .toNostart)

theorem loopUnitSec_pos (config : Config) : 0 < config.loopUnitSec := by
  have := config.duration_pos
  have := config.reserve_pos
  have := config.loop_pos
  unfold loopUnitSec
  omega

theorem row_start (config : Config) (cycle : ℕ) :
    config.row (config.start cycle) =
      ⟨config.start cycle, config.stop cycle, config.finish cycle⟩ := rfl

theorem start_succ (config : Config) (cycle : ℕ) :
    config.start (cycle + 1) = config.finish cycle + config.loopSec := by
  unfold finish stop start loopUnitSec
  push_cast
  ring

theorem finish_add_loop_le (before : cycle < other) :
    config.finish cycle + config.loopSec ≤ config.start other := by
  rw [← start_succ]
  unfold start
  have more : (↑(cycle + 1) : ℤ) ≤ other := by exact_mod_cast before
  have := mul_le_mul_of_nonneg_left more config.loopUnitSec_pos.le
  omega

theorem start_lt_stop (config : Config) (cycle : ℕ) : config.start cycle < config.stop cycle :=
  lt_add_of_pos_right _ config.duration_pos

theorem stop_lt_finish (config : Config) (cycle : ℕ) : config.stop cycle < config.finish cycle :=
  lt_add_of_pos_right _ config.reserve_pos

theorem finish_lt_start (config : Config) (before : cycle < other) : config.finish cycle < config.start other :=
  (lt_add_of_pos_right _ config.loop_pos).trans_le (finish_add_loop_le before)

theorem stop_mono (order : cycle ≤ other) : config.stop cycle ≤ config.stop other := by
  rcases order.eq_or_lt with rfl | before
  · exact le_rfl
  · have := config.finish_lt_start before
    have := config.stop_lt_finish cycle
    have := config.start_lt_stop other
    omega

theorem stop_succ (config : Config) (cycle : ℕ) :
    config.stop (cycle + 1) = config.stop cycle + config.loopUnitSec := by
  unfold stop start
  push_cast
  ring

theorem finish_lt_stop_succ (config : Config) (cycle : ℕ) : config.finish cycle < config.stop (cycle + 1) :=
  (config.finish_lt_start cycle.lt_succ_self).trans (config.start_lt_stop _)

theorem start_inj : config.start cycle = config.start other ↔ cycle = other := by
  refine ⟨fun same => ?_, fun same => by rw [same]⟩
  have ends := config.start_lt_stop
  have stops := config.stop_lt_finish
  rcases lt_trichotomy cycle other with before | same_cycle | after
  · have := config.finish_lt_start before
    have := ends cycle
    have := stops cycle
    omega
  · exact same_cycle
  · have := config.finish_lt_start after
    have := ends other
    have := stops other
    omega

theorem Current.unique (current : config.Current now cycle) (also : config.Current now other) :
    cycle = other := by
  rcases lt_trichotomy cycle other with before | same | after
  · exact absurd (also.2 cycle before) (not_le.mpr current.1)
  · exact same
  · exact absurd (current.2 other after) (not_le.mpr also.1)

theorem current_zero : config.Current now 0 ↔ now < config.finish 0 :=
  ⟨And.left, fun before => ⟨before, nofun⟩⟩

theorem current_succ :
    config.Current now (cycle + 1) ↔ config.finish cycle ≤ now ∧ now < config.finish (cycle + 1) := by
  refine ⟨fun current => ⟨current.2 cycle cycle.lt_succ_self, current.1⟩, fun both => ⟨both.2, ?_⟩⟩
  intro other before
  rcases (Nat.lt_succ_iff.mp before).eq_or_lt with rfl | before
  · exact both.1
  · have := config.finish_lt_start before
    have := config.start_lt_stop cycle
    have := config.stop_lt_finish cycle
    omega

theorem Current.mono {after : ℤ} (current : config.Current now cycle) (order : now ≤ after)
    (before : after < (config.next now cycle).1) :
    config.Current after cycle ∧ config.phase after cycle = config.phase now cycle ∧
      config.next after cycle = config.next now cycle := by
  have started := config.start_lt_stop cycle
  have stopped := config.stop_lt_finish cycle
  have end_bound : after < config.finish cycle := by
    unfold next at before
    split at before
    · omega
    · split at before
      · omega
      · exact before
  refine ⟨⟨end_bound, fun other less => (current.2 other less).trans order⟩, ?_⟩
  unfold next at before
  unfold phase next
  split at before
  · next early =>
      have early_later : after < config.start cycle := before
      simp only [if_pos early, if_pos early_later, and_self]
  · next late =>
      have late_later : ¬ after < config.start cycle := by omega
      split at before
      · next running =>
          have running_later : after < config.stop cycle := before
          simp only [if_neg late, if_neg late_later, if_pos running, if_pos running_later, and_self]
      · next finished =>
          have over_later : ¬ after < config.stop cycle := by omega
          simp only [if_neg late, if_neg late_later, if_neg finished, if_neg over_later, and_self]

/-- Up to the next transition, no cycle stops, except at the transition that stops it. -/
theorem Current.stop_between (current : config.Current now cycle) (after : now < config.stop other)
    (before : config.stop other ≤ (config.next now cycle).1) :
    other = cycle ∧ config.next now cycle = (config.stop cycle, .toStopped) := by
  have started := config.start_lt_stop
  have stopped := config.stop_lt_finish
  have same : other = cycle := by
    rcases lt_trichotomy other cycle with less | same | more
    · have := current.2 other less
      have := stopped other
      omega
    · exact same
    · have gap := config.finish_lt_start more
      have bound : (config.next now cycle).1 ≤ config.finish cycle := by
        have := started cycle
        have := stopped cycle
        unfold next
        split
        · omega
        · split
          · omega
          · exact le_rfl
      have := started other
      omega
  subst same
  refine ⟨rfl, ?_⟩
  unfold next at before ⊢
  have := started other
  split
  · next early =>
      rw [if_pos early] at before
      omega
  · rfl

end Config

/-- The activity is in the state that is prescribed, and has one timer, for the next transition. -/
def Prescribed (config : Config) (now : ℤ) (activity : Activity) : Prop :=
  ∃ cycle, config.Current now cycle ∧ activity.state = some (config.phase now cycle) ∧
    activity.timers = [config.next now cycle]

theorem enter_start {config : Config} {now : ℤ} {cycle : ℕ} (before : now < config.finish cycle) :
    enter now (config.row (config.start cycle)) =
      ⟨config.row (config.start cycle), some (config.phase now cycle), [config.next now cycle]⟩ := by
  rw [config.row_start]
  unfold enter Config.phase Config.next
  by_cases early : now < config.start cycle
  · simp only [if_pos early]
  · by_cases running : now < config.stop cycle
    · simp only [if_neg early, if_pos running]
    · simp only [if_neg early, if_neg running, if_pos before]

/-- What `init` comes to is as prescribed exactly if its start is that of the cycle that runs or comes
next. -/
theorem enter_prescribed_iff {config : Config} {now startTs : ℤ} :
    Prescribed config now (enter now (config.row startTs)) ↔
      ∃ cycle, startTs = config.start cycle ∧ config.Current now cycle := by
  constructor
  · rintro ⟨cycle, current, state, timers⟩
    refine ⟨cycle, ?_, current⟩
    unfold enter Config.row Config.next Config.stop Config.finish Config.stop at timers
    split at timers
    · split at timers
      · simpa using timers
      · split at timers <;> simp at timers
    · split at timers
      · split at timers
        · simp at timers
        · split at timers
          · simpa using timers
          · simp at timers
      · split at timers
        · split at timers
          · simp at timers
          · split at timers
            · simp at timers
            · simpa using timers
        · split at timers <;> simp at timers
  · rintro ⟨cycle, rfl, current⟩
    rw [enter_start current.1]
    exact ⟨cycle, current, rfl, rfl⟩

end UEServer.RushActivity
