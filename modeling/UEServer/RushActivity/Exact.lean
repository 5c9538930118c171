import Mathlib.Data.List.Nodup
import UEServer.RushActivity.Schedule

/-!
# When a rush activity keeps its schedule

While the server runs, the timers keep the activity on its schedule.  A start of the server puts it there
exactly if the start that `init` computes is that of the cycle that runs or comes next; and it gives
the rewards that are due exactly if no other cycle has stopped since, and the last shutdown that is
remembered tells whether the reward of the stored one has been given.
-/

namespace UEServer.RushActivity

open Execution

variable {config : Config} {state after : State}

/-- The rewards that have been given are those of the cycles that have stopped since the activity was
initialised first, each once. -/
structure Rewarded (config : Config) (began : Option ℤ) (rewards : List ℤ) (now : ℤ) : Prop where
  nodup : rewards.Nodup
  mem_iff : ∀ startTs, startTs ∈ rewards ↔ ∃ first ∈ began, ∃ cycle,
    startTs = config.start cycle ∧ first < config.stop cycle ∧ config.stop cycle ≤ now

def State.seen (state : State) : ℤ := if state.activity.isSome then state.now else state.ranUntil

/-- While the server runs, the activity is as the schedule prescribes, with one timer, for the next
transition; and the reward of every cycle has been given once. -/
structure Good (config : Config) (state : State) : Prop where
  prescribed : ∀ activity ∈ state.activity, Prescribed config state.now activity
  /-- The reward of every cycle has been given once. -/
  rewarded : Rewarded config state.began state.rewards state.seen

structure Inv (config : Config) (state : State) : Prop where
  seen_le : state.seen ≤ state.now
  /-- The activity was initialised first before the server ended. -/
  began_le : ∀ began ∈ state.began, began ≤ state.seen
  initialised : state.db.isSome ↔ state.began.isSome
  /-- A cycle that is stored is the one that ran or came next when the server ended. -/
  stored : ∀ row ∈ state.db, ∃ cycle, row = config.row (config.start cycle) ∧
    config.Current state.seen cycle
  running : ∀ activity ∈ state.activity, state.db = some activity.row

/-- The start is that of the cycle that runs or comes next. -/
def Config.Fits (config : Config) (now startTs : ℤ) : Prop :=
  config.firstStartTs + config.offsetSec ≤ startTs ∧
    (startTs = config.firstStartTs + config.offsetSec ∨ startTs - config.loopSec ≤ now) ∧
    now < startTs + config.durationSec + config.reserveSec

instance (config : Config) (now startTs : ℤ) : Decidable (config.Fits now startTs) :=
  inferInstanceAs (Decidable (_ ∧ (_ ∨ _) ∧ _))

/-- The server is started before the waiting phase of a cycle. -/
def Config.Early (config : Config) (now : ℤ) : Prop :=
  now < config.firstStartTs + config.offsetSec ∨
    (now - (config.firstStartTs + config.offsetSec)) % config.loopUnitSec <
      config.durationSec + config.reserveSec

/-- The stored cycle, moved by the whole cycles since the last shutdown that is remembered, is the one
that runs or comes next; no cycle after the stored one has stopped; and if the stored one has stopped,
it had stopped at the last shutdown that is remembered exactly if it had when the server ended. -/
def State.Resumes (state : State) (config : Config) (data : Row) : Prop :=
  config.Fits state.now
      (data.startTs + config.loopUnitSec *
        ((state.now - state.lastShutdownTs) / config.loopUnitSec)) ∧
    state.now < data.stopTs + config.loopUnitSec ∧
    (data.stopTs ≤ state.now →
      (state.lastShutdownTs < data.stopTs ↔ state.ranUntil < data.stopTs))

instance (config : Config) (now : ℤ) : Decidable (config.Early now) :=
  inferInstanceAs (Decidable (_ ∨ _))

instance (state : State) (config : Config) (data : Row) : Decidable (state.Resumes config data) :=
  inferInstanceAs (Decidable (_ ∧ _ ∧ (_ → (_ ↔ _))))

/-- A first start of the server comes before the waiting phase of a cycle; a later one resumes what is
stored. -/
def Permitted (config : Config) (state : State) : Op → Prop
  | .start => (state.db = none → config.Early state.now) ∧
      ∀ data ∈ state.db, state.Resumes config data
  | _ => True

instance (config : Config) (state : State) : (op : Op) → Decidable (Permitted config state op)
  | .start => inferInstanceAs (Decidable
      ((state.db = none → config.Early state.now) ∧ ∀ data ∈ state.db, state.Resumes config data))
  | .shutdown => isTrue trivial
  | .crash => isTrue trivial
  | .timer _ _ => isTrue trivial
  | .tick _ => isTrue trivial

/-- A start fits exactly if it is that of the cycle that runs or comes next. -/
theorem fits_iff {now startTs multiple : ℤ}
    (aligned : startTs = config.firstStartTs + config.offsetSec + config.loopUnitSec * multiple) :
    config.Fits now startTs ↔ ∃ cycle, startTs = config.start cycle ∧ config.Current now cycle := by
  have unit := config.loopUnitSec_pos
  constructor
  · rintro ⟨base, early, before⟩
    have nonneg : 0 ≤ multiple := by
      by_contra negative
      have := mul_neg_of_pos_of_neg unit (not_le.mp negative)
      omega
    obtain ⟨cycle, rfl⟩ := Int.eq_ofNat_of_zero_le nonneg
    have same : startTs = config.start cycle := aligned
    refine ⟨cycle, same, ?_⟩
    rw [same] at early before
    cases cycle with
    | zero => exact Config.current_zero.mpr before
    | succ cycle =>
        refine Config.current_succ.mpr ⟨?_, before⟩
        have after := config.start_succ cycle
        rcases early with first | early
        · have first_zero : config.start (cycle + 1) = config.start 0 := by
            rw [first]
            simp [Config.start]
          exact absurd (Config.start_inj.mp first_zero) (Nat.succ_ne_zero _)
        · omega
  · rintro ⟨cycle, rfl, current⟩
    have base : config.firstStartTs + config.offsetSec ≤ config.start cycle :=
      le_add_of_nonneg_right (mul_nonneg unit.le (Int.natCast_nonneg cycle))
    refine ⟨base, ?_, current.1⟩
    cases cycle with
    | zero => exact .inl (by simp [Config.start])
    | succ cycle =>
        have after := config.start_succ cycle
        have ended := current.2 cycle cycle.lt_succ_self
        exact .inr (by omega)

theorem firstTs_iff {now : ℤ} :
    (∃ cycle, config.firstTs now = config.start cycle ∧ config.Current now cycle) ↔
      config.Early now := by
  have unit := config.loopUnitSec_pos
  unfold Config.firstTs Config.Early
  dsimp only
  split
  · next early =>
      have before : now < config.firstStartTs + config.offsetSec := by omega
      refine iff_of_true ⟨0, by simp [Config.start], ?_⟩ (.inl before)
      have starts := config.start_lt_stop 0
      have stops := config.stop_lt_finish 0
      have first : config.start 0 = config.firstStartTs + config.offsetSec := by
        simp [Config.start]
      exact Config.current_zero.mpr (by omega)
  · next late =>
      have whole := Int.mul_ediv_add_emod (now - config.firstStartTs - config.offsetSec)
        config.loopUnitSec
      have rest := Int.emod_nonneg (now - config.firstStartTs - config.offsetSec) unit.ne'
      have nonneg : 0 ≤ config.loopUnitSec *
          ((now - config.firstStartTs - config.offsetSec) / config.loopUnitSec) :=
        mul_nonneg unit.le (Int.ediv_nonneg (by omega) unit.le)
      have loop := config.loop_pos
      rw [← fits_iff rfl, Config.Fits, ← Int.sub_sub]
      omega

theorem Rewarded.mono {began : Option ℤ} {rewards : List ℤ} {now later : ℤ}
    (rewarded : Rewarded config began rewards now) (order : now ≤ later)
    (quiet : ∀ cycle, now < config.stop cycle → later < config.stop cycle) :
    Rewarded config began rewards later := by
  refine ⟨rewarded.nodup, fun startTs => ?_⟩
  rw [rewarded.mem_iff]
  constructor
  · rintro ⟨first, known, cycle, same, after, before⟩
    exact ⟨first, known, cycle, same, after, before.trans order⟩
  · rintro ⟨first, known, cycle, same, after, before⟩
    exact ⟨first, known, cycle, same, after, not_lt.mp fun late => absurd (quiet cycle late) (by omega)⟩

theorem Rewarded.append {began : Option ℤ} {rewards : List ℤ} {now later : ℤ} {cycle : ℕ}
    (rewarded : Rewarded config began rewards now) (order : now ≤ later)
    (known : ∃ first ∈ began, first < config.stop cycle)
    (before : now < config.stop cycle) (stopped : config.stop cycle ≤ later)
    (only : ∀ other, now < config.stop other → config.stop other ≤ later → other = cycle) :
    Rewarded config began (rewards ++ [config.start cycle]) later := by
  have new : config.start cycle ∉ rewards := by
    rw [rewarded.mem_iff]
    rintro ⟨-, -, other, same, -, early⟩
    obtain rfl := Config.start_inj.mp same
    omega
  refine ⟨?_, fun startTs => ?_⟩
  · rw [List.nodup_append]
    refine ⟨rewarded.nodup, List.nodup_singleton _, ?_⟩
    rintro other mem _ last rfl
    rw [List.mem_singleton.mp last] at mem
    exact new mem
  · rw [List.mem_append, List.mem_singleton, rewarded.mem_iff]
    constructor
    · rintro (⟨first, known, other, same, after, early⟩ | rfl)
      · exact ⟨first, known, other, same, after, early.trans order⟩
      · obtain ⟨first, known, after⟩ := known
        exact ⟨first, known, cycle, rfl, after, stopped⟩
    · rintro ⟨first, known, other, same, after, early⟩
      rcases lt_or_ge now (config.stop other) with late | early_now
      · obtain rfl := only other late early
        exact .inr same
      · exact .inl ⟨first, known, other, same, after, early_now⟩

theorem resume_rewarded_iff {began : Option ℤ} {rewards : List ℤ} {cycle : ℕ}
    {seen now lastShutdownTs : ℤ} (rewarded : Rewarded config began rewards seen)
    (current : config.Current seen cycle) (order : seen ≤ now)
    (known : ∃ first ∈ began, first ≤ seen) :
    Rewarded config began (rewards ++
        if lastShutdownTs < config.stop cycle ∧ config.stop cycle ≤ now then
          [config.start cycle] else []) now ↔
      now < config.stop cycle + config.loopUnitSec ∧
        (config.stop cycle ≤ now →
          (lastShutdownTs < config.stop cycle ↔ seen < config.stop cycle)) := by
  obtain ⟨first, known, first_le⟩ := known
  have next := config.stop_succ cycle
  have others : ∀ other, seen < config.stop other → other ≠ cycle →
      config.stop (cycle + 1) ≤ config.stop other := by
    intro other late different
    rcases lt_or_gt_of_ne different with before | after
    · have := current.2 other before
      have := config.stop_lt_finish other
      omega
    · exact Config.stop_mono after
  have waits : seen < config.stop (cycle + 1) := by
    have := config.finish_lt_stop_succ cycle
    have := current.1
    omega
  have new : ∀ other, seen < config.stop other → config.start other ∉ rewards := by
    intro other late mem
    obtain ⟨-, -, same_cycle, same, -, early⟩ := (rewarded.mem_iff _).mp mem
    obtain rfl := Config.start_inj.mp same
    omega
  constructor
  · intro exactly
    refine ⟨not_le.mp fun finished => ?_, fun stopped => ⟨fun due => not_le.mp fun early => ?_, fun late => ?_⟩⟩
    · rw [← next] at finished
      have missing := (exactly.mem_iff (config.start (cycle + 1))).mpr
        ⟨first, known, cycle + 1, rfl, by omega, finished⟩
      rcases List.mem_append.mp missing with mem | mem
      · exact new _ waits mem
      · split at mem
        · exact absurd (Config.start_inj.mp (List.mem_singleton.mp mem)) (Nat.succ_ne_self _)
        · cases mem
    · have nodup := exactly.nodup
      have due_now : config.start cycle ∈ rewards ++ [config.start cycle] :=
        List.mem_append_right _ List.mem_cons_self
      have given := exactly.mem_iff (config.start cycle)
      rw [if_pos ⟨due, stopped⟩] at nodup given
      obtain ⟨_, same_first, other, same, after, -⟩ := given.mp due_now
      obtain rfl := Config.start_inj.mp same
      have twice := (rewarded.mem_iff (config.start cycle)).mpr
        ⟨_, same_first, cycle, rfl, after, early⟩
      exact (List.nodup_append.mp nodup).2.2 _ twice _ List.mem_cons_self rfl
    · have given := (exactly.mem_iff (config.start cycle)).mpr
        ⟨first, known, cycle, rfl, by omega, stopped⟩
      rcases List.mem_append.mp given with mem | mem
      · exact absurd mem (new cycle late)
      · split at mem
        · next due => exact due.1
        · cases mem
  · rintro ⟨before, both⟩
    split
    · next due =>
        have late := (both due.2).mp due.1
        refine rewarded.append order ⟨first, known, by omega⟩ late due.2 fun other after stopped => ?_
        by_contra different
        have := others other after different
        omega
    · next undue =>
        rw [List.append_nil]
        refine rewarded.mono order fun other after => not_le.mp fun stopped => ?_
        by_cases same : other = cycle
        · subst same
          exact undue ⟨(both stopped).mpr after, stopped⟩
        · have := others other after same
          omega

theorem seen_of_running {activity : Activity} (running : state.activity = some activity) :
    state.seen = state.now := by
  rw [State.seen, running]
  rfl

theorem seen_of_ended (ended : state.activity = none) : state.seen = state.ranUntil := by
  rw [State.seen, ended]
  rfl

theorem Inv.cycle {activity : Activity} (inv : Inv config state) (good : Good config state)
    (running : state.activity = some activity) : ∃ cycle, config.Current state.now cycle ∧
      activity = ⟨config.row (config.start cycle), some (config.phase state.now cycle),
        [config.next state.now cycle]⟩ := by
  obtain ⟨cycle, current, phase, timers⟩ := good.prescribed activity running
  obtain ⟨other, row, stored⟩ := inv.stored _ (inv.running activity running)
  rw [seen_of_running running] at stored
  obtain rfl := stored.unique current
  refine ⟨other, current, ?_⟩
  rw [← row, ← phase, ← timers]

theorem spec_of_running {activity : Activity} {row : Row} {cycle : ℕ}
    (running : state.activity = some activity) (stored : state.db = some row)
    (began : ∃ began, state.began = some began ∧ began ≤ state.now)
    (current : config.Current state.now cycle) (rows : row = config.row (config.start cycle))
    (same : activity = ⟨row, some (config.phase state.now cycle), [config.next state.now cycle]⟩)
    (rewarded : Rewarded config state.began state.rewards state.now) : Good config state ∧ Inv config state := by
  obtain ⟨first, known, first_le⟩ := began
  have seen := seen_of_running running
  refine ⟨⟨fun other mem => ?_, by rwa [seen]⟩, ⟨seen.le, fun other mem => ?_, ?_, fun other mem => ?_,
    fun other mem => ?_⟩⟩
  · cases running.symm.trans mem
    rw [same]
    exact ⟨cycle, current, rfl, rfl⟩
  · cases known.symm.trans mem
    rwa [seen]
  · rw [stored, known]
    rfl
  · cases stored.symm.trans mem
    rw [seen]
    exact ⟨cycle, rows, current⟩
  · cases running.symm.trans mem
    rw [same]
    exact stored

theorem fire_spec {cycle : ℕ} {due : ℤ} {transition : Transition}
    (current : config.Current state.now cycle) (order : state.now ≤ due)
    (next : config.next state.now cycle = (due, transition))
    (stored : state.db = some (config.row (config.start cycle)))
    (began : ∃ began, state.began = some began ∧ began ≤ state.now)
    (rewarded : Rewarded config state.began state.rewards state.now) :
    Good config ({ state with now := due }.fire config
        ⟨config.row (config.start cycle), some (config.phase state.now cycle), []⟩ transition) ∧
      Inv config ({ state with now := due }.fire config
        ⟨config.row (config.start cycle), some (config.phase state.now cycle), []⟩ transition) := by
  obtain ⟨first, known, first_le⟩ := began
  have starts := config.start_lt_stop cycle
  have stops := config.stop_lt_finish cycle
  have quiet : transition ≠ .toStopped → Rewarded config state.began state.rewards due := by
    intro other
    refine rewarded.mono order fun cycle after => not_le.mp fun stopped => other ?_
    have between := current.stop_between after (by rw [next]; exact stopped)
    exact (Prod.mk.inj (next.symm.trans between.2)).2
  have before : ∀ other < cycle, config.finish other ≤ due := fun other less =>
    (current.2 other less).trans order
  have cases := next
  unfold Config.next at cases
  split at cases
  · cases cases
    have now : config.Current (config.start cycle) cycle := ⟨by omega, before⟩
    refine spec_of_running rfl stored ⟨first, known, first_le.trans order⟩ now rfl ?_
      (quiet nofun)
    dsimp only [State.fire]
    rw [Config.phase, Config.next, if_neg (lt_irrefl _), if_pos starts, if_neg (lt_irrefl _),
      if_pos starts]
    rfl
  · split at cases
    · next late running =>
        cases cases
        have now : config.Current (config.stop cycle) cycle := ⟨stops, before⟩
        have given := rewarded.append order ⟨first, known, by omega⟩ running le_rfl
          fun other after stopped =>
            (current.stop_between after (by rw [next]; exact stopped)).1
        refine spec_of_running rfl stored ⟨first, known, first_le.trans order⟩ now rfl ?_ given
        dsimp only [State.fire]
        rw [Config.phase, Config.next, if_neg (by omega), if_neg (lt_irrefl _), if_neg (by omega),
          if_neg (lt_irrefl _)]
        rfl
    · cases cases
      have later := config.start_succ cycle
      have loop := config.loop_pos
      have ends := config.finish_lt_stop_succ cycle
      have finishes := config.stop_lt_finish (cycle + 1)
      have now : config.Current (config.finish cycle) (cycle + 1) :=
        Config.current_succ.mpr ⟨le_rfl, by omega⟩
      have row : config.row ((config.row (config.start cycle)).endTs + config.loopSec) =
          config.row (config.start (cycle + 1)) := by
        rw [later]
        rfl
      refine spec_of_running rfl rfl ⟨first, known, first_le.trans order⟩ now row ?_
        (quiet nofun)
      dsimp only [State.fire]
      rw [Config.phase, Config.next, if_pos (by omega), if_pos (by omega), later]
      rfl

theorem init_spec (inv : Inv config state) (good : Good config state)
    (ended : state.activity = none) :
    (Good config (state.init config) ↔ Permitted config state .start) ∧
      (Good config (state.init config) → Inv config (state.init config)) := by
  have seen := seen_of_ended ended
  have order := inv.seen_le
  have rewarded := good.rewarded
  rw [seen] at order rewarded
  -- What is stored fits exactly if the activity is as prescribed.
  have keep : ∀ {after : State} {startTs : ℤ}, after.now = state.now →
      after.activity = some (enter state.now (config.row startTs)) →
      after.db = some (config.row startTs) →
      (∃ first, after.began = some first ∧ first ≤ state.now) → Good config after →
        Inv config after := by
    intro after startTs now running stored began kept
    have prescribed := kept.prescribed _ running
    rw [now] at prescribed
    obtain ⟨cycle, rfl, current⟩ := enter_prescribed_iff.mp prescribed
    have rewarded := kept.rewarded
    rw [seen_of_running running] at rewarded
    rw [enter_start current.1] at running
    rw [← now] at running current began
    exact (spec_of_running running stored began current rfl rfl rewarded).2
  cases stored : state.db with
  | none =>
      have unknown : state.began = none := by
        have := inv.initialised
        rw [stored] at this
        exact Option.isNone_iff_eq_none.mp (by simpa using this)
      have unrewarded : state.rewards = [] := by
        refine List.eq_nil_iff_forall_not_mem.mpr fun startTs mem => ?_
        obtain ⟨first, known, -⟩ := (rewarded.mem_iff startTs).mp mem
        rw [unknown] at known
        cases known
      have first : Rewarded config (some state.now) [] state.now := by
        refine ⟨List.nodup_nil, fun startTs => iff_of_false List.not_mem_nil ?_⟩
        rintro ⟨first, known, cycle, -, after, before⟩
        cases known
        exact absurd after (not_lt.mpr before)
      have parts : state.init config = { state with
          activity := some (enter state.now (config.row (config.firstTs state.now)))
          db := some (config.row (config.firstTs state.now)), began := some state.now } := by
        rw [State.init, stored]
      rw [parts]
      refine ⟨?_, keep rfl rfl rfl ⟨_, rfl, le_rfl⟩⟩
      have fits : Permitted config state .start ↔ config.Early state.now := by
        simp [Permitted, stored]
      rw [fits, ← firstTs_iff, ← enter_prescribed_iff]
      constructor
      · exact fun kept => kept.prescribed _ rfl
      · intro prescribed
        refine ⟨fun activity mem => ?_, ?_⟩
        · cases mem
          exact prescribed
        · rw [unrewarded]
          exact first
  | some data =>
      obtain ⟨cycle, row, current⟩ := inv.stored data stored
      rw [seen] at current
      have known : ∃ first, state.began = some first ∧ first ≤ state.ranUntil := by
        have := inv.initialised
        rw [stored] at this
        obtain ⟨first, began⟩ := Option.isSome_iff_exists.mp (this.mp rfl)
        have first_le := inv.began_le first began
        rw [seen] at first_le
        exact ⟨first, began, first_le⟩
      subst row
      obtain ⟨cleared, parts⟩ : ∃ cleared, state.init config = { state with
          activity := some (enter state.now (config.row
            (config.nextTs state.now state.lastShutdownTs (config.row (config.start cycle)))))
          db := some (config.row
            (config.nextTs state.now state.lastShutdownTs (config.row (config.start cycle))))
          rewards := state.rewards ++
            if state.lastShutdownTs < config.stop cycle ∧ config.stop cycle ≤ state.now then
              [config.start cycle] else []
          cleared } := by
        rw [State.init, stored]
        exact ⟨_, rfl⟩
      rw [parts]
      obtain ⟨first, began, first_le⟩ := known
      refine ⟨?_, keep rfl rfl rfl ⟨first, began, first_le.trans order⟩⟩
      have aligned : config.nextTs state.now state.lastShutdownTs (config.row (config.start cycle)) =
          config.firstStartTs + config.offsetSec + config.loopUnitSec *
            (cycle + (state.now - state.lastShutdownTs) / config.loopUnitSec) := by
        rw [mul_add, ← add_assoc]
        rfl
      have fits := (fits_iff aligned).trans (@enter_prescribed_iff config state.now _).symm
      have resumes : Permitted config state .start ↔
          state.Resumes config (config.row (config.start cycle)) := by
        simp [Permitted, stored]
      rw [resumes]
      refine Iff.trans ?_ (and_congr fits Iff.rfl).symm
      have rewards := @resume_rewarded_iff _ _ _ _ _ _ state.lastShutdownTs rewarded current order
        ⟨first, began, first_le⟩
      constructor
      · exact fun kept => ⟨kept.prescribed _ rfl, rewards.mp kept.rewarded⟩
      · rintro ⟨prescribed, due⟩
        refine ⟨fun activity mem => ?_, rewards.mpr due⟩
        cases mem
        exact prescribed

theorem step_spec {op : Op} (inv : Inv config state) (good : Good config state)
    (taken : step config state op = some after) :
    (Good config after ↔ Permitted config state op) ∧ (Good config after → Inv config after) := by
  cases op with
  | start =>
      obtain ⟨ended, taken⟩ := Option.ite_none_right_eq_some.mp taken
      cases taken
      exact init_spec inv good ended
  | shutdown =>
      obtain ⟨running, taken⟩ := Option.ite_none_right_eq_some.mp taken
      cases taken
      obtain ⟨activity, running⟩ := Option.isSome_iff_exists.mp running
      have seen := seen_of_running running
      obtain ⟨seen_le, began_le, initialised, stored, -⟩ := inv
      have rewarded := good.rewarded
      rw [seen] at seen_le began_le stored rewarded
      exact ⟨iff_of_true ⟨nofun, rewarded⟩ trivial,
        fun _ => ⟨le_rfl, began_le, initialised, stored, nofun⟩⟩
  | crash =>
      obtain ⟨running, taken⟩ := Option.ite_none_right_eq_some.mp taken
      cases taken
      obtain ⟨activity, running⟩ := Option.isSome_iff_exists.mp running
      have seen := seen_of_running running
      obtain ⟨seen_le, began_le, initialised, stored, -⟩ := inv
      have rewarded := good.rewarded
      rw [seen] at seen_le began_le stored rewarded
      exact ⟨iff_of_true ⟨nofun, rewarded⟩ trivial,
        fun _ => ⟨le_rfl, began_le, initialised, stored, nofun⟩⟩
  | timer due transition =>
      simp only [step] at taken
      split at taken
      · cases taken
      · next activity running =>
          obtain ⟨⟨mem, order, -⟩, taken⟩ := Option.ite_none_right_eq_some.mp taken
          cases taken
          obtain ⟨cycle, current, rfl⟩ := inv.cycle good running
          have next := List.mem_singleton.mp mem
          have stored := inv.running _ running
          have rewarded := good.rewarded
          rw [seen_of_running running] at rewarded
          have known : ∃ first, state.began = some first ∧ first ≤ state.now := by
            have := inv.initialised
            rw [stored] at this
            obtain ⟨first, began⟩ := Option.isSome_iff_exists.mp (this.mp rfl)
            have first_le := inv.began_le first began
            rw [seen_of_running running] at first_le
            exact ⟨first, began, first_le⟩
          have fired := fire_spec current order next.symm stored known rewarded
          rw [next, List.erase_cons_head]
          exact ⟨iff_of_true fired.1 trivial, fun _ => fired.2⟩
  | tick passed =>
      obtain ⟨before, taken⟩ := Option.ite_none_right_eq_some.mp taken
      cases taken
      have order : state.now ≤ state.now + passed := by omega
      rcases Option.eq_none_or_eq_some state.activity with running | ⟨activity, running⟩
      · have seen := seen_of_ended running
        obtain ⟨seen_le, began_le, initialised, stored, -⟩ := inv
        have rewarded := good.rewarded
        rw [seen] at seen_le began_le stored rewarded
        have same : State.seen { state with now := state.now + passed } = state.ranUntil :=
          seen_of_ended running
        refine ⟨iff_of_true ⟨fun activity mem => ?_, ?_⟩ trivial,
          fun _ => ⟨?_, ?_, initialised, ?_, fun activity mem => ?_⟩⟩
        · cases running.symm.trans mem
        · rwa [same]
        · rw [same]
          exact seen_le.trans order
        · rwa [same]
        · rwa [same]
        · cases running.symm.trans mem
      · obtain ⟨cycle, current, rfl⟩ := inv.cycle good running
        have stored := inv.running _ running
        have early := before _ running _ List.mem_cons_self
        obtain ⟨later, phase, next⟩ := current.mono order early
        have rewarded := good.rewarded
        rw [seen_of_running running] at rewarded
        have known : ∃ first, state.began = some first ∧ first ≤ state.now + passed := by
          have := inv.initialised
          rw [stored] at this
          obtain ⟨first, began⟩ := Option.isSome_iff_exists.mp (this.mp rfl)
          have first_le := inv.began_le first began
          rw [seen_of_running running] at first_le
          exact ⟨first, began, first_le.trans order⟩
        have quiet := rewarded.mono order fun other after => not_le.mp fun stopped => by
          have between := current.stop_between after (stopped.trans early.le)
          rw [between.2] at early
          obtain rfl := between.1
          omega
        have both := @spec_of_running config { state with now := state.now + passed } _ _ cycle
          running stored known later rfl (by rw [phase, next]) quiet
        exact ⟨iff_of_true both.1 trivial, fun _ => both.2⟩

theorem initial_good (now lastShutdownTs : ℤ) : Good config (initial now lastShutdownTs) := by
  refine ⟨nofun, List.nodup_nil, fun startTs => iff_of_false List.not_mem_nil ?_⟩
  rintro ⟨first, known, -⟩
  cases known

theorem initial_inv (now lastShutdownTs : ℤ) : Inv config (initial now lastShutdownTs) :=
  ⟨le_rfl, nofun, Iff.rfl, nofun, nofun⟩

/-- An activity that is started for two days, stopped for one, and waits for one. -/
def fourDays : Config where
  firstStartTs := 0
  offsetSec := 0
  durationSec := 172800
  reserveSec := 86400
  loopSec := 86400
  duration_pos := by decide
  reserve_pos := by decide
  loop_pos := by decide

/-- The server is shut down and crashes, and is started again in the same cycle. -/
def restartingRun : List Op :=
  [.start, .shutdown, .tick 200000, .start, .timer 259200 .toNostart, .timer 345600 .toStarted,
    .tick 10, .crash, .tick 10, .start, .timer 518400 .toStopped]

end UEServer.RushActivity
