import UEServer.Traitor.Boss

/-!
# The life cycle of the traitor boss

The record in the manager, the saved record and the timers agree in every execution whose openings
find no revival left over, and whose restarts find the opening, and the hit points of a living
boss, saved.
-/

namespace UEServer.TraitorBoss

/-- The boss is alive and no revival is noted, or it is dead and one is. -/
def BossData.Phase (data : BossData) : Prop :=
  (0 < data.hp ∧ data.reviveTs = none) ∨ (data.hp ≤ 0 ∧ data.reviveTs ≠ none)

def State.revivals (state : State) : List Timer :=
  state.timers.filter fun timer => timer.kind = .revival

/-- The openings whose rewards have been sent, or are sent by a `close` that waits. -/
def State.sent (state : State) : List Nat :=
  state.rewarded ++ state.waiting.map Closing.opening

/-- The opening has come, and is not the one that is still open. -/
def State.Ended (state : State) (opening : Nat) : Prop :=
  1 ≤ opening ∧ opening ≤ state.openings ∧ (opening = state.openings → state.data.isOpen = false)

instance (state : State) (opening : Nat) : Decidable (state.Ended opening) :=
  inferInstanceAs (Decidable (_ ∧ _))

/-- What the life cycle promises in one state. -/
structure Sound (cfg : Config) (state : State) : Prop where
  /-- While the activity is open, the boss is alive without a revival, or dead with exactly one. -/
  phase : state.data.isOpen = true →
    (0 < state.data.hp ∧ state.data.reviveTs = none) ∨
      (state.data.hp ≤ 0 ∧ state.data.reviveTs ≠ none ∧ state.revivals.length = 1)
  restarts : ∀ restart ∈ state.restarts, restart.1 = restart.2
  level : cfg.isLevel state.data.bossLevel = true
  /-- The rewards of every opening that has ended are sent once, and no others. -/
  rewards : ∀ opening, state.sent.count opening = if state.Ended opening then 1 else 0

/-- What a step must find. An opening finds no revival noted. A restart finds no `close` waiting,
and in the database whether the activity is open and the hit points of a living boss; if the start
opens the activity, it finds no revival noted there. -/
def Settled (cfg : Config) (state : State) : Label → Prop
  | .fire timer _ => timer.kind = .opening → state.data.reviveTs = none
  | .restart now =>
      state.waiting = [] ∧ state.stored.isOpen = state.data.isOpen ∧
        (state.Living → state.stored.hpDict = state.data.hpDict) ∧
        (state.data.isOpen = false →
          cfg.openDay now = true → cfg.startTime now ≤ now → now < cfg.closeTime now →
          state.stored.reviveTs = none)
  | _ => True

instance (cfg : Config) (state : State) : (label : Label) → Decidable (Settled cfg state label)
  | .fire timer _ => inferInstanceAs (Decidable (timer.kind = .opening → state.data.reviveTs = none))
  | .restart now => inferInstanceAs (Decidable (state.waiting = [] ∧
      state.stored.isOpen = state.data.isOpen ∧
        (state.Living → state.stored.hpDict = state.data.hpDict) ∧
        (state.data.isOpen = false →
          cfg.openDay now = true → cfg.startTime now ≤ now → now < cfg.closeTime now →
          state.stored.reviveTs = none)))
  | .dailyRefresh _ => inferInstanceAs (Decidable True)
  | .hurt _ _ _ _ => inferInstanceAs (Decidable True)
  | .answer _ => inferInstanceAs (Decidable True)
  | .save => inferInstanceAs (Decidable True)

/-- A timer that opens or closes the activity. -/
def Timer.OfState (timer : Timer) : Prop :=
  timer.kind = .opening ∨ timer.kind = .closing

/-- The variables hold the timers that are set. -/
structure Held (state : State) : Prop where
  fresh : ∀ timer ∈ state.timers, timer.guid ≤ state.guid
  nodup : (state.timers.map Timer.guid).Nodup
  /-- `state_timer` holds the timer that opens or closes. -/
  stateTimer : ∀ timer ∈ state.timers, timer.OfState → state.stateTimer = some timer.guid
  /-- `revive_timer` holds the revival. -/
  reviveTimer : ∀ timer ∈ state.timers, timer.kind = .revival →
    state.reviveTimer = some timer.guid

section
variable {state : State}

variable {timer other : Timer}

section
variable (held : Held state) (member : timer ∈ state.timers) (member' : other ∈ state.timers)
include held member member'

theorem Held.eq_of_guid (same : timer.guid = other.guid) : timer = other :=
  List.inj_on_of_nodup_map held.nodup member member' same

theorem Held.state_unique (kind : timer.OfState) (kind' : other.OfState) : timer = other :=
  held.eq_of_guid member member' (Option.some.inj
    ((held.stateTimer timer member kind).symm.trans (held.stateTimer other member' kind')))

theorem Held.revival_unique (kind : timer.kind = .revival) (kind' : other.kind = .revival) :
    timer = other :=
  held.eq_of_guid member member' (Option.some.inj
    ((held.reviveTimer timer member kind).symm.trans (held.reviveTimer other member' kind')))

end

theorem mem_startTimer {kind : TimerKind} {due : Int} {timer : Timer} :
    timer ∈ (state.startTimer kind due).timers ↔
      timer ∈ state.timers ∨ timer = { guid := state.guid + 1, due := due, kind := kind } := by
  cases kind <;> simp [State.startTimer]

theorem Held.startTimer (held : Held state) {kind : TimerKind} {due : Int}
    (free : ∀ timer ∈ state.timers,
      (kind = .opening ∨ kind = .closing → ¬ timer.OfState) ∧
        (kind = .revival → timer.kind ≠ .revival)) :
    Held (state.startTimer kind due) := by
  obtain ⟨fresh, nodup, stateTimer, reviveTimer⟩ := held
  have new : ∀ timer ∈ state.timers, timer.guid ≠ state.guid + 1 := by
    intro timer member same
    have old := fresh timer member
    omega
  constructor
  case nodup =>
    have names : (state.startTimer kind due).timers.map Timer.guid =
        state.timers.map Timer.guid ++ [state.guid + 1] := by
      cases kind <;> simp [State.startTimer]
    rw [names]
    simp only [List.nodup_append, List.nodup_singleton, List.mem_map, List.mem_singleton]
    grind
  all_goals
    intro timer member
    rw [mem_startTimer] at member
    cases kind <;> simp only [State.startTimer, Timer.OfState] at * <;> grind

theorem held_cancelled (held : Held state) (guid : Option Nat) :
    Held { state with timers := State.cancelled state.timers guid } := by
  obtain ⟨fresh, nodup, stateTimer, reviveTimer⟩ := held
  have sub : ∀ timer ∈ State.cancelled state.timers guid, timer ∈ state.timers :=
    fun timer member => List.mem_of_mem_filter member
  exact ⟨fun timer member => fresh timer (sub timer member),
    nodup.sublist (List.filter_sublist.map _),
    fun timer member => stateTimer timer (sub timer member),
    fun timer member => reviveTimer timer (sub timer member)⟩

theorem held_erase (held : Held state) (timer : Timer) :
    Held { state with timers := state.timers.erase timer } := by
  obtain ⟨fresh, nodup, stateTimer, reviveTimer⟩ := held
  have sub : ∀ other ∈ state.timers.erase timer, other ∈ state.timers :=
    fun other member => List.mem_of_mem_erase member
  exact ⟨fun other member => fresh other (sub other member),
    nodup.sublist (List.erase_sublist.map _),
    fun other member => stateTimer other (sub other member),
    fun other member => reviveTimer other (sub other member)⟩

theorem Held.mem_erase (held : Held state) :
    other ∈ state.timers.erase timer ↔ other ≠ timer ∧ other ∈ state.timers :=
  held.nodup.of_map.mem_erase_iff

end

/-- The record, the saved record, the timers and the rewards agree. -/
structure Inv (cfg : Config) (state : State) : Prop where
  held : Held state
  /-- While the activity is open, a revival is noted exactly for a dead boss. -/
  phase : state.data.isOpen = true → state.data.Phase
  storedPhase : state.stored.isOpen = true → state.stored.Phase
  level : cfg.isLevel state.data.bossLevel = true
  storedLevel : cfg.isLevel state.stored.bossLevel = true
  opening : ∀ timer ∈ state.timers, timer.kind = .opening → state.data.isOpen = false
  closing : ∀ timer ∈ state.timers, timer.kind = .closing → state.data.isOpen = true
  closes : state.data.isOpen = true → ∃ timer ∈ state.timers, timer.kind = .closing
  revival : ∀ timer ∈ state.timers, timer.kind = .revival →
    state.data.isOpen = true ∧ state.data.reviveTs ≠ none
  revives : state.data.isOpen = true → state.data.reviveTs ≠ none →
    ∃ timer ∈ state.timers, timer.kind = .revival
  /-- A start that waits before it sets the timer of the opening finds none set. -/
  starting : ∀ closing ∈ state.waiting, closing.nextOpen ≠ none →
    closing.inStart = true ∧ state.waiting = [closing] ∧ state.data.isOpen = false ∧
      ∀ timer ∈ state.timers, ¬ timer.OfState
  rewards : ∀ opening, state.sent.count opening = if state.Ended opening then 1 else 0
  begun : state.data.isOpen = true → 1 ≤ state.openings
  restarts : ∀ restart ∈ state.restarts, restart.1 = restart.2

theorem initial_inv (cfg : Config) : Inv cfg initial where
  held := ⟨by simp [initial], by simp [initial], by simp [initial], by simp [initial]⟩
  phase := by simp [initial]
  storedPhase := by simp [initial]
  level := cfg.level_one
  storedLevel := cfg.level_one
  opening := by simp [initial]
  closing := by simp [initial]
  closes := by simp [initial]
  revival := by simp [initial]
  revives := by simp [initial]
  starting := by simp [initial]
  rewards opening := by
    have none_ended : ¬ initial.Ended opening := by
      simp only [State.Ended, initial]
      omega
    rw [if_neg none_ended]
    rfl
  begun := by simp [initial]
  restarts := by simp [initial]

section
variable {cfg : Config} {state : State}

theorem Inv.sound (inv : Inv cfg state) : Sound cfg state where
  phase isOpen := by
    rcases inv.phase isOpen with alive | ⟨dead, noted⟩
    · exact .inl alive
    · refine .inr ⟨dead, noted, ?_⟩
      obtain ⟨timer, member, kind⟩ := inv.revives isOpen noted
      have only : ∀ other ∈ state.revivals, other = timer := by
        intro other member'
        obtain ⟨member', kind'⟩ := List.mem_filter.mp member'
        exact inv.held.revival_unique member' member (by simpa using kind') kind
      have present : timer ∈ state.revivals := List.mem_filter.mpr ⟨member, by simpa using kind⟩
      have distinct : state.revivals.Nodup := inv.held.nodup.of_map.filter _
      rw [List.eq_replicate_of_mem only, List.nodup_replicate] at distinct
      have positive := List.length_pos_of_mem present
      omega
  restarts := inv.restarts
  level := inv.level
  rewards := inv.rewards

theorem opened_level (cfg : Config) {data : BossData} (level : cfg.isLevel data.bossLevel = true) :
    cfg.isLevel (data.opened cfg).bossLevel = true := by
  have lower := cfg.levelParam_nonneg
  simp only [BossData.opened]
  split
  · exact cfg.level_one
  · exact cfg.level_below level (by omega) (by omega)

/-- The timers of the closing and of the recovery are set for an open activity that has none. -/
theorem setClosing_inv {due next : Int} (held : Held state) (opened : state.data.isOpen = true)
    (phase : state.data.Phase) (storedPhase : state.stored.isOpen = true → state.stored.Phase)
    (level : cfg.isLevel state.data.bossLevel = true)
    (storedLevel : cfg.isLevel state.stored.bossLevel = true)
    (idle : ∀ timer ∈ state.timers, ¬ timer.OfState)
    (revival : ∀ timer ∈ state.timers, timer.kind = .revival → state.data.reviveTs ≠ none)
    (revives : state.data.reviveTs ≠ none → ∃ timer ∈ state.timers, timer.kind = .revival)
    (started : ∀ closing ∈ state.waiting, closing.nextOpen = none)
    (rewards : ∀ opening, state.sent.count opening = if state.Ended opening then 1 else 0)
    (begun : 1 ≤ state.openings) (restarts : ∀ restart ∈ state.restarts, restart.1 = restart.2) :
    Inv cfg ((state.startTimer .closing due).startTimer .recovery next) := by
  have members : ∀ {timer : Timer},
      timer ∈ ((state.startTimer .closing due).startTimer .recovery next).timers →
        timer ∈ state.timers ∨ timer.kind = .closing ∨ timer.kind = .recovery := by
    intro timer member
    simp only [mem_startTimer] at member
    rcases member with (old | rfl) | rfl
    · exact .inl old
    · exact .inr (.inl rfl)
    · exact .inr (.inr rfl)
  constructor
  case held =>
    refine (held.startTimer fun timer member => ?_).startTimer fun timer member => ?_
    · simp [idle timer member]
    · simp
  case phase => exact fun _ => phase
  case storedPhase => exact storedPhase
  case level => exact level
  case storedLevel => exact storedLevel
  case opening =>
    intro timer member kind
    rcases members member with old | closing | recovery
    · exact absurd (.inl kind) (idle timer old)
    · simp [kind] at closing
    · simp [kind] at recovery
  case closing => exact fun _ _ _ => opened
  case closes =>
    exact fun _ => ⟨_, mem_startTimer.mpr (.inl (mem_startTimer.mpr (.inr rfl))), rfl⟩
  case revival =>
    intro timer member kind
    rcases members member with old | closing | recovery
    · exact ⟨opened, revival timer old kind⟩
    · simp [kind] at closing
    · simp [kind] at recovery
  case revives =>
    intro _ noted
    obtain ⟨timer, member, kind⟩ := revives noted
    exact ⟨timer, mem_startTimer.mpr (.inl (mem_startTimer.mpr (.inl member))), kind⟩
  case starting => exact fun closing member next => absurd (started closing member) next
  case rewards => exact rewards
  case begun => exact fun _ => begun
  case restarts => exact restarts

variable {now : Int}

/-- An opening that finds the activity closed, nothing set and no revival noted. -/
theorem openBoss_inv (held : Held state) (isClosed : state.data.isOpen = false)
    (idle : ∀ timer ∈ state.timers, ¬ timer.OfState ∧ timer.kind ≠ .revival)
    (unnoted : state.data.reviveTs = none) (level : cfg.isLevel state.data.bossLevel = true)
    (storedPhase : state.stored.isOpen = true → state.stored.Phase)
    (storedLevel : cfg.isLevel state.stored.bossLevel = true)
    (started : ∀ closing ∈ state.waiting, closing.nextOpen = none)
    (rewards : ∀ opening, state.sent.count opening = if state.Ended opening then 1 else 0)
    (restarts : ∀ restart ∈ state.restarts, restart.1 = restart.2) :
    Inv cfg (state.openBoss cfg now) := by
  have opened := opened_level cfg level
  have saved : Held ({ state with openings := state.openings + 1 }.save
      (state.data.opened cfg)) :=
    { held with }
  refine setClosing_inv saved rfl (.inl ⟨cfg.boss_alive opened, unnoted⟩) storedPhase opened
    storedLevel (fun timer member => (idle timer member).1)
    (fun timer member kind => absurd kind (idle timer member).2)
    (fun noted => absurd unnoted noted) started (fun opening => ?_) (Nat.le_add_left 1 _) restarts
  have ended : (State.save { state with openings := state.openings + 1 }
      (state.data.opened cfg)).Ended opening ↔ state.Ended opening := by
    simp only [State.Ended, State.save, BossData.opened, isClosed]
    grind
  rw [if_congr ended rfl rfl]
  exact rewards opening

/-- A closing that finds the activity open, no timer of its own, and no other start waiting. -/
theorem closeBoss_inv {inStart : Bool} {nextOpen : Option Int} (held : Held state)
    (isOpen : state.data.isOpen = true) (idle : ∀ timer ∈ state.timers, ¬ timer.OfState)
    (level : cfg.isLevel state.data.bossLevel = true)
    (storedPhase : state.stored.isOpen = true → state.stored.Phase)
    (storedLevel : cfg.isLevel state.stored.bossLevel = true)
    (started : ∀ closing ∈ state.waiting, closing.nextOpen = none)
    (alone : nextOpen ≠ none → inStart = true ∧ state.waiting = [])
    (rewards : ∀ opening, state.sent.count opening = if state.Ended opening then 1 else 0)
    (begun : 1 ≤ state.openings)
    (restarts : ∀ restart ∈ state.restarts, restart.1 = restart.2) :
    Inv cfg (state.closeBoss inStart nextOpen) := by
  have members : ∀ {timer : Timer}, timer ∈ (state.closeBoss inStart nextOpen).timers →
      timer ∈ state.timers ∧ timer.kind ≠ .revival := by
    intro timer member
    obtain ⟨member, -⟩ := List.mem_filter.mp member
    obtain ⟨member, kept⟩ := List.mem_filter.mp member
    refine ⟨member, fun kind => ?_⟩
    simp [held.reviveTimer timer member kind] at kept
  have isNowClosed : (state.closeBoss inStart nextOpen).data.isOpen = false := rfl
  constructor
  case held =>
    have cancelled := held_cancelled (held_cancelled held state.reviveTimer)
      state.challengeNumTimer
    refine { cancelled with reviveTimer := fun timer member kind => ?_ }
    exact absurd kind (members member).2
  case phase => exact fun reopened => absurd reopened (by simp [isNowClosed])
  case storedPhase => exact storedPhase
  case level => exact level
  case storedLevel => exact storedLevel
  case opening => exact fun _ _ _ => rfl
  case closing => exact fun timer member kind => absurd (.inr kind) (idle timer (members member).1)
  case closes => exact fun reopened => absurd reopened (by simp [isNowClosed])
  case revival => exact fun timer member kind => absurd kind (members member).2
  case revives => exact fun reopened => absurd reopened (by simp [isNowClosed])
  case starting =>
    intro closing member next
    rcases List.mem_append.mp member with old | new
    · exact absurd (started closing old) next
    · cases List.mem_singleton.mp new
      obtain ⟨inStart, nobody⟩ := alone next
      refine ⟨inStart, by simp [State.closeBoss, nobody], rfl, fun timer member' => ?_⟩
      exact idle timer (members member').1
  case rewards =>
    intro opening
    have before := rewards opening
    have count : (state.closeBoss inStart nextOpen).sent.count opening =
        state.sent.count opening + if state.openings = opening then 1 else 0 := by
      simp [State.sent, State.closeBoss, State.save, List.count_cons, Nat.add_assoc]
    rw [count, before]
    simp only [State.Ended, isOpen, isNowClosed]
    simp only [State.closeBoss, State.save]
    grind
  case begun => exact fun reopened => absurd reopened (by simp [isNowClosed])
  case restarts => exact restarts

variable {timer : Timer}

theorem Held.erase_state (held : Held state) (member : timer ∈ state.timers)
    (kind : timer.OfState) : ∀ other ∈ state.timers.erase timer, ¬ other.OfState := by
  intro other member' kind'
  obtain ⟨different, member'⟩ := held.mem_erase.mp member'
  exact different (held.state_unique member' member kind' kind)

theorem Held.erase_revival (held : Held state) (member : timer ∈ state.timers)
    (kind : timer.kind = .revival) : ∀ other ∈ state.timers.erase timer, other.kind ≠ .revival := by
  intro other member' kind'
  obtain ⟨different, member'⟩ := held.mem_erase.mp member'
  exact different (held.revival_unique member' member kind' kind)

section
variable (inv : Inv cfg state) (member : timer ∈ state.timers)
include inv member

theorem Inv.started (kind : timer.OfState) :
    ∀ closing ∈ state.waiting, closing.nextOpen = none := by
  intro closing member'
  by_contra next
  exact (inv.starting closing member' next).2.2.2 timer member kind

theorem fire_opening_inv (kind : timer.kind = .opening) (unnoted : state.data.reviveTs = none) :
    Inv cfg (state.fire cfg timer now) := by
  have closed := inv.opening timer member kind
  have held := held_erase inv.held timer
  have noState := inv.held.erase_state member (.inl kind)
  have noRevival : ∀ other ∈ state.timers.erase timer, other.kind ≠ .revival := by
    intro other member' kind'
    have opened := (inv.revival other (inv.held.mem_erase.mp member').2 kind').1
    simp [closed] at opened
  simp only [State.fire, State.callback, kind, reduceCtorEq, if_false]
  refine openBoss_inv { held with stateTimer := ?_ } closed
    (fun other member' => ⟨noState other member', noRevival other member'⟩) unnoted inv.level
    inv.storedPhase inv.storedLevel (inv.started member (.inl kind)) inv.rewards inv.restarts
  exact fun other member' kind' => absurd kind' (noState other member')

theorem fire_closing_inv (kind : timer.kind = .closing) : Inv cfg (state.fire cfg timer now) := by
  have opened := inv.closing timer member kind
  have held := held_erase inv.held timer
  have noState := inv.held.erase_state member (.inr kind)
  simp only [State.fire, State.callback, kind, reduceCtorEq, if_false]
  refine closeBoss_inv { held with stateTimer := ?_ } opened noState inv.level
    inv.storedPhase inv.storedLevel (inv.started member (.inr kind)) (by simp) inv.rewards
    (inv.begun opened) inv.restarts
  exact fun other member' kind' => absurd kind' (noState other member')

theorem fire_revival_inv (kind : timer.kind = .revival) : Inv cfg (state.fire cfg timer now) := by
  obtain ⟨opened, noted⟩ := inv.revival timer member kind
  have held := held_erase inv.held timer
  have noRevival := inv.held.erase_revival member kind
  have old : ∀ other ∈ state.timers.erase timer, other ∈ state.timers :=
    fun other member' => (inv.held.mem_erase.mp member').2
  simp only [State.fire, State.callback, kind, reduceCtorEq, if_false]
  constructor
  case held =>
    refine { held with reviveTimer := fun other member' kind' => ?_ }
    exact absurd kind' (noRevival other member')
  case phase => exact fun _ => .inl ⟨cfg.boss_alive inv.level, rfl⟩
  case storedPhase => exact inv.storedPhase
  case level => exact inv.level
  case storedLevel => exact inv.storedLevel
  case opening => exact fun other member' => inv.opening other (old other member')
  case closing => exact fun other member' => inv.closing other (old other member')
  case closes =>
    intro _
    obtain ⟨other, member', kind'⟩ := inv.closes opened
    exact ⟨other, inv.held.mem_erase.mpr ⟨by rintro rfl; simp [kind] at kind', member'⟩, kind'⟩
  case revival => exact fun other member' kind' => absurd kind' (noRevival other member')
  case revives => exact fun _ noted' => absurd rfl noted'
  case starting =>
    intro closing member' next
    have closed := (inv.starting closing member' next).2.2.1
    simp [closed] at opened
  case rewards => exact inv.rewards
  case begun => exact inv.begun
  case restarts => exact inv.restarts

theorem fire_recovery_inv (kind : timer.kind = .recovery) : Inv cfg (state.fire cfg timer now) := by
  have held := held_erase inv.held timer
  simp only [State.fire, State.callback, kind, if_true]
  have old : ∀ other ∈ state.timers.erase timer ++
      [{ timer with due := timer.due + cfg.challengeRecoverTime, kind := .recovery }],
      other.kind ≠ .recovery → other ∈ state.timers := by
    intro other member' different
    rcases List.mem_append.mp member' with rest | new
    · exact (inv.held.mem_erase.mp rest).2
    · cases List.mem_singleton.mp new
      exact absurd rfl different
  have kept : ∀ other ∈ state.timers, other.kind ≠ .recovery →
      other ∈ state.timers.erase timer ++
        [{ timer with due := timer.due + cfg.challengeRecoverTime, kind := .recovery }] := by
    intro other member' different
    refine List.mem_append_left _ (inv.held.mem_erase.mpr ⟨?_, member'⟩)
    rintro rfl
    exact different kind
  have state_kind : ∀ other : Timer, other.OfState → other.kind ≠ .recovery := by
    rintro other (kind' | kind') <;> simp [kind']
  constructor
  case held =>
    constructor
    case fresh =>
      intro other member'
      rcases List.mem_append.mp member' with rest | new
      · exact held.fresh other rest
      · cases List.mem_singleton.mp new
        exact inv.held.fresh timer member
    case nodup =>
      have names := inv.held.nodup
      rw [((List.perm_cons_erase member).map Timer.guid).nodup_iff] at names
      simp only [State.save, List.map_append, List.map_cons, List.map_nil]
      exact (List.perm_append_singleton _ _).nodup_iff.mpr names
    case stateTimer =>
      exact fun other member' kind' =>
        inv.held.stateTimer other (old other member' (state_kind other kind')) kind'
    case reviveTimer =>
      exact fun other member' kind' =>
        inv.held.reviveTimer other (old other member' (by simp [kind'])) kind'
  case phase => exact inv.phase
  case storedPhase => exact inv.storedPhase
  case level => exact inv.level
  case storedLevel => exact inv.storedLevel
  case opening =>
    exact fun other member' kind' =>
      inv.opening other (old other member' (by simp [kind'])) kind'
  case closing =>
    exact fun other member' kind' =>
      inv.closing other (old other member' (by simp [kind'])) kind'
  case closes =>
    intro opened
    obtain ⟨other, member', kind'⟩ := inv.closes opened
    exact ⟨other, kept other member' (by simp [kind']), kind'⟩
  case revival =>
    exact fun other member' kind' =>
      inv.revival other (old other member' (by simp [kind'])) kind'
  case revives =>
    intro opened noted
    obtain ⟨other, member', kind'⟩ := inv.revives opened noted
    exact ⟨other, kept other member' (by simp [kind']), kind'⟩
  case starting =>
    intro closing member' next
    obtain ⟨inStart, alone, closed, idle⟩ := inv.starting closing member' next
    exact ⟨inStart, alone, closed, fun other member' kind' =>
      idle other (old other member' (state_kind other kind')) kind'⟩
  case rewards => exact inv.rewards
  case begun => exact inv.begun
  case restarts => exact inv.restarts

end

section
variable (inv : Inv cfg state)
include inv

/-- The timer of the opening is set for a closed activity that has none. -/
theorem setOpening_inv {due : Int} (closed : state.data.isOpen = false)
    (idle : ∀ timer ∈ state.timers, ¬ timer.OfState)
    (started : ∀ closing ∈ state.waiting, closing.nextOpen = none) :
    Inv cfg (state.startTimer .opening due) := by
  have old : ∀ {timer : Timer}, timer ∈ (state.startTimer .opening due).timers →
      timer.kind ≠ .opening → timer ∈ state.timers := by
    intro timer member different
    rcases mem_startTimer.mp member with old | rfl
    · exact old
    · exact absurd rfl different
  refine ⟨inv.held.startTimer fun timer member => ⟨fun _ => idle timer member, by simp⟩, inv.phase,
    inv.storedPhase, inv.level, inv.storedLevel, fun _ _ _ => closed,
    fun timer member kind => inv.closing timer (old member (by simp [kind])) kind,
    fun opened => absurd (opened.symm.trans closed) (by simp),
    fun timer member kind => inv.revival timer (old member (by simp [kind])) kind,
    fun opened => absurd (opened.symm.trans closed) (by simp),
    fun closing member next => absurd (started closing member) next, inv.rewards, inv.begun,
    inv.restarts⟩

theorem dailyRefresh_inv (begun : ∀ closing ∈ state.waiting, closing.inStart = false) :
    Inv cfg (state.dailyRefresh cfg now) := by
  unfold State.dailyRefresh
  split
  · rename_i due
    have idle : ∀ timer ∈ state.timers, ¬ timer.OfState := by
      intro timer member kind
      simp [inv.held.stateTimer timer member kind] at due
    have closed : state.data.isOpen = false := by
      by_contra opened
      obtain ⟨timer, member, kind⟩ := inv.closes (by simpa using opened)
      exact idle timer member (.inr kind)
    refine setOpening_inv inv closed idle fun closing member => ?_
    by_contra next
    have inStart := (inv.starting closing member next).1
    simp [begun closing member] at inStart
  · exact inv

theorem answer_inv {closing : Closing} (member : closing ∈ state.waiting) :
    Inv cfg (state.giveRankReward closing) := by
  have given : Inv cfg { state with
      waiting := state.waiting.erase closing
      rewarded := state.rewarded ++ [closing.opening] } := by
    refine { inv with
      held := { inv.held with }
      starting := fun other member' next => ?_
      rewards := fun opening => ?_ }
    · obtain ⟨inStart, alone, rest⟩ := inv.starting other (List.mem_of_mem_erase member') next
      have same : closing = other := by simpa [alone] using member
      simp [alone, same] at member'
    · have order : (State.sent { state with
          waiting := state.waiting.erase closing
          rewarded := state.rewarded ++ [closing.opening] }).Perm state.sent := by
        have first := (List.perm_cons_erase member).map Closing.opening
        simp only [State.sent, List.append_assoc]
        exact (first.symm).append_left _
      rw [order.count_eq]
      exact inv.rewards opening
  unfold State.giveRankReward
  match next : closing.nextOpen with
  | none => exact given
  | some due =>
      obtain ⟨-, alone, closed, idle⟩ := inv.starting closing member (by simp [next])
      exact setOpening_inv given closed idle (by simp [alone])

omit inv in
theorem death_level (cfg : Config) (data : BossData) (level : cfg.isLevel data.bossLevel = true)
    (roleName : String) (reviveTs : Int) :
    cfg.isLevel (data.died cfg roleName reviveTs).bossLevel = true := by
  simp only [BossData.died]
  split
  · assumption
  · exact level

theorem hurt_inv {hpDict : List (Nat × Int)} {roleName : String} {now delay : Int}
    (living : state.Living) : Inv cfg (state.onHurt cfg hpDict roleName now delay) := by
  obtain ⟨opened, alive⟩ := living
  have unnoted : state.data.reviveTs = none := by
    rcases inv.phase opened with ⟨-, unnoted⟩ | ⟨dead, -⟩
    · exact unnoted
    · omega
  have noRevival : ∀ timer ∈ state.timers, timer.kind ≠ .revival :=
    fun timer member kind => (inv.revival timer member kind).2 unnoted
  have started : ∀ closing ∈ state.waiting, closing.nextOpen = none := by
    intro closing member
    by_contra next
    simp [(inv.starting closing member next).2.2.1] at opened
  unfold State.onHurt
  split
  · have old : ∀ {timer : Timer},
        timer ∈ (State.death cfg { state with data := { state.data with hpDict := hpDict } }
          roleName now delay).timers → timer.kind ≠ .revival → timer ∈ state.timers := by
      intro timer member different
      rcases mem_startTimer.mp member with old | rfl
      · exact old
      · exact absurd rfl different
    constructor
    case held =>
      have saved : Held (State.save { state with data := { state.data with hpDict := hpDict } }
          (BossData.died cfg { state.data with hpDict := hpDict } roleName (now + delay))) :=
        { inv.held with }
      exact saved.startTimer fun timer member => ⟨by simp, fun _ => noRevival timer member⟩
    case phase => exact fun _ => .inr ⟨by simp [State.death, State.startTimer, State.save,
      BossData.died, BossData.hp, hpSum], by simp [State.death, State.startTimer, State.save,
      BossData.died]⟩
    case storedPhase => exact inv.storedPhase
    case level => exact death_level cfg { state.data with hpDict := hpDict } inv.level _ _
    case storedLevel => exact inv.storedLevel
    case opening =>
      intro timer member kind
      exact inv.opening timer (old member (by simp [kind])) kind
    case closing => exact fun _ _ _ => opened
    case closes =>
      intro _
      obtain ⟨timer, member, kind⟩ := inv.closes opened
      exact ⟨timer, mem_startTimer.mpr (.inl member), kind⟩
    case revival => exact fun _ _ _ => ⟨opened, by simp [State.death, State.startTimer, State.save,
      BossData.died]⟩
    case revives => exact fun _ _ => ⟨_, mem_startTimer.mpr (.inr rfl), rfl⟩
    case starting => exact fun closing member next => absurd (started closing member) next
    case rewards => exact inv.rewards
    case begun => exact inv.begun
    case restarts => exact inv.restarts
  · rename_i alive'
    refine { inv with held := { inv.held with }, phase := fun _ => .inl ⟨Int.not_le.mp alive', unnoted⟩ }

theorem save_inv : Inv cfg { state with stored := state.data, marked := false } :=
  ⟨{ inv.held with }, inv.phase,
    inv.phase, inv.level, inv.level, inv.opening, inv.closing, inv.closes, inv.revival,
    inv.revives, inv.starting, inv.rewards, inv.begun, inv.restarts⟩

omit inv in
theorem resume_inv (held : Held state) (nothing : state.timers = [])
    (opened : state.data.isOpen = true) (phase : state.data.Phase)
    (storedPhase : state.stored.isOpen = true → state.stored.Phase)
    (level : cfg.isLevel state.data.bossLevel = true)
    (storedLevel : cfg.isLevel state.stored.bossLevel = true) (nobody : state.waiting = [])
    (rewards : ∀ opening, state.sent.count opening = if state.Ended opening then 1 else 0)
    (begun : 1 ≤ state.openings) (restarts : ∀ restart ∈ state.restarts, restart.1 = restart.2) :
    Inv cfg (state.resume cfg now) := by
  unfold State.resume
  split
  · rename_i unnoted
    exact setClosing_inv held opened phase storedPhase level storedLevel (by simp [nothing])
      (by simp [nothing]) (fun noted => absurd unnoted noted) (by simp [nobody]) rewards begun
      restarts
  · rename_i reviveTs noted
    split
    · have saved : Held (state.revive cfg) :=
        { held with }
      exact setClosing_inv saved opened (.inl ⟨cfg.boss_alive level, rfl⟩) storedPhase level
        storedLevel (by simp [State.revive, State.save, nothing])
        (by simp [State.revive, State.save, nothing]) (fun noted => absurd rfl noted)
        (by simp [State.revive, State.save, nobody]) rewards begun restarts
    · have set : Held (state.startTimer .revival reviveTs) :=
        held.startTimer (by simp [nothing])
      refine setClosing_inv set opened phase storedPhase level storedLevel ?_ ?_ ?_ ?_ rewards
        begun restarts
      · intro timer member
        obtain rfl : timer = _ := by simpa [mem_startTimer, nothing] using member
        simp [Timer.OfState]
      · exact fun _ _ _ => by simp [State.startTimer, noted]
      · exact fun _ => ⟨_, mem_startTimer.mpr (.inr rfl), rfl⟩
      · simp [State.startTimer, nobody]

/-- `start` from a saved record that has kept whether the activity is open. -/
theorem start_inv (nobody : state.waiting = []) (same : state.stored.isOpen = state.data.isOpen)
    (unnoted : state.data.isOpen = false → cfg.openDay now = true → cfg.startTime now ≤ now → now < cfg.closeTime now → state.stored.reviveTs = none)
    :
    Inv cfg (state.reloaded.start cfg now) := by
  have held : Held state.reloaded := by constructor <;> simp [State.reloaded]
  have rewards : ∀ opening,
      state.reloaded.sent.count opening = if state.reloaded.Ended opening then 1 else 0 := by
    intro opening
    have ended : state.reloaded.Ended opening ↔ state.Ended opening := by
      simp [State.Ended, State.reloaded, same]
    have before := inv.rewards opening
    rw [if_congr ended rfl rfl]
    simpa [State.sent, State.reloaded, nobody] using before
  have idle : ∀ timer ∈ state.reloaded.timers, ¬ timer.OfState ∧ timer.kind ≠ .revival := by
    simp [State.reloaded]
  unfold State.start
  split
  · rename_i opened
    have begun := inv.begun (same.symm.trans opened)
    have closed : ∀ nextOpen, Inv cfg (state.reloaded.closeBoss true nextOpen) := by
      intro nextOpen
      exact closeBoss_inv held opened (fun timer member => (idle timer member).1) inv.storedLevel
        inv.storedPhase inv.storedLevel (by simp [State.reloaded]) (by simp [State.reloaded])
        rewards begun inv.restarts
    split
    · split
      · exact closed _
      · split
        · exact closed _
        · exact resume_inv held rfl opened (inv.storedPhase opened) inv.storedPhase
            inv.storedLevel inv.storedLevel rfl rewards begun inv.restarts
    · exact closed _
  · rename_i closed
    have closed : state.stored.isOpen = false := by simpa [State.reloaded] using closed
    have reloaded : Inv cfg state.reloaded := by
      refine ⟨held, ?_, inv.storedPhase, inv.storedLevel, inv.storedLevel, ?_, ?_, ?_, ?_, ?_, ?_,
        rewards, ?_, inv.restarts⟩ <;> simp [State.reloaded, closed]
    split
    · rename_i day
      split
      · exact setOpening_inv reloaded closed (fun timer member => (idle timer member).1)
          (by simp [State.reloaded])
      · rename_i began
        split
        · rename_i before
          exact openBoss_inv held closed idle
            (unnoted (same.symm.trans closed) day (Int.not_lt.mp began) before) inv.storedLevel
            inv.storedPhase inv.storedLevel (by simp [State.reloaded]) rewards inv.restarts
        · exact reloaded
    · exact reloaded

omit inv in
/-- A start that finds an open activity and a living boss leaves the hit points. -/
theorem start_hpDict (opened : state.data.isOpen = true)
    (unnoted : state.data.reviveTs = none) :
    (state.start cfg now).data.hpDict = state.data.hpDict := by
  unfold State.start
  rw [if_pos opened]
  split
  · split
    · rfl
    · split
      · rfl
      · simp [State.resume, unnoted, State.startTimer]
  · rfl

theorem restart_inv (settled : Settled cfg state (.restart now)) :
    Inv cfg (state.restart cfg now) := by
  obtain ⟨nobody, same, kept, unnoted⟩ := settled
  have started := start_inv inv nobody same unnoted
  unfold State.restart
  split
  · rename_i living
    have hpDict := kept living
    have opened : state.stored.isOpen = true := same.trans living.1
    have alive : 0 < state.stored.hp := by
      simpa [BossData.hp, hpDict] using living.2
    have noRevival : state.stored.reviveTs = none := by
      rcases inv.storedPhase opened with ⟨-, unnoted⟩ | ⟨dead, -⟩
      · exact unnoted
      · omega
    have same_hp : (state.reloaded.start cfg now).data.hpDict = state.data.hpDict :=
      (start_hpDict (show state.reloaded.data.isOpen = true from opened) noRevival).trans hpDict
    refine { started with held := { started.held with }, restarts := fun restart member => ?_ }
    rcases List.mem_append.mp member with old | new
    · exact started.restarts restart old
    · cases List.mem_singleton.mp new
      exact same_hp.symm
  · exact started

end

theorem step_inv {after : State} {label : Label} (inv : Inv cfg state)
    (settled : Settled cfg state label) (taken : step cfg state label = some after) :
    Inv cfg after := by
  cases label with
  | fire timer now =>
      simp only [step] at taken
      split at taken
      · rename_i pending
        cases taken
        cases kind : timer.kind with
        | opening => exact fire_opening_inv inv pending.1 kind (settled kind)
        | closing => exact fire_closing_inv inv pending.1 kind
        | revival => exact fire_revival_inv inv pending.1 kind
        | recovery => exact fire_recovery_inv inv pending.1 kind
      · cases taken
  | dailyRefresh now =>
      simp only [step] at taken
      split at taken
      · rename_i begun
        cases taken
        exact dailyRefresh_inv inv begun
      · cases taken
  | hurt hpDict roleName now delay =>
      simp only [step] at taken
      split at taken
      · rename_i possible
        cases taken
        exact hurt_inv inv possible.1
      · cases taken
  | answer closing =>
      simp only [step] at taken
      split at taken
      · rename_i member
        cases taken
        exact answer_inv inv member
      · cases taken
  | save =>
      cases taken
      split
      · exact save_inv inv
      · exact inv
  | restart now =>
      cases taken
      exact restart_inv inv settled

end

/-- A second of the Monday the runs are about. -/
def monday (hour second : Int) : Int :=
  4 * 86400 + hour * 3600 + second

/-- A start before the opening, a death, a restart while the boss is dead and one while it is alive,
and the closing. -/
def fullRun : List Label :=
  [.restart (monday 11 0), .fire ⟨1, monday 12 0, .opening⟩ (monday 12 0),
    .hurt [(1, 9)] "Tom" (monday 12 1) 30, .hurt [(1, -3)] "Ann" (monday 12 5) 30, .save,
    .restart (monday 12 20), .fire ⟨5, monday 12 35, .revival⟩ (monday 12 35),
    .fire ⟨7, monday 13 0, .recovery⟩ (monday 13 0), .save, .restart (monday 14 0),
    .fire ⟨8, monday 20 0, .closing⟩ (monday 20 0),
    .answer { opening := 1, inStart := false, nextOpen := none }]

/-- The activity is closed while the boss is dead, and opened again on the Friday. -/
def deadRun : List Label :=
  [.restart (monday 13 0), .hurt [(1, 0)] "Ann" (monday 19 3590) 30,
    .fire ⟨1, monday 20 0, .closing⟩ (monday 20 0),
    .answer { opening := 1, inStart := false, nextOpen := none }, .dailyRefresh (monday 96 0),
    .fire ⟨4, monday 108 0, .opening⟩ (monday 108 0)]

end UEServer.TraitorBoss
