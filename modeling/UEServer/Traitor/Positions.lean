import Mathlib.Data.List.Nodup
import UEServer.Traitor.Cross

/-!
# Who holds a position

A role holds one position, and its protection lasts for its time, in every execution in which a
free position is taken after the timers of its earlier occupants; and no position changes hands
without a reason in every execution whose rounds end with the marked occupants still in place.
-/

namespace UEServer.CrossTraitor

variable {ρ : Type*} [DecidableEq ρ]

/-- What the positions promise in one state. -/
structure Sound (cfg : Config) (state : State ρ) : Prop where
  single : ∀ uuid pos other, state.Holds uuid pos → state.Holds uuid other → pos = other
  protectedFor : ∀ pos occupant, state.posDict pos = some occupant →
    (state.clock < occupant.takenTs + cfg.protectTime → occupant.protectTs ≠ none) ∧
      (occupant.takenTs + cfg.protectTime < state.clock → occupant.protectTs = none)
  uncontested : ∀ pos occupant uuid isWin, state.posDict pos = some occupant →
    occupant.protectTs ≠ none → state.occupyPos cfg pos uuid isWin = state
  /-- Whoever has lost a position has lost a contest, has quit or moved, or has used up its
  challenges. -/
  departed : ∀ departure ∈ state.departed, departure.2 ≠ .other

/-- What a step must find. A free position that is taken has no timer of another role. When a round
ends, a position that it clears is free or held by the role whose answer has marked it. -/
def Settled (state : State ρ) : Label ρ → Prop
  | .occupy posId uuid _ =>
      state.posDict posId = none → ∀ timer ∈ state.timers, timer.posId = posId → timer.uuid = uuid
  | .answer index challengeNum =>
      ∀ round ∈ state.rounds[index]?, (∀ pos ∈ round.remaining, state.posDict pos = none) →
        ∀ mark ∈ State.marked round challengeNum, ∀ occupant ∈ state.posDict mark.1,
          occupant.uuid = mark.2
  | _ => True

/-- The positions and the timers agree. -/
structure Inv (cfg : Config) (state : State ρ) : Prop where
  inside : ∀ pos occupant, state.posDict pos = some occupant → pos ∈ State.positions cfg
  single : ∀ uuid pos other, state.Holds uuid pos → state.Holds uuid other → pos = other
  fresh : ∀ timer ∈ state.timers, timer.guid ≤ state.guid
  nodup : (state.timers.map ProtectTimer.guid).Nodup
  /-- `protect_timer_dict` holds the timer of a role. -/
  dict : ∀ timer ∈ state.timers, state.protectTimerDict timer.uuid = some timer.guid
  dictOwn : ∀ uuid guid, state.protectTimerDict uuid = some guid →
    guid ≤ state.guid ∧ ∀ timer ∈ state.timers, timer.guid = guid → timer.uuid = uuid
  owner : ∀ timer ∈ state.timers, ∀ occupant, state.posDict timer.posId = some occupant →
    occupant.uuid = timer.uuid ∧ occupant.protectTs ≠ none ∧
      timer.due = occupant.takenTs + cfg.protectTime
  flagged : ∀ pos occupant, state.posDict pos = some occupant → occupant.protectTs ≠ none →
    ∃ timer ∈ state.timers, timer.uuid = occupant.uuid ∧ timer.posId = pos
  unflagged : ∀ pos occupant, state.posDict pos = some occupant → occupant.protectTs = none →
    occupant.takenTs + cfg.protectTime ≤ state.clock
  timely : ∀ timer ∈ state.timers, state.clock ≤ timer.due

section
variable {cfg : Config} {state : State ρ}

omit [DecidableEq ρ] in
theorem holds_iff {uuid : ρ} {pos : Nat} :
    state.Holds uuid pos ↔ ∃ occupant, state.posDict pos = some occupant ∧ occupant.uuid = uuid :=
  Option.map_eq_some_iff

omit [DecidableEq ρ] in
theorem vacate_inv (inv : Inv cfg state) (posDict : Nat → Option (Occupant ρ))
    (vacated : ∀ pos occupant, posDict pos = some occupant → state.posDict pos = some occupant) :
    Inv cfg { state with posDict := posDict } := by
  refine ⟨fun pos occupant held => inv.inside pos occupant (vacated pos occupant held),
    fun uuid pos other held held' => ?_, inv.fresh, inv.nodup, inv.dict,
    inv.dictOwn,
    fun timer member occupant held => inv.owner timer member occupant (vacated _ _ held),
    fun pos occupant held => inv.flagged pos occupant (vacated _ _ held),
    fun pos occupant held => inv.unflagged pos occupant (vacated _ _ held), inv.timely⟩
  have old : ∀ {pos : Nat}, State.Holds { state with posDict := posDict } uuid pos →
      state.Holds uuid pos := by
    intro pos held
    obtain ⟨occupant, occupied, same⟩ := holds_iff.mp held
    exact holds_iff.mpr ⟨occupant, vacated pos occupant occupied, same⟩
  exact inv.single uuid pos other (old held) (old held')

section
variable (inv : Inv cfg state)
include inv

/-- The loop that clears a position of a role clears the position of the role. -/
theorem clearRole_posDict (uuid : ρ) (pos : Nat) :
    (state.clearRole cfg uuid).posDict pos =
      if state.Holds uuid pos then none else state.posDict pos := by
  unfold State.clearRole
  cases found : (State.positions cfg).find? fun pos => state.Holds uuid pos with
  | none =>
      refine (if_neg fun held => ?_).symm
      obtain ⟨occupant, occupied, -⟩ := holds_iff.mp held
      have absent := List.find?_eq_none.mp found pos (inv.inside pos occupant occupied)
      simp [held] at absent
  | some first =>
      have held : state.Holds uuid first := by simpa using List.find?_some found
      by_cases here : pos = first
      · subst here
        simp [held]
      · have other : ¬ state.Holds uuid pos :=
          fun held' => here (inv.single uuid pos first held' held)
        simp [Function.update_of_ne here, other]

theorem quit_inv (uuid : ρ) : Inv cfg (state.quitTraitor cfg uuid) := by
  have vacated := vacate_inv inv (state.clearRole cfg uuid).posDict (by
    intro pos occupant held
    rw [clearRole_posDict inv] at held
    split at held
    · cases held
    · exact held)
  unfold State.quitTraitor State.clearRole at *
  split at vacated <;> exact vacated

theorem take_posDict (posId : Nat) (uuid : ρ) (pos : Nat) :
    (state.take cfg posId uuid).posDict pos =
      if pos = posId then
        some { uuid := uuid, protectTs := some (state.clock + cfg.protectTime),
               takenTs := state.clock }
      else if state.Holds uuid pos then none
      else state.posDict pos := by
  simp only [State.take, Function.update_apply, clearRole_posDict inv]

theorem take_inv {posId : Nat} {uuid : ρ} (inPlace : posId ∈ State.positions cfg)
    (settled : ∀ timer ∈ state.timers, timer.posId = posId → timer.uuid = uuid) :
    Inv cfg (state.take cfg posId uuid) := by
  have posDict := take_posDict inv posId uuid
  have clock : (state.take cfg posId uuid).clock = state.clock := by
    unfold State.take State.clearRole
    split <;> rfl
  have timers : (state.take cfg posId uuid).timers =
      (state.timers.filter fun timer => some timer.guid ≠ state.protectTimerDict uuid) ++
        [{ guid := state.guid + 1, uuid := uuid, posId := posId,
           due := state.clock + cfg.protectTime }] := rfl
  have members : ∀ timer ∈ (state.take cfg posId uuid).timers,
      (timer ∈ state.timers ∧ timer.uuid ≠ uuid) ∨
        timer = { guid := state.guid + 1, uuid := uuid, posId := posId,
                  due := state.clock + cfg.protectTime } := by
    intro timer member
    rcases List.mem_append.mp member with old | new
    · obtain ⟨old, kept⟩ := List.mem_filter.mp old
      refine .inl ⟨old, fun same => ?_⟩
      simp [← same, inv.dict timer old] at kept
    · exact .inr (List.mem_singleton.mp new)
  have others : ∀ {pos : Nat} {occupant : Occupant ρ},
      (state.take cfg posId uuid).posDict pos = some occupant → pos ≠ posId →
        state.posDict pos = some occupant ∧ occupant.uuid ≠ uuid := by
    intro pos occupant held different
    rw [posDict, if_neg different] at held
    split at held
    · cases held
    · rename_i other
      exact ⟨held, fun same => other (holds_iff.mpr ⟨occupant, held, same⟩)⟩
  constructor
  case inside =>
    intro pos occupant held
    by_cases here : pos = posId
    · exact here ▸ inPlace
    · exact inv.inside pos occupant (others held here).1
  case single =>
    intro other pos pos' held held'
    obtain ⟨occupant, occupied, same⟩ := holds_iff.mp held
    obtain ⟨occupant', occupied', same'⟩ := holds_iff.mp held'
    by_cases here : pos = posId <;> by_cases here' : pos' = posId
    · exact here.trans here'.symm
    · subst here
      rw [posDict, if_pos rfl] at occupied
      cases occupied
      exact absurd (same'.trans same.symm) (others occupied' here').2
    · subst here'
      rw [posDict, if_pos rfl] at occupied'
      cases occupied'
      exact absurd (same.trans same'.symm) (others occupied here).2
    · exact inv.single other pos pos' (holds_iff.mpr ⟨occupant, (others occupied here).1, same⟩)
        (holds_iff.mpr ⟨occupant', (others occupied' here').1, same'⟩)
  case fresh =>
    intro timer member
    rcases members timer member with ⟨old, -⟩ | rfl
    · exact Nat.le_succ_of_le (inv.fresh timer old)
    · exact Nat.le_refl _
  case nodup =>
    rw [timers, List.map_append, List.nodup_append]
    refine ⟨inv.nodup.sublist (List.filter_sublist.map _), by simp, ?_⟩
    intro guid old guid' new
    obtain ⟨timer, member, rfl⟩ := List.mem_map.mp old
    have le := inv.fresh timer (List.mem_of_mem_filter member)
    simp only [List.map_cons, List.map_nil, List.mem_singleton] at new
    omega
  case dict =>
    intro timer member
    rcases members timer member with ⟨old, other⟩ | rfl
    · simpa [State.take, Function.update_of_ne other] using inv.dict timer old
    · simp [State.take]
  case dictOwn =>
    intro role guid held
    by_cases here : role = uuid
    · subst here
      have new : state.guid + 1 = guid := by simpa [State.take] using held
      refine ⟨Nat.le_of_eq new.symm, fun timer member same => ?_⟩
      rcases members timer member with ⟨old, -⟩ | rfl
      · have le := inv.fresh timer old
        omega
      · rfl
    · have held : state.protectTimerDict role = some guid := by
        simpa [State.take, Function.update_of_ne here] using held
      obtain ⟨le, own⟩ := inv.dictOwn role guid held
      refine ⟨Nat.le_succ_of_le le, fun timer member same => ?_⟩
      rcases members timer member with ⟨old, -⟩ | rfl
      · exact own timer old same
      · simp only at same
        omega
  case owner =>
    intro timer member occupant held
    by_cases here : timer.posId = posId
    · rw [here, posDict, if_pos rfl] at held
      cases held
      rcases members timer member with ⟨old, other⟩ | rfl
      · exact absurd (settled timer old here) other
      · exact ⟨rfl, by simp, rfl⟩
    · obtain ⟨held, -⟩ := others held here
      rcases members timer member with ⟨old, -⟩ | rfl
      · exact inv.owner timer old occupant held
      · exact absurd rfl here
  case flagged =>
    intro pos occupant held flag
    by_cases here : pos = posId
    · rw [here, posDict, if_pos rfl] at held
      cases held
      exact ⟨_, List.mem_append_right _ (List.mem_singleton.mpr rfl), rfl, here.symm⟩
    · obtain ⟨held, other⟩ := others held here
      obtain ⟨timer, member, same, place⟩ := inv.flagged pos occupant held flag
      refine ⟨timer, List.mem_append_left _ (List.mem_filter.mpr ⟨member, ?_⟩), same, place⟩
      rw [decide_eq_true_eq]
      intro cancelled
      have own := (inv.dictOwn uuid timer.guid cancelled.symm).2 timer member rfl
      exact other (same.symm.trans own)
  case unflagged =>
    intro pos occupant held flag
    rw [clock]
    by_cases here : pos = posId
    · rw [here, posDict, if_pos rfl] at held
      cases held
      cases flag
    · exact inv.unflagged pos occupant (others held here).1 flag
  case timely =>
    intro timer member
    rw [clock]
    rcases members timer member with ⟨old, -⟩ | rfl
    · exact inv.timely timer old
    · have nonneg := cfg.protectTime_nonneg
      simp only
      omega

theorem occupy_inv {posId : Nat} {uuid : ρ} {isWin : Bool}
    (settled : Settled state (.occupy posId uuid isWin)) :
    Inv cfg (state.occupyPos cfg posId uuid isWin) := by
  unfold State.occupyPos
  split
  · rename_i inPlace
    split
    · rename_i free
      exact take_inv inv inPlace (settled free)
    · rename_i occupant held
      split
      · exact inv
      · rename_i won
        refine take_inv inv inPlace fun timer member here => ?_
        have flag := (inv.owner timer member occupant (here ▸ held)).2.1
        exact absurd (.inr (.inl flag)) won
  · exact inv

theorem protectEnd_inv {timer : ProtectTimer ρ} (member : timer ∈ state.timers)
    (due : timer.due ≤ state.clock) : Inv cfg (state.protectEnd timer) := by
  have rest : ∀ other ∈ state.timers.erase timer, other ≠ timer ∧ other ∈ state.timers :=
    fun other member' => inv.nodup.of_map.mem_erase_iff.mp member'
  have apart : ∀ other ∈ state.timers.erase timer, other.uuid ≠ timer.uuid := by
    intro other member' same
    obtain ⟨different, member'⟩ := rest other member'
    have names := (inv.dict other member').symm.trans (same ▸ inv.dict timer member)
    exact different (List.inj_on_of_nodup_map inv.nodup member' member (Option.some.inj names))
  have held_before : ∀ {pos : Nat} {occupant : Occupant ρ},
      (state.protectEnd timer).posDict pos = some occupant →
        ∃ before, state.posDict pos = some before ∧ before.uuid = occupant.uuid ∧
          before.takenTs = occupant.takenTs ∧ (pos ≠ timer.posId → before = occupant) ∧
          (pos = timer.posId → occupant.protectTs = none) := by
    intro pos occupant held
    by_cases here : pos = timer.posId
    · subst here
      simp only [State.protectEnd, Function.update_self, Option.map_eq_some_iff] at held
      obtain ⟨before, occupied, rfl⟩ := held
      exact ⟨before, occupied, rfl, rfl, fun other => absurd rfl other, fun _ => rfl⟩
    · simp only [State.protectEnd, Function.update_of_ne here] at held
      exact ⟨occupant, held, rfl, rfl, fun _ => rfl, fun same => absurd same here⟩
  constructor
  case inside =>
    intro pos occupant held
    obtain ⟨before, occupied, -⟩ := held_before held
    exact inv.inside pos before occupied
  case single =>
    intro uuid pos other held held'
    have old : ∀ {pos : Nat}, (state.protectEnd timer).Holds uuid pos → state.Holds uuid pos := by
      intro pos held
      obtain ⟨occupant, occupied, same⟩ := holds_iff.mp held
      obtain ⟨before, occupied, uuid, -⟩ := held_before occupied
      exact holds_iff.mpr ⟨before, occupied, uuid.trans same⟩
    exact inv.single uuid pos other (old held) (old held')
  case fresh => exact fun other member' => inv.fresh other (rest other member').2
  case nodup => exact inv.nodup.sublist (List.erase_sublist.map _)
  case dict =>
    intro other member'
    simpa [State.protectEnd, Function.update_of_ne (apart other member')]
      using inv.dict other (rest other member').2
  case dictOwn =>
    intro uuid guid held
    by_cases here : uuid = timer.uuid
    · simp [State.protectEnd, here] at held
    · have held : state.protectTimerDict uuid = some guid := by
        simpa [State.protectEnd, Function.update_of_ne here] using held
      obtain ⟨le, own⟩ := inv.dictOwn uuid guid held
      exact ⟨le, fun other member' => own other (rest other member').2⟩
  case owner =>
    intro other member' occupant held
    obtain ⟨before, occupied, uuid, taken, same, -⟩ := held_before held
    obtain ⟨own, flag, duration⟩ := inv.owner other (rest other member').2 before occupied
    have elsewhere : other.posId ≠ timer.posId := by
      intro here
      have mine := (inv.owner timer member before (here ▸ occupied)).1
      exact apart other member' (own.symm.trans mine)
    obtain rfl := same elsewhere
    exact ⟨own, flag, duration⟩
  case flagged =>
    intro pos occupant held flag
    obtain ⟨before, occupied, uuid, taken, same, cleared⟩ := held_before held
    have elsewhere : pos ≠ timer.posId := fun here => flag (cleared here)
    obtain rfl := same elsewhere
    obtain ⟨other, member', own, place⟩ := inv.flagged pos before occupied flag
    refine ⟨other, inv.nodup.of_map.mem_erase_iff.mpr ⟨?_, member'⟩, own, place⟩
    rintro rfl
    exact elsewhere place.symm
  case unflagged =>
    intro pos occupant held flag
    obtain ⟨before, occupied, uuid, taken, same, cleared⟩ := held_before held
    by_cases here : pos = timer.posId
    · have duration := (inv.owner timer member before (here ▸ occupied)).2.2
      have : (state.protectEnd timer).clock = state.clock := rfl
      omega
    · obtain rfl := same here
      exact inv.unflagged pos before occupied flag
  case timely => exact fun other member' => inv.timely other (rest other member').2

omit [DecidableEq ρ] in
theorem tick_inv (early : ∀ timer ∈ state.timers, state.clock < timer.due) :
    Inv cfg { state with clock := state.clock + 1 } := by
  refine { inv with
    unflagged := fun pos occupant held flag => ?_
    timely := fun timer member => ?_ }
  · have elapsed := inv.unflagged pos occupant held flag
    simp only
    omega
  · have later := early timer member
    simp only
    omega

end

section
omit [DecidableEq ρ]

theorem visit_cases (state : State ρ) (kickPos : List (Nat × ρ)) (remaining : List Nat) :
    ((∀ pos ∈ remaining, state.posDict pos = none) ∧
        state.visit kickPos remaining = state.kick kickPos) ∨
      ∃ rounds, state.visit kickPos remaining = { state with rounds := rounds } := by
  induction remaining with
  | nil => exact .inl ⟨by simp, rfl⟩
  | cons pos remaining ih =>
      cases occupied : state.posDict pos with
      | none =>
          simp only [State.visit, occupied, List.forall_mem_cons, true_and]
          exact ih
      | some occupant =>
          refine .inr ⟨state.rounds ++ [⟨pos, occupant.uuid, remaining, kickPos⟩], ?_⟩
          simp only [State.visit, occupied]

theorem rounds_inv (inv : Inv cfg state) (rounds : List (Round ρ)) :
    Inv cfg { state with rounds := rounds } :=
  { inv with }

theorem visit_inv (inv : Inv cfg state) (kickPos : List (Nat × ρ)) (remaining : List Nat) :
    Inv cfg (state.visit kickPos remaining) := by
  rcases visit_cases state kickPos remaining with ⟨-, ends⟩ | ⟨rounds, goesOn⟩
  · rw [ends]
    refine vacate_inv inv _ fun pos occupant held => ?_
    split at held
    · cases held
    · exact held
  · rw [goesOn]
    exact rounds_inv inv rounds

end

variable {after : State ρ} {label : Label ρ}

/-- Every effect of a label that finds what it must keeps the invariant. -/
theorem advance_inv (inv : Inv cfg state)
    (settled : Settled state label) (taken : state.advance cfg label = some after) :
    Inv cfg after := by
  cases label with
  | occupy posId uuid isWin =>
      cases taken
      exact occupy_inv inv settled
  | quit uuid =>
      cases taken
      exact quit_inv inv uuid
  | tick =>
      simp only [State.advance] at taken
      split at taken
      · rename_i early
        cases taken
        exact tick_inv inv early
      · cases taken
  | protectEnd timer =>
      simp only [State.advance] at taken
      split at taken
      · rename_i due
        cases taken
        exact protectEnd_inv inv due.1 due.2
      · cases taken
  | fight =>
      cases taken
      exact visit_inv inv _ _
  | answer index challengeNum =>
      simp only [State.advance] at taken
      split at taken
      · cases taken
      · cases taken
        exact visit_inv (rounds_inv inv _) _ _

/-- In a step that finds what it must, whoever loses a position loses it for a reason. -/
theorem cause_ne_other (inv : Inv cfg state)
    (settled : Settled state label) (taken : state.advance cfg label = some after) {pos : Nat}
    {occupant : Occupant ρ} (held : state.posDict pos = some occupant)
    (gone : ¬ after.Holds occupant.uuid pos) : state.cause label pos occupant.uuid ≠ .other := by
  have before : state.Holds occupant.uuid pos := holds_iff.mpr ⟨occupant, held, rfl⟩
  have kept : ∀ {other : State ρ}, other.posDict pos = state.posDict pos →
      other.Holds occupant.uuid pos := by
    intro other same
    exact holds_iff.mpr ⟨occupant, same.trans held, rfl⟩
  cases label with
  | occupy posId uuid isWin =>
      cases taken
      simp only [State.cause]
      by_cases mover : uuid = occupant.uuid
      · simp [mover]
      · have contested : posId = pos ∧ isWin = true := by
          by_contra refused
          refine gone (kept ?_)
          unfold State.occupyPos
          have stays : ¬ (posId = pos) → (state.take cfg posId uuid).posDict pos =
              state.posDict pos := by
            intro elsewhere
            have other : ¬ state.Holds uuid pos := by
              intro held'
              obtain ⟨occupant', occupied, same⟩ := holds_iff.mp held'
              cases held.symm.trans occupied
              exact mover same.symm
            rw [take_posDict inv, if_neg (Ne.symm elsewhere), if_neg other]
          split
          · split
            · rename_i free
              refine stays ?_
              rintro rfl
              simp [held] at free
            · split
              · rfl
              · rename_i won
                refine stays fun here => refused ⟨here, ?_⟩
                simp only [not_or, Bool.not_eq_false] at won
                exact won.2.2
          · rfl
        simp [mover, contested]
  | quit uuid =>
      cases taken
      simp only [State.cause]
      by_cases leaver : uuid = occupant.uuid
      · simp [leaver]
      · refine absurd (kept ?_) gone
        have other : ¬ state.Holds uuid pos := by
          intro held'
          obtain ⟨occupant', occupied, same⟩ := holds_iff.mp held'
          cases held.symm.trans occupied
          exact leaver same.symm
        rw [State.quitTraitor, clearRole_posDict inv, if_neg other]
  | tick =>
      simp only [State.advance] at taken
      split at taken
      · cases taken
        exact absurd before gone
      · cases taken
  | protectEnd timer =>
      simp only [State.advance] at taken
      split at taken
      · cases taken
        refine absurd (holds_iff.mpr ?_) gone
        by_cases here : pos = timer.posId
        · subst here
          exact ⟨{ occupant with protectTs := none }, by simp [State.protectEnd, held], rfl⟩
        · exact ⟨occupant, by simp [State.protectEnd, Function.update_of_ne here, held], rfl⟩
      · cases taken
  | fight =>
      cases taken
      refine absurd (kept ?_) gone
      rcases visit_cases state [] (State.positions cfg) with ⟨-, ends⟩ | ⟨_, goesOn⟩
      · simp [ends, State.kick]
      · rw [goesOn]
  | answer index challengeNum =>
      simp only [State.advance] at taken
      split at taken
      · cases taken
      · rename_i round asked
        cases taken
        simp only [State.cause, asked]
        rcases visit_cases { state with rounds := state.rounds.eraseIdx index }
            (State.marked round challengeNum) round.remaining with ⟨nobody, ends⟩ | ⟨_, goesOn⟩
        · by_cases kicked : pos ∈ (State.marked round challengeNum).map Prod.fst
          · obtain ⟨mark, member, rfl⟩ := List.mem_map.mp kicked
            have own := settled round asked nobody mark member occupant held
            have present : (mark.1, occupant.uuid) ∈ State.marked round challengeNum := by
              rw [own]
              exact member
            simp [present]
          · refine absurd (kept ?_) gone
            simp [ends, State.kick, kicked]
        · refine absurd (kept ?_) gone
          rw [goesOn]

/-- The positions and the timers agree, and nobody has lost a position without a reason. -/
structure RunInv (cfg : Config) (state : State ρ) : Prop extends Inv cfg state where
  departed : ∀ departure ∈ state.departed, departure.2 ≠ .other

theorem RunInv.sound (inv : RunInv cfg state) : Sound cfg state where
  single := inv.single
  protectedFor pos occupant held := by
    constructor
    · intro early unprotected
      have elapsed := inv.unflagged pos occupant held unprotected
      omega
    · intro late
      by_contra flag
      obtain ⟨timer, member, -, place⟩ := inv.flagged pos occupant held flag
      have duration := (inv.owner timer member occupant (place ▸ held)).2.2
      have timely := inv.timely timer member
      omega
  uncontested pos occupant uuid isWin held flag := by
    unfold State.occupyPos
    split
    · simp [held, flag]
    · rfl
  departed := inv.departed

theorem clearRole_departed (uuid : ρ) :
    (state.clearRole cfg uuid).departed = state.departed := by
  unfold State.clearRole
  split <;> rfl

omit [DecidableEq ρ] in
theorem visit_departed (kickPos : List (Nat × ρ)) (remaining : List Nat) :
    (state.visit kickPos remaining).departed = state.departed := by
  rcases visit_cases state kickPos remaining with ⟨-, ends⟩ | ⟨rounds, goesOn⟩
  · rw [ends, State.kick]
  · rw [goesOn]

theorem advance_departed
    (taken : state.advance cfg label = some after) : after.departed = state.departed := by
  cases label with
  | occupy posId uuid isWin =>
      cases taken
      have seated : (state.take cfg posId uuid).departed = state.departed :=
        clearRole_departed uuid
      unfold State.occupyPos
      split
      · split
        · exact seated
        · split
          · rfl
          · exact seated
      · rfl
  | quit uuid =>
      cases taken
      exact clearRole_departed uuid
  | tick =>
      simp only [State.advance] at taken
      split at taken
      · cases taken
        rfl
      · cases taken
  | protectEnd timer =>
      simp only [State.advance] at taken
      split at taken
      · cases taken
        rfl
      · cases taken
  | fight =>
      cases taken
      exact visit_departed _ _
  | answer index challengeNum =>
      simp only [State.advance] at taken
      split at taken
      · cases taken
      · cases taken
        exact visit_departed _ _

theorem step_inv (inv : RunInv cfg state)
    (settled : Settled state label) (taken : step cfg state label = some after) :
    RunInv cfg after := by
  obtain ⟨advanced, effect, rfl⟩ := Option.map_eq_some_iff.mp taken
  have inv' := advance_inv inv.toInv settled effect
  refine ⟨⟨inv'.inside, inv'.single, inv'.fresh, inv'.nodup, inv'.dict, inv'.dictOwn, inv'.owner,
    inv'.flagged, inv'.unflagged, inv'.timely⟩, fun departure member => ?_⟩
  rcases List.mem_append.mp member with old | new
  · exact inv.departed departure (advance_departed effect ▸ old)
  · obtain ⟨pos, -, lost⟩ := List.mem_filterMap.mp new
    split at lost
    · cases lost
    · rename_i occupant held
      split at lost
      · cases lost
      · rename_i gone
        cases lost
        exact cause_ne_other inv.toInv settled effect held gone

end

omit [DecidableEq ρ] in
theorem initial_inv (cfg : Config) (clock : Int) : RunInv cfg (initial (ρ := ρ) clock) := by
  refine ⟨⟨?_, ?_, ?_, ?_, ?_, ?_, ?_, ?_, ?_, ?_⟩, ?_⟩ <;> simp [initial, State.Holds]

instance (state : State ρ) : (label : Label ρ) → Decidable (Settled state label)
  | .occupy posId uuid _ =>
      match free : state.posDict posId with
      | none =>
          decidable_of_iff
            (∀ timer ∈ state.timers, timer.posId = posId → timer.uuid = uuid)
            (by simp [Settled, free])
      | some _ => isTrue (by simp [Settled, free])
  | .answer index challengeNum =>
      match asked : state.rounds[index]? with
      | none => isTrue (by simp [Settled, asked])
      | some round =>
          decidable_of_iff
            ((∀ pos ∈ round.remaining, (state.posDict pos).isNone) →
              ∀ mark ∈ State.marked round challengeNum,
                (state.posDict mark.1).all fun occupant => occupant.uuid = mark.2)
            (by simp [Settled, asked, Option.all_eq_true])
  | .quit _ | .tick | .protectEnd _ | .fight => isTrue trivial

/-- In an execution in which a free position is taken by a role when no other role has a timer for
it, and whose rounds end with the marked positions free or still held by the roles that have marked
them, the positions keep their promises. -/
theorem positions_sound {cfg : Config} {clock : Int} {labels : List (Label ρ)}
    (settled : Execution.Guarded (step cfg) Settled (initial clock) labels) :
    Execution.Always (step cfg) (Sound cfg) (initial clock) labels :=
  (Execution.always_of_guarded step_inv settled (initial_inv cfg clock)).mono fun _ inv => inv.sound

/-- Two roles take positions, the second one wins the position of the first, and uses up its
challenges. -/
def contestRun : List (Label Nat) :=
  [.occupy 1 1 true, .occupy 2 2 true, .tick, .tick, .tick, .tick, .tick, .protectEnd ⟨1, 1, 1, 5⟩,
    .protectEnd ⟨2, 2, 2, 5⟩, .occupy 1 2 true, .fight, .answer 0 (some 0)]

theorem positions_sound_contestRun :
    Execution.Always (step excelConfig) (Sound excelConfig) (initial 0) contestRun :=
  positions_sound (by decide +kernel)

/-- A role quits, and another one takes its position before its timer has fired. -/
def earlyRun : List (Label Nat) :=
  [.occupy 1 1 true, .quit 1, .tick, .tick, .tick, .occupy 1 2 true, .tick, .tick,
    .protectEnd ⟨1, 1, 1, 5⟩]

/-- The timer of the first role ends the protection of the second one after two seconds. -/
theorem earlyRun_not_sound :
    ∃ state, Execution.run (step excelConfig) (initial 0) earlyRun = some state ∧
      ¬ Sound excelConfig state := by
  have final : ((Execution.run (step excelConfig) (initial 0) earlyRun).bind fun state =>
      (state.posDict 1).map fun occupant => (state.clock, occupant.takenTs, occupant.protectTs)) =
        some (5, 3, none) := by decide +kernel
  obtain ⟨state, execution, fields⟩ := Option.bind_eq_some_iff.mp final
  obtain ⟨occupant, held, fields⟩ := Option.map_eq_some_iff.mp fields
  obtain ⟨clock, taken, unprotected⟩ : state.clock = 5 ∧ occupant.takenTs = 3 ∧
      occupant.protectTs = none := by simpa using fields
  refine ⟨state, execution, fun sound => (sound.protectedFor 1 occupant held).1 ?_ unprotected⟩
  rw [clock, taken]
  decide

end UEServer.CrossTraitor
