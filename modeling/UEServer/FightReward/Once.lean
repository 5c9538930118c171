import UEServer.FightReward.Basic

/-!
# Prizes that are paid once

A prize is lost when another one is stored over it, or when the role leaves memory with it; it is paid
twice, or in part, when its payment raises after an item.  Nothing else can go wrong.
-/

namespace UEServer.FightReward

open Execution

variable {ι : Type*} {state after : State ι}

/-- What holds of the slot and the timer. -/
structure Inv (state : State ι) : Prop where
  last : ∀ reward, state.fightReward = some reward → state.stored.getLast? = some reward
  loaded : state.fightReward.isSome → state.inMemory = true
  bound : state.sockId.isSome → state.inMemory = true
  paid : state.timerLogout = true → state.fightReward = none ∧ state.sockId = none
  numbers : ∀ entry ∈ state.added, entry.number < state.stored.length

theorem initial_inv : Inv (initial ι) :=
  ⟨nofun, nofun, nofun, nofun, nofun⟩

theorem initial_good : Good (initial ι) := ⟨nofun, nofun⟩

variable {reward : Reward}

theorem number_of_mem_entries {number : ℕ} {entry : Added}
    (mem : entry ∈ reward.entries number) : entry.number = number := by
  obtain ⟨item, -, rfl⟩ := List.mem_map.mp mem
  rfl

theorem entries_eq_nil {number : ℕ} :
    reward.entries number = [] ↔ reward.itemList = [] := List.map_eq_nil_iff

theorem filter_entries {entries : List Added} {number other : ℕ}
    (own : ∀ entry ∈ entries, entry.number = number) :
    entries.filter (fun entry => entry.number = other) = if other = number then entries else [] := by
  split
  · next same =>
      refine List.filter_eq_self.mpr fun entry mem => ?_
      exact decide_eq_true ((own entry mem).trans same.symm)
  · next different =>
      refine List.filter_eq_nil_iff.mpr fun entry mem => ?_
      rw [own entry mem, decide_eq_true_eq]
      exact fun same => different same.symm

theorem Inv.stored (inv : Inv state) (slot : state.fightReward = some reward) :
    state.stored.length - 1 + 1 = state.stored.length ∧
      state.stored[state.stored.length - 1]? = some reward := by
  have last := inv.last reward slot
  rw [List.getLast?_eq_getElem?] at last
  refine ⟨?_, last⟩
  obtain ⟨bound, -⟩ := List.getElem?_eq_some_iff.mp last
  omega

theorem giveFightReward_returns (slot : state.fightReward = some reward) :
    state.giveFightReward none =
      { state with
        added := state.added ++ reward.entries (state.stored.length - 1), fightReward := none } := by
  rw [State.giveFightReward, slot]

theorem giveFightReward_raises (slot : state.fightReward = some reward)
    (items : ℕ) :
    state.giveFightReward (some items) =
      { state with
        added := state.added ++ (reward.entries (state.stored.length - 1)).take items } := by
  rw [State.giveFightReward, slot]

theorem giveFightReward_spec (inv : Inv state) (raises : Option ℕ) :
    Inv (state.giveFightReward raises) ∧
      (state.Returns raises → (state.giveFightReward raises).fightReward = none) ∧
      (Good state → (Good (state.giveFightReward raises) ↔ state.Clean raises)) := by
  cases slot : state.fightReward with
  | none =>
      have same : state.giveFightReward raises = state := by rw [State.giveFightReward, slot]
      rw [same]
      refine ⟨inv, fun _ => slot, fun good => iff_of_true good ?_⟩
      intro reward mem
      rw [slot] at mem
      cases mem
  | some reward =>
      obtain ⟨count, stored⟩ := inv.stored slot
      have own : ∀ entry ∈ reward.entries (state.stored.length - 1),
          entry.number = state.stored.length - 1 := fun entry mem => number_of_mem_entries mem
      have waits : ∀ number, state.Waits number ↔ number = state.stored.length - 1 := by
        intro number
        rw [State.Waits, slot]
        simp only [Option.isSome_some, true_and]
        omega
      cases raises with
      | none =>
          rw [giveFightReward_returns slot]
          refine ⟨⟨nofun, nofun, inv.bound, fun timer => ⟨rfl, (inv.paid timer).2⟩, ?_⟩,
            fun _ => rfl, fun good => iff_of_true ⟨nofun, ?_⟩ nofun⟩
          · intro entry mem
            rcases List.mem_append.mp mem with mem | mem
            · exact inv.numbers entry mem
            · have := own entry mem
              dsimp only
              omega
          · intro number other found
            refine ⟨fun waits => absurd waits.1 Bool.false_ne_true, fun _ => ?_⟩
            obtain ⟨pending, settled⟩ := good.2 number other found
            unfold State.addedFor at pending settled ⊢
            rw [List.filter_append, filter_entries own]
            by_cases last : number = state.stored.length - 1
            · rw [pending ((waits number).mpr last), if_pos last, List.nil_append]
              subst last
              rw [Option.some.inj (stored.symm.trans found)]
            · rw [settled (mt (waits number).mp last), if_neg last, List.append_nil]
      | some items =>
          have part : ∀ entry ∈ (reward.entries (state.stored.length - 1)).take items,
              entry.number = state.stored.length - 1 :=
            fun entry mem => own entry (List.mem_of_mem_take mem)
          have empty : (reward.entries (state.stored.length - 1)).take items = [] ↔
              reward.itemList.take items = [] := by
            rw [Reward.entries, ← List.map_take, List.map_eq_nil_iff]
          have clean : state.Clean (some items) ↔
              (reward.entries (state.stored.length - 1)).take items = [] := by
            rw [State.Clean, slot, empty]
            simp
          rw [giveFightReward_raises slot, clean]
          refine ⟨{ inv with numbers := ?_ }, ?_, fun good => ?_⟩
          · intro entry mem
            rcases List.mem_append.mp mem with mem | mem
            · exact inv.numbers entry mem
            · have := part entry mem
              dsimp only
              omega
          · rintro (none | none)
            · rw [slot] at none
              cases none
            · cases none
          · constructor
            · rintro ⟨-, all⟩
              have pending := (all _ reward stored).1 ((waits _).mpr rfl)
              unfold State.addedFor at pending
              rw [List.filter_append, filter_entries part, if_pos rfl, List.append_eq_nil_iff]
                at pending
              exact pending.2
            · intro nothing
              rw [nothing, List.append_nil]
              exact good

theorem logout_spec (inv : Inv state) :
    Inv state.logout ∧ (Good state → (Good state.logout ↔ state.Settled)) := by
  refine ⟨⟨nofun, nofun, nofun, nofun, inv.numbers⟩, fun good => ?_⟩
  have gone : ∀ number, ¬ state.logout.Waits number := fun number waits =>
    absurd waits.1 Bool.false_ne_true
  constructor
  · intro kept reward slot
    obtain ⟨count, stored⟩ := inv.stored slot
    have pending := (good.2 _ reward stored).1 ⟨Option.isSome_of_eq_some slot, count⟩
    have settled := (kept.2 _ reward stored).2 (gone _)
    exact entries_eq_nil.mp (settled.symm.trans pending)
  · intro settled
    refine ⟨nofun, fun number reward found => ⟨fun waits => absurd waits (gone number), fun _ => ?_⟩⟩
    by_cases waits : state.Waits number
    · obtain ⟨last, slot⟩ := Option.isSome_iff_exists.mp waits.1
      obtain ⟨count, stored⟩ := inv.stored slot
      obtain rfl : number = state.stored.length - 1 := by
        have := waits.2
        omega
      obtain rfl := Option.some.inj (stored.symm.trans found)
      exact ((good.2 _ last found).1 waits).trans (entries_eq_nil.mpr (settled last slot)).symm
    · exact (good.2 number reward found).2 waits

theorem fight_spec (inv : Inv state) (bound : state.sockId.isSome) (reward : Reward) :
    Inv (state.fight reward) ∧ (Good state → (Good (state.fight reward) ↔ state.Settled)) := by
  have loaded := inv.bound bound
  have length : (state.stored ++ [reward]).length = state.stored.length + 1 := by simp
  refine ⟨⟨?_, fun _ => loaded, inv.bound, ?_, ?_⟩, fun good => ?_⟩
  · intro other slot
    cases slot
    exact List.getLast?_concat
  · intro timer
    have free := (inv.paid timer).2
    rw [free] at bound
    cases bound
  · intro entry mem
    change entry.number < (state.stored ++ [reward]).length
    rw [length]
    exact Nat.lt_succ_of_lt (inv.numbers entry mem)
  have waits : ∀ number, (state.fight reward).Waits number ↔ number = state.stored.length := by
    intro number
    change (some reward).isSome = true ∧ number + 1 = (state.stored ++ [reward]).length ↔ _
    simp
  have new : state.addedFor state.stored.length = [] := by
    refine List.filter_eq_nil_iff.mpr fun entry mem => ?_
    have := inv.numbers entry mem
    simp only [decide_eq_true_eq]
    omega
  constructor
  · intro kept last slot
    obtain ⟨count, stored⟩ := inv.stored slot
    have pending := (good.2 _ last stored).1 ⟨Option.isSome_of_eq_some slot, count⟩
    have found : (state.fight reward).stored[state.stored.length - 1]? = some last := by
      change (state.stored ++ [reward])[state.stored.length - 1]? = some last
      rw [List.getElem?_append_left (by omega)]
      exact stored
    have paid := (kept.2 _ last found).2 fun wait => by
      have := (waits _).mp wait
      omega
    exact entries_eq_nil.mp (paid.symm.trans pending)
  · intro settled
    refine ⟨fun _ => loaded, fun number other found => ⟨fun wait => ?_, fun other_waits => ?_⟩⟩
    · rw [(waits number).mp wait]
      exact new
    · have different := mt (waits number).mpr other_waits
      have old : state.stored[number]? = some other := by
        change (state.stored ++ [reward])[number]? = some other at found
        obtain ⟨bound, -⟩ := List.getElem?_eq_some_iff.mp found
        rwa [List.getElem?_append_left (by omega)] at found
      by_cases wait : state.Waits number
      · obtain ⟨last, slot⟩ := Option.isSome_iff_exists.mp wait.1
        obtain ⟨count, stored⟩ := inv.stored slot
        obtain rfl : number = state.stored.length - 1 := by
          have := wait.2
          omega
        obtain rfl := Option.some.inj (stored.symm.trans old)
        exact ((good.2 _ last old).1 wait).trans (entries_eq_nil.mpr (settled last slot)).symm
      · exact (good.2 number other old).2 wait

theorem onDisconnect_spec (inv : Inv state) (raises : Option ℕ) :
    Inv (state.onDisconnect raises) ∧
      (Good state → (Good (state.onDisconnect raises) ↔ state.Clean raises)) := by
  have dropped : Inv { state with timerLogout := false, sockId := (none : Option ι) } :=
    ⟨inv.last, inv.loaded, nofun, nofun, inv.numbers⟩
  obtain ⟨next, empties, exact_pay⟩ := giveFightReward_spec dropped raises
  have free : (State.giveFightReward
      { state with timerLogout := false, sockId := (none : Option ι) } raises).sockId = none := by
    unfold State.giveFightReward
    split
    · rfl
    · split <;> rfl
  unfold State.onDisconnect
  split
  · next returns =>
      refine ⟨{ next with paid := fun _ => ⟨empties returns, free⟩ },
        fun good => exact_pay good⟩
  · exact ⟨next, fun good => exact_pay good⟩

theorem step_spec {op : Op ι} (inv : Inv state) (taken : step state op = some after) :
    Inv after ∧ (Good state → (Good after ↔ Permitted state op)) := by
  cases op with
  | fight reward =>
      obtain ⟨bound, taken⟩ := Option.ite_none_right_eq_some.mp taken
      cases taken
      exact fight_spec inv bound reward
  | stageFightEnd raises =>
      obtain ⟨-, taken⟩ := Option.ite_none_right_eq_some.mp taken
      cases taken
      obtain ⟨next, -, exact_pay⟩ := giveFightReward_spec inv raises
      exact ⟨next, exact_pay⟩
  | disconnect raises =>
      obtain ⟨-, taken⟩ := Option.ite_none_right_eq_some.mp taken
      cases taken
      exact onDisconnect_spec inv raises
  | reconnect sock token =>
      obtain ⟨loaded, taken⟩ := Option.ite_none_right_eq_some.mp taken
      cases taken
      cases token with
      | false => exact ⟨inv, fun good => iff_of_true good trivial⟩
      | true =>
          exact ⟨⟨inv.last, inv.loaded, fun _ => loaded, nofun, inv.numbers⟩,
            fun good => iff_of_true good trivial⟩
  | login sock =>
      cases taken
      exact ⟨⟨inv.last, fun _ => rfl, fun _ => rfl, nofun, inv.numbers⟩,
        fun good => iff_of_true ⟨fun _ => rfl, good.2⟩ trivial⟩
  | otherLogin =>
      obtain ⟨-, taken⟩ := Option.ite_none_right_eq_some.mp taken
      cases taken
      exact logout_spec inv
  | clientQuit =>
      obtain ⟨-, taken⟩ := Option.ite_none_right_eq_some.mp taken
      cases taken
      exact logout_spec inv
  | kick =>
      obtain ⟨-, taken⟩ := Option.ite_none_right_eq_some.mp taken
      cases taken
      exact logout_spec inv
  | timer =>
      obtain ⟨pending, taken⟩ := Option.ite_none_right_eq_some.mp taken
      cases taken
      obtain ⟨next, exact_logout⟩ := logout_spec inv
      refine ⟨next, fun good => iff_of_true ((exact_logout good).mpr ?_) trivial⟩
      intro reward slot
      rw [(inv.paid pending).1] at slot
      cases slot

def coins : Reward := ⟨[⟨1, 10⟩, ⟨2, 20⟩], "stage"⟩

/-- A prize is collected, and another one is added by a disconnection. -/
def payingRun : List (Op ℕ) :=
  [.login 1, .fight coins, .stageFightEnd (some 0), .stageFightEnd none, .fight coins, .login 2,
    .disconnect none, .timer]

end UEServer.FightReward
