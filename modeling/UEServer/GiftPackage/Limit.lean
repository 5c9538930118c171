import Mathlib.Data.List.Perm.Basic
import Mathlib.Data.Int.Order.Basic
import Mathlib.Order.Basic
import UEServer.Library.Execution

/-!
# Gift packages

`daily_gift_package_activities_utils.lua`, with `create_gift_order` of `meta_table/recharge.lua` and the payment
notice `imitate_giftpackage_recharge` of `lua_handles/gm.lua`, for one role.  A coroutine yields at each call of the
database, which executes the statements in any order.  Times are local days.
-/

namespace UEServer.GiftPackage

/-- The `reset_cycle` of a gift: 1, 7 or 36500. -/
inductive ResetCycle where
  | day
  | week
  | forever
  deriving DecidableEq

/-- A row of `DailyGiftData`. -/
structure GiftData where
  limitNum : ℕ
  resetCycle : ResetCycle

/-- The cycle in which a day lies, where weeks begin on Mondays and day 0 is a Thursday. -/
def ResetCycle.cycleOf (resetCycle : ResetCycle) (day : ℤ) : ℤ :=
  match resetCycle with
  | .day => day
  | .week => (day + 3) / 7
  | .forever => 0

/-- An order of a gift, and its `status`: 0 until it is paid, and then 2. -/
structure GiftPackageOrder where
  orderId : ℕ
  giftId : ℕ
  status : ℕ

/-- What a coroutine is doing: a call of the database that has been sent, or has been answered. -/
inductive Flow where
  /-- The rows of a gift are to be counted, for an order or for a free gift. -/
  | counting (order : Bool) (gift : ℕ) (day : ℤ)
  | counted (order : Bool) (gift count : ℕ)
  | ordering (orderId gift : ℕ)
  /-- A payment notice reads the order. -/
  | reading (orderId : ℕ)
  | read (order : GiftPackageOrder)
  | marking (orderId gift : ℕ)
  | marked (gift : ℕ)
  /-- `purchase_info` inserts a row. -/
  | recording (gift : ℕ) (day : ℤ)
  | recorded (gift : ℕ)

structure State where
  today : ℤ
  /-- `t_dailygiftpackage`: the `reward_id` and the `reward_date` of each row. -/
  rows : List (ℕ × ℤ)
  orders : List GiftPackageOrder
  flows : List Flow
  /-- The gifts that have been added to the role, and the days. -/
  given : List (ℕ × ℤ)

/-- A role without gifts. -/
def State.start (today : ℤ) : State := ⟨today, [], [], [], []⟩

/-- The rows of a gift in the cycle of a day, among the rows or the gifts that have been given. -/
def countIn (data : GiftData) (rows : List (ℕ × ℤ)) (gift : ℕ) (cycle : ℤ) : ℕ :=
  rows.countP fun row => row.1 = gift ∧ data.resetCycle.cycleOf row.2 = cycle

variable (table : ℕ → Option GiftData)

/-- The database executes the statement of a coroutine: what the coroutine does next, if it has not ended, and the
state. -/
def execute (state : State) : Flow → Option (Option Flow × State)
  | .counting order gift day =>
      (table gift).map fun data =>
        (some (.counted order gift (countIn data state.rows gift (data.resetCycle.cycleOf day))), state)
  | .ordering orderId gift =>
      -- the order id is the primary key, and there is one order a second
      if state.orders.any (·.orderId = orderId) then some (none, state)
      else some (none, { state with orders := ⟨orderId, gift, 0⟩ :: state.orders })
  | .reading orderId => some ((state.orders.find? (·.orderId = orderId)).map .read, state)
  | .marking orderId gift =>
      some (some (.marked gift), { state with
        orders := state.orders.map fun order =>
          if order.orderId = orderId then { order with status := 2 } else order })
  | .recording gift day => some (some (.recorded gift), { state with rows := (gift, day) :: state.rows })
  | _ => none

/-- A coroutine goes on after an answer.  The number is the id of an order that it creates. -/
def resume (state : State) (orderId : ℕ) : Flow → Option (Option Flow × State)
  | .counted order gift count =>
      (table gift).map fun data =>
        if count ≥ data.limitNum then (none, state)
        else if order then (some (.ordering orderId gift), state)
        else (some (.recording gift state.today), state)
  | .read order =>
      if order.status ≠ 0 then some (none, state)
      else some (some (.marking order.orderId order.giftId), state)
  | .marked gift => some (some (.recording gift state.today), state)
  | .recorded gift => some (none, { state with given := (gift, state.today) :: state.given })
  | _ => none

inductive Event where
  | nextDay
  | createGiftOrder (gift : ℕ)
  | dailyZeroGift (gift : ℕ)
  /-- `imitate_giftpackage_recharge`. -/
  | pay (orderId : ℕ)
  | execute (place : ℕ)
  | resume (place orderId : ℕ)
  /-- A coroutine raises, at a call that fails or since there is no such role. -/
  | raise (place : ℕ)

/-- The coroutine at a place takes a stretch. -/
def State.stretch (state : State) (place : ℕ) (run : Flow → Option (Option Flow × State)) : Option State := do
  let flow ← state.flows[place]?
  let (next, after) ← run flow
  return { after with flows := next.toList ++ state.flows.eraseIdx place }

def step (state : State) : Event → Option State
  | .nextDay => some { state with today := state.today + 1 }
  | .createGiftOrder gift =>
      (table gift).map fun _ => { state with flows := .counting true gift state.today :: state.flows }
  | .dailyZeroGift gift =>
      (table gift).map fun _ => { state with flows := .counting false gift state.today :: state.flows }
  | .pay orderId => some { state with flows := .reading orderId :: state.flows }
  | .execute place => state.stretch place (execute table state)
  | .resume place orderId => state.stretch place (resume table state orderId)
  | .raise place => state.stretch place fun _ => some (none, state)

/-- No gift is given more often in a cycle than its limit says. -/
def Good (state : State) : Prop :=
  ∀ gift data cycle, table gift = some data → countIn data state.given gift cycle ≤ data.limitNum

/-- The coroutine has passed the test of the limit, and its gift has not been given. -/
@[simp]
def Flow.passed (gift : ℕ) : Flow → Bool
  | .ordering _ other | .marked other | .recording other _ | .recorded other => other = gift
  | _ => false

def openOrders (orders : List GiftPackageOrder) (gift : ℕ) : ℕ :=
  orders.countP fun order => order.giftId = gift ∧ order.status = 0

/-- The gifts that are still to be given: by a coroutine, or when an order is paid. -/
def State.pending (state : State) (gift : ℕ) : ℕ :=
  state.flows.countP (Flow.passed gift) + openOrders state.orders gift

/-- A coroutine passes the test only if there is room for its gift beside those of the cycle and those that are
still to be given, and a payment notice marks only an order that no other one has marked since it was read. -/
def Permitted (state : State) : Event → Prop
  | .resume place _ =>
      ∀ order gift count data, state.flows[place]? = some (.counted order gift count) → table gift = some data →
        count < data.limitNum →
          countIn data state.given gift (data.resetCycle.cycleOf state.today) + state.pending gift < data.limitNum
  | .execute place =>
      ∀ orderId gift, state.flows[place]? = some (.marking orderId gift) →
        ∃ order ∈ state.orders, order.orderId = orderId ∧ order.giftId = gift ∧ order.status = 0
  | _ => True

/-- The invariant: there is room for the gifts that are still to be given. -/
structure Inv (state : State) : Prop where
  good : Good table state
  room : ∀ gift data, table gift = some data →
    countIn data state.given gift (data.resetCycle.cycleOf state.today) + state.pending gift ≤ data.limitNum
  past : ∀ row ∈ state.given, row.2 ≤ state.today

variable {table} {state after : State}

theorem cycleOf_mono (resetCycle : ResetCycle) {day later : ℤ} (le : day ≤ later) :
    resetCycle.cycleOf day ≤ resetCycle.cycleOf later := by
  cases resetCycle with
  | day => exact le
  | week =>
    simp only [ResetCycle.cycleOf]
    omega
  | forever => exact le_rfl

theorem countP_stretch {flows : List Flow} {place : ℕ} {flow : Flow} (found : flows[place]? = some flow)
    (next : Option Flow) (passes : Flow → Bool) :
    (next.toList ++ flows.eraseIdx place).countP passes + (if passes flow then 1 else 0) =
      flows.countP passes + next.toList.countP passes := by
  obtain ⟨inside, rfl⟩ := List.getElem?_eq_some_iff.mp found
  have erased := (List.getElem_cons_eraseIdx_perm inside).countP_eq passes
  rw [List.countP_cons] at erased
  rw [List.countP_append]
  omega

theorem stretch_eq_some {run : Flow → Option (Option Flow × State)} {place : ℕ}
    (taken : state.stretch place run = some after) :
    ∃ flow next other, state.flows[place]? = some flow ∧ run flow = some (next, other) ∧
      after = { other with flows := next.toList ++ state.flows.eraseIdx place } := by
  obtain ⟨flow, found, rest⟩ := Option.bind_eq_some_iff.mp taken
  obtain ⟨⟨next, other⟩, ran, same⟩ := Option.bind_eq_some_iff.mp rest
  exact ⟨flow, next, other, found, ran, (Option.some.inj same).symm⟩

/-- When an open order is marked, there is one open order less of its gift, and there are no more of the others. -/
theorem countP_marked {orders : List GiftPackageOrder} {order : GiftPackageOrder} (mem : order ∈ orders)
    (unpaid : order.status = 0) (gift : ℕ) :
    openOrders (orders.map fun other =>
        if other.orderId = order.orderId then { other with status := 2 } else other) gift +
      (if order.giftId = gift then 1 else 0) ≤ openOrders orders gift := by
  have others : ∀ orders : List GiftPackageOrder,
      openOrders (orders.map fun other =>
        if other.orderId = order.orderId then { other with status := 2 } else other) gift ≤
      openOrders orders gift := by
    intro orders
    rw [openOrders, openOrders, List.countP_map]
    refine List.countP_mono_left fun other _ kept => ?_
    by_cases same : other.orderId = order.orderId
    · simp [same] at kept
    · simpa [same] using kept
  obtain ⟨front, back, rfl⟩ := List.append_of_mem mem
  have before := others front
  have behind := others back
  simp only [openOrders] at before behind ⊢
  simp only [List.map_append, List.map_cons, List.countP_append, List.countP_cons, unpaid, if_true, and_true,
    decide_eq_true_eq]
  simp only [show ¬ (order.giftId = gift ∧ 2 = 0) by omega, if_false]
  omega

/-- At most one gift is given by a stretch, and there is room for what is still to be given. -/
theorem Inv.of_room (inv : Inv table state) (today : after.today = state.today)
    (given : after.given = state.given ∨ ∃ gift, after.given = (gift, state.today) :: state.given)
    (room : ∀ gift data, table gift = some data →
      countIn data after.given gift (data.resetCycle.cycleOf state.today) + after.pending gift ≤ data.limitNum) :
    Inv table after where
  good := by
    intro gift data cycle found
    by_cases current : data.resetCycle.cycleOf state.today = cycle
    · have fits := room gift data found
      rw [current] at fits
      omega
    · have kept := inv.good gift data cycle found
      obtain same | ⟨other, same⟩ := given
      · rwa [same]
      · rwa [same, countIn, List.countP_cons_of_neg (by simp [current])]
  room := by
    rw [today]
    exact room
  past := by
    rw [today]
    obtain same | ⟨other, same⟩ := given
    · rw [same]
      exact inv.past
    · rw [same, List.forall_mem_cons]
      exact ⟨le_rfl, inv.past⟩

/-- A stretch that gives nothing, and passes on what its coroutine had to give. -/
theorem Inv.stretch {place : ℕ} {flow : Flow} {next : Option Flow} (inv : Inv table state)
    (found : state.flows[place]? = some flow) (today : after.today = state.today) (given : after.given = state.given)
    (flows : after.flows = next.toList ++ state.flows.eraseIdx place)
    (room : ∀ gift data, table gift = some data →
      next.toList.countP (Flow.passed gift) + openOrders after.orders gift ≤
          (if flow.passed gift then 1 else 0) + openOrders state.orders gift ∨
        next.toList.countP (Flow.passed gift) + openOrders after.orders gift ≤ 1 + openOrders state.orders gift ∧
          countIn data state.given gift (data.resetCycle.cycleOf state.today) + state.pending gift < data.limitNum) :
    Inv table after := by
  refine inv.of_room today (.inl given) fun gift data tabled => ?_
  have changed := countP_stretch found next (Flow.passed gift)
  have fits := inv.room gift data tabled
  have fewer := room gift data tabled
  rw [State.pending] at fits fewer
  rw [given, State.pending, flows]
  split at changed
  · rename_i passed
    rw [if_pos passed] at fewer
    omega
  · rename_i passed
    rw [if_neg passed] at fewer
    omega

theorem Inv.nextDay (inv : Inv table state) : Inv table { state with today := state.today + 1 } where
  good := inv.good
  room := by
    intro gift data found
    refine Nat.le_trans (Nat.add_le_add_right ?_ _) (inv.room gift data found)
    by_cases same : data.resetCycle.cycleOf (state.today + 1) = data.resetCycle.cycleOf state.today
    · exact Nat.le_of_eq (by rw [same])
    · refine Nat.le_trans (Nat.le_of_eq (List.countP_eq_zero.mpr fun row mem => ?_)) (Nat.zero_le _)
      have before := cycleOf_mono data.resetCycle (inv.past row mem)
      have after := cycleOf_mono data.resetCycle (show state.today ≤ state.today + 1 by omega)
      simp only [decide_eq_true_eq, not_and]
      omega
  past := fun row mem => (inv.past row mem).trans (by change _ ≤ _ + 1; omega)

/-- A statement is executed: an order that is marked is open no more when its payment goes on. -/
theorem Inv.execute {place : ℕ} (inv : Inv table state) (permitted : Permitted table state (.execute place))
    (taken : state.stretch place (execute table state) = some after) : Inv table after := by
  obtain ⟨flow, next, other, found, ran, rfl⟩ := stretch_eq_some taken
  simp only [Permitted, found, Option.some.injEq] at permitted
  cases flow with
  | counting order gift day =>
      obtain ⟨data, -, same⟩ := Option.map_eq_some_iff.mp ran
      cases same
      exact inv.stretch found rfl rfl rfl fun _ _ _ => .inl (by simp)
  | ordering orderId gift =>
      rw [GiftPackage.execute] at ran
      split at ran
      · cases ran
        exact inv.stretch found rfl rfl rfl fun _ _ _ => .inl (by simp)
      · cases ran
        refine inv.stretch found rfl rfl rfl fun _ _ _ => .inl ?_
        simp [openOrders, List.countP_cons, Nat.add_comm]
  | reading orderId =>
      cases ran
      refine inv.stretch found rfl rfl rfl fun _ _ _ => .inl ?_
      cases state.orders.find? (·.orderId = orderId) <;> simp
  | marking orderId gift =>
      cases ran
      obtain ⟨order, mem, rfl, rfl, unpaid⟩ := permitted orderId gift rfl
      refine inv.stretch found rfl rfl rfl fun other _ _ => .inl ?_
      have marked := countP_marked mem unpaid other
      simpa [List.countP_singleton, Nat.add_comm] using marked
  | recording gift day =>
      cases ran
      exact inv.stretch found rfl rfl rfl fun _ _ _ => .inl (by simp [List.countP_singleton])
  | counted | read | marked | recorded => cases ran

/-- A coroutine goes on: one that passes the test finds room for its gift. -/
theorem Inv.resume {place orderId : ℕ} (inv : Inv table state) (permitted : Permitted table state (.resume place orderId))
    (taken : state.stretch place (resume table state orderId) = some after) : Inv table after := by
  obtain ⟨flow, next, other, found, ran, rfl⟩ := stretch_eq_some taken
  simp only [Permitted, found, Option.some.injEq] at permitted
  cases flow with
  | counted order gift count =>
      obtain ⟨data, tabled, same⟩ := Option.map_eq_some_iff.mp ran
      split at same
      · cases same
        exact inv.stretch found rfl rfl rfl fun _ _ _ => .inl (by simp)
      · rename_i below
        have room := permitted order gift count data rfl tabled (Nat.lt_of_not_le below)
        -- an order is inserted, or the row of a free gift
        split at same <;>
          · cases same
            refine inv.stretch found rfl rfl rfl fun another data' tabled' => ?_
            by_cases same : gift = another
            · subst same
              cases tabled.symm.trans tabled'
              exact .inr ⟨by simp, room⟩
            · exact .inl (by simp [same])
  | read order =>
      rw [GiftPackage.resume] at ran
      split at ran
      · cases ran
        exact inv.stretch found rfl rfl rfl fun _ _ _ => .inl (by simp)
      · cases ran
        exact inv.stretch found rfl rfl rfl fun _ _ _ => .inl (by simp)
  | marked gift =>
      cases ran
      exact inv.stretch found rfl rfl rfl fun _ _ _ => .inl (by simp [List.countP_singleton])
  | recorded gift =>
      cases ran
      refine inv.of_room rfl (.inr ⟨gift, rfl⟩) fun another data tabled => ?_
      have fewer := countP_stretch found none (Flow.passed another)
      have fits := inv.room another data tabled
      simp only [Flow.passed, decide_eq_true_eq, Option.toList_none, List.countP_nil, State.pending] at fewer fits ⊢
      rw [countIn] at fits
      rw [countIn, List.countP_cons]
      simp only [and_true, decide_eq_true_eq]
      omega
  | counting | ordering | reading | marking | recording => cases ran

theorem Inv.step {event : Event} (inv : Inv table state) (permitted : Permitted table state event)
    (taken : step table state event = some after) : Inv table after := by
  cases event with
  | nextDay =>
      cases taken
      exact inv.nextDay
  | createGiftOrder gift | dailyZeroGift gift =>
      obtain ⟨data, -, rfl⟩ := Option.map_eq_some_iff.mp taken
      refine inv.of_room rfl (.inl rfl) fun other data found => ?_
      simpa [State.pending] using inv.room other data found
  | pay orderId =>
      cases taken
      refine inv.of_room rfl (.inl rfl) fun other data found => ?_
      simpa [State.pending] using inv.room other data found
  | execute place => exact inv.execute permitted taken
  | resume place orderId => exact inv.resume permitted taken
  | raise place =>
      obtain ⟨flow, next, other, found, ran, rfl⟩ := stretch_eq_some taken
      cases ran
      exact inv.stretch found rfl rfl rfl fun _ _ _ => .inl (by simp)

theorem Inv.start (table : ℕ → Option GiftData) (today : ℤ) : Inv table (.start today) where
  good := fun _ _ _ _ => Nat.zero_le _
  room := fun _ _ _ => Nat.zero_le _
  past := nofun

/-- A gift that can be bought once a day. -/
def onceADay : ℕ → Option GiftData := fun gift => if gift = 1 then some ⟨1, .day⟩ else none

/-- The role orders the gift. -/
def ordered (orderId : ℕ) : List Event := [.createGiftOrder 1, .execute 0, .resume 0 orderId, .execute 0]

def paid (orderId : ℕ) : List Event :=
  [.pay orderId, .execute 0, .resume 0 0, .execute 0, .resume 0 0, .execute 0, .resume 0 0]

/-- **The limits of the gifts hold** in every run in which each request that passes the test finds room for its gift
beside the gifts of the cycle and those that are still to be given, and no two notices pay one order. -/
theorem gifts_within_limit (table : ℕ → Option GiftData) (today : ℤ) (events : List Event)
    (guarded : Execution.Guarded (step table) (Permitted table) (.start today) events) :
    Execution.Always (step table) (Good table) (.start today) events :=
  (Execution.always_of_guarded Inv.step guarded (.start table today)).mono fun _ => Inv.good

theorem gifts_within_limit_ordered :
    Execution.Always (step onceADay) (Good onceADay) (.start 0) (ordered 7 ++ paid 7) :=
  gifts_within_limit onceADay 0 _ (by
    simp [ordered, paid, Execution.Guarded, Permitted, step, State.stretch, execute, resume, onceADay, countIn,
      State.start, State.pending, openOrders, ResetCycle.cycleOf])

/-- Two orders are created before either is paid, and both are delivered. -/
theorem orderedTwice_exceeds :
    ¬ Execution.Always (step onceADay) (Good onceADay) (.start 0) (ordered 7 ++ ordered 8 ++ paid 7 ++ paid 8) := by
  intro always
  have final : Execution.run (step onceADay) (.start 0) (ordered 7 ++ ordered 8 ++ paid 7 ++ paid 8) =
      some ⟨0, [(1, 0), (1, 0)], [⟨8, 1, 2⟩, ⟨7, 1, 2⟩], [], [(1, 0), (1, 0)]⟩ := rfl
  have within := always.last final 1 ⟨1, .day⟩ 0 rfl
  revert within
  decide

end UEServer.GiftPackage
