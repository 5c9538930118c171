import UEServer.Library.Ticket
import UEServer.PayOrder.Basic

/-!
# When a paid order delivers once

The agent records the status of an order but never reads it, and the world records nothing except
for gifts.  If no callback is repeated, no unit is given twice.
-/

namespace UEServer.PayOrder

/-- Nothing has been recorded that keeps what is paid for from being given. -/
def Unpaid (state : State) : Key → Prop
  | .transaction transactionId => ∀ row, state.payOrders transactionId = some row →
      row.status = none
  | .order type orderId =>
      if type = 5 then ∀ orderInfo, state.orders 5 orderId = some orderInfo → orderInfo.status = 0
      else (type, orderId) ∉ state.asked

/-- A request that will record what it gives before it gives it. -/
def Call.Claiming : Call → Prop
  | .load _ _ => True
  | .query type _ _ _ => type = 5
  | _ => False

def Call.Seen (state : State) : Call → Prop
  | .load args (some _) => args.status ≠ none
  | .query type orderId _ (some _) =>
      if type = 5 then ∃ orderInfo, state.orders 5 orderId = some orderInfo
      else (type, orderId) ∈ state.asked
  | _ => True

/-- What holds if no callback is repeated. -/
structure Single (state : State) : Prop where
  /-- Each request gives for a key of its own, units that were not given. -/
  tickets : Ticket.Valid (state.calls.filterMap Call.hold) state.grants
  ungiven : ∀ key, Unpaid state key → ∀ unit, (key, unit) ∉ state.grants
  /-- A request that gives without recording does so for what is recorded. -/
  claiming : ∀ key, Unpaid state key → ∀ call ∈ state.calls, ∀ next,
    call.hold = some (key, next) → call.Claiming
  seen : ∀ call ∈ state.calls, call.Seen state

section
variable {state : State}

variable {call : Call}

theorem Call.Seen.mono {after : State} (seen : call.Seen state)
    (gifts : ∀ orderId, (∃ orderInfo, state.orders 5 orderId = some orderInfo) →
      ∃ orderInfo, after.orders 5 orderId = some orderInfo)
    (asked : ∀ order ∈ state.asked, order ∈ after.asked) : call.Seen after := by
  cases call with
  | load args row => cases row <;> exact seen
  | query type orderId uuid orderInfo =>
      cases orderInfo with
      | none => trivial
      | some orderInfo =>
          simp only [Call.Seen] at seen ⊢
          split at seen
          · rename_i gift
            rw [if_pos gift]
            exact gifts orderId seen
          · rename_i not_gift
            rw [if_neg not_gift]
            exact asked _ seen
  | check args serverOrder => trivial
  | insert => trivial
  | save args row => trivial
  | update orderId uuid orderInfo => trivial
  | deliver key next last => trivial

/-- What a request may give when it has taken its ticket out of the list. -/
def Free (state : State) (key : Key) (next : Nat) : Prop :=
  Idle state key ∧ ∀ unit, (key, unit) ∈ state.grants → unit < next

theorem erase_single (single : Single state) (mem : call ∈ state.calls) :
    Single { state with calls := state.calls.erase call } ∧
      ∀ key next, call.hold = some (key, next) →
        Free { state with calls := state.calls.erase call } key next := by
  obtain ⟨tickets, free⟩ := single.tickets.leave mem
  refine ⟨⟨tickets, single.ungiven, ?_, ?_⟩, free⟩
  · exact fun key unpaid other later => single.claiming key unpaid other (List.mem_of_mem_erase later)
  · exact fun other later => single.seen other (List.mem_of_mem_erase later)

theorem wait_idle_single (single : Single state) (holds : call.hold = none)
    (seen : call.Seen state) : Single (state.wait call) := by
  refine ⟨?_, single.ungiven, ?_, ?_⟩
  · change Ticket.Valid ((call :: state.calls).filterMap Call.hold) state.grants
    rw [List.filterMap_cons_none holds]
    exact single.tickets
  · intro key unpaid other mem next held
    rcases List.mem_cons.mp mem with rfl | before
    · rw [holds] at held
      cases held
    · exact single.claiming key unpaid other before next held
  · intro other mem
    rcases List.mem_cons.mp mem with rfl | before
    · exact seen
    · exact single.seen other before

theorem wait_single (single : Single state) {key : Key} {next : Nat}
    (holds : call.hold = some (key, next)) (free : Free state key next)
    (claiming : Unpaid state key → call.Claiming) (seen : call.Seen state) :
    Single (state.wait call) := by
  refine ⟨?_, single.ungiven, ?_, ?_⟩
  · change Ticket.Valid ((call :: state.calls).filterMap Call.hold) state.grants
    rw [List.filterMap_cons_some holds]
    exact single.tickets.acquire free.1 free.2
  · intro other unpaid party mem unit held
    rcases List.mem_cons.mp mem with rfl | before
    · rw [holds] at held
      cases held
      exact claiming unpaid
    · exact single.claiming other unpaid party before unit held
  · intro other mem
    rcases List.mem_cons.mp mem with rfl | before
    · exact seen
    · exact single.seen other before

theorem record_single (single : Single state) {payOrders : Nat → Option Row}
    {orders : Nat → Nat → Option ServerOrder} {asked : List (Nat × Nat)} {known online : Nat → Bool}
    (recorded : ∀ key, Unpaid { state with
      payOrders := payOrders, orders := orders, asked := asked, known := known, online := online }
      key → Unpaid state key)
    (seen : ∀ call : Call, call.Seen state → call.Seen { state with
      payOrders := payOrders, orders := orders, asked := asked, known := known
      online := online }) :
    Single { state with
      payOrders := payOrders, orders := orders, asked := asked, known := known
      online := online } := by
  refine ⟨single.tickets, ?_, ?_, ?_⟩
  · exact fun key unpaid => single.ungiven key (recorded key unpaid)
  · exact fun key unpaid => single.claiming key (recorded key unpaid)
  · exact fun call mem => seen call (single.seen call mem)

theorem give_single (single : Single state) {key : Key} {next : Nat} (free : Free state key next)
    (paid : ¬ Unpaid state key) :
    Single (state.give key next) ∧ Free (state.give key next) key (next + 1) := by
  refine ⟨⟨?_, ?_, single.claiming, single.seen⟩, free.1, Ticket.ahead_of_give free.2⟩
  · exact single.tickets.give free.1 free.2
  · intro other unpaid unit given
    rcases List.mem_append.mp given with before | now
    · exact single.ungiven other unpaid unit before
    · cases List.mem_singleton.mp now
      exact paid unpaid

theorem savePayOrder_single (single : Single state) (args : PayArgs) :
    Single (state.savePayOrder args) := by
  unfold State.savePayOrder
  split
  · exact single
  · rename_i missing
    refine record_single single (fun key unpaid => ?_) (fun call seen => seen)
    cases key with
    | order type orderId => exact unpaid
    | transaction transactionId =>
        intro row recorded
        refine unpaid row ?_
        change Function.update state.payOrders args.transactionId _ transactionId = some row
        rw [Function.update_of_ne, recorded]
        rintro rfl
        rw [missing] at recorded
        cases recorded

theorem saveStatus_single (single : Single state) {args : PayArgs} (row : Row)
    (status : args.status ≠ none) :
    Single (state.saveStatus args row) ∧
      ¬ Unpaid (state.saveStatus args row) (.transaction args.transactionId) := by
  obtain ⟨code, given⟩ := Option.ne_none_iff_exists'.mp status
  have paid : ¬ Unpaid (state.saveStatus args row) (.transaction args.transactionId) := by
    intro unpaid
    have none_given := unpaid _ (Function.update_self ..)
    simp [given] at none_given
  refine ⟨record_single single (fun key unpaid => ?_) (fun call seen => seen), paid⟩
  cases key with
  | order type orderId => exact unpaid
  | transaction transactionId =>
      by_cases same : transactionId = args.transactionId
      · subst same
        exact absurd unpaid paid
      · intro other recorded
        refine unpaid other ?_
        change Function.update state.payOrders args.transactionId _ transactionId = some other
        rw [Function.update_of_ne same, recorded]

theorem useGift_single (single : Single state) {orderId : Nat}
    (created : ∃ orderInfo, state.orders 5 orderId = some orderInfo) :
    Single (state.useGift orderId) ∧ ¬ Unpaid (state.useGift orderId) (.order 5 orderId) := by
  obtain ⟨orderInfo, stored⟩ := created
  have orders : ∀ type other, (state.useGift orderId).orders type other =
      if type = 5 ∧ other = orderId then some { orderInfo with status := 2 }
      else state.orders type other := by
    intro type other
    simp only [State.useGift, Function.update_apply, stored, Option.map_some]
    by_cases gift : type = 5
    · by_cases same : other = orderId <;> simp [gift, same]
    · simp [gift]
  have paid : ¬ Unpaid (state.useGift orderId) (.order 5 orderId) := by
    intro unpaid
    have unused := unpaid _ ((orders 5 orderId).trans (if_pos ⟨rfl, rfl⟩))
    cases unused
  refine ⟨record_single single (fun key unpaid => ?_) (fun call seen => ?_), paid⟩
  · cases key with
    | transaction transactionId => exact unpaid
    | order type other =>
        by_cases gift : type = 5
        · subst gift
          by_cases same : other = orderId
          · subst same
            exact absurd unpaid paid
          · intro info found
            refine unpaid info ?_
            rw [← found]
            exact (orders 5 other).trans (if_neg fun both => same both.2)
        · simp only [Unpaid, if_neg gift] at unpaid ⊢
          exact unpaid
  · refine seen.mono (fun other created => ?_) (fun order asked => asked)
    obtain ⟨info, found⟩ := created
    by_cases same : other = orderId
    · exact ⟨_, (orders 5 other).trans (if_pos ⟨rfl, same⟩)⟩
    · exact ⟨info, (orders 5 other).trans ((if_neg fun both => same both.2).trans found)⟩

theorem resume_single (single : Single state)
    (free : ∀ key next, call.hold = some (key, next) → Free state key next)
    (claiming : ∀ key, Unpaid state key → ∀ next, call.hold = some (key, next) → call.Claiming)
    (seen : call.Seen state) : Single (state.resume call) := by
  cases call with
  | load args row =>
      cases row with
      | none => exact wait_idle_single single rfl trivial
      | some row =>
          obtain ⟨recorded, paid⟩ := saveStatus_single single row seen
          exact wait_single recorded rfl (free _ _ rfl) (fun unpaid => absurd unpaid paid) trivial
  | check args serverOrder =>
      simp only [State.resume]
      split
      · exact wait_idle_single (savePayOrder_single single args) rfl trivial
      · exact single
  | insert => exact single
  | save args row =>
      simp only [State.resume]
      split
      · exact wait_single single rfl (free _ _ rfl)
          (fun unpaid => claiming _ unpaid 0 rfl) trivial
      · exact single
  | query type orderId uuid orderInfo =>
      cases orderInfo with
      | none => exact single
      | some orderInfo =>
          simp only [State.resume]
          split
          · rename_i gift
            subst gift
            split
            · rename_i unused
              have holds : (Call.query 5 orderId uuid (some orderInfo)).hold =
                  some (.order 5 orderId, 0) := by
                simp [Call.hold, unused.1]
              obtain ⟨recorded, paid⟩ := useGift_single single seen
              exact wait_single recorded rfl (free _ _ holds) (fun unpaid => absurd unpaid paid)
                trivial
            · exact single
          · rename_i not_gift
            have holds : (Call.query type orderId uuid (some orderInfo)).hold =
                some (.order type orderId, 0) := by
              simp [Call.hold, not_gift]
            split
            · refine wait_single single rfl (free _ _ holds) (fun unpaid => ?_) trivial
              exact absurd (claiming _ unpaid 0 holds) not_gift
            · exact single
  | update orderId uuid orderInfo =>
      simp only [State.resume]
      split
      · exact wait_single single rfl (free _ _ rfl)
          (fun unpaid => claiming _ unpaid 0 rfl) trivial
      · exact single
  | deliver key next last =>
      simp only [State.resume]
      split
      · have paid : ¬ Unpaid state key := fun unpaid => claiming key unpaid next rfl
        obtain ⟨given, ahead⟩ := give_single single (free key next rfl) paid
        exact wait_single given rfl ahead (fun unpaid => absurd unpaid paid) trivial
      · exact single

/-- No request gives for an order of the world that has not been asked for. -/
theorem Single.idle_of_unasked (single : Single state) {type orderId : Nat} (not_gift : type ≠ 5)
    (unasked : (type, orderId) ∉ state.asked) : Idle state (.order type orderId) := by
  intro held
  obtain ⟨⟨key, next⟩, mem, same⟩ := List.mem_map.mp held
  obtain rfl : key = .order type orderId := same
  obtain ⟨call, waits, holds⟩ := List.mem_filterMap.mp mem
  have unpaid : Unpaid state (.order type orderId) := by
    simpa only [Unpaid, if_neg not_gift] using unasked
  have claims := single.claiming _ unpaid call waits next holds
  cases call with
  | load args row => cases row <;> cases holds
  | query other otherId uuid orderInfo =>
      cases orderInfo with
      | none => cases holds
      | some orderInfo =>
          simp only [Call.hold] at holds
          split at holds
          · cases holds
          · obtain ⟨sameKey, -⟩ := Prod.mk.inj (Option.some.inj holds)
            cases sameKey
            exact not_gift claims
  | check args serverOrder => cases claims
  | insert => cases claims
  | save args row => cases claims
  | update orderId uuid orderInfo => cases claims
  | deliver key next last => cases claims

/-- The world asks for an order that it has not asked for, or for a gift. -/
theorem sendRecharge_single (single : Single state) {type orderId uuid : Nat}
    (allowed : OneCallback state (.sendRecharge type orderId uuid)) :
    Single (state.sendRecharge type orderId uuid) := by
  unfold State.sendRecharge
  split
  · cases stored : state.orders type orderId with
    | none => exact wait_idle_single single rfl trivial
    | some orderInfo =>
        have fresh := allowed orderInfo stored
        let asked : State := { state with asked := (type, orderId) :: state.asked }
        have recorded : Single asked := by
          refine record_single single (fun key unpaid => ?_) (fun call seen => ?_)
          · cases key with
            | transaction transactionId => exact unpaid
            | order other otherId =>
                simp only [Unpaid] at unpaid ⊢
                split at unpaid
                · rename_i gift
                  rw [if_pos gift]
                  exact unpaid
                · rename_i not_gift
                  rw [if_neg not_gift]
                  exact fun before => unpaid (List.mem_cons_of_mem _ before)
          · exact seen.mono (fun _ created => created)
              (fun order before => List.mem_cons_of_mem _ before)
        by_cases gift : type = 5
        · subst gift
          have seen : (Call.query 5 orderId uuid (some orderInfo)).Seen asked := by
            simpa only [Call.Seen, if_pos] using ⟨orderInfo, stored⟩
          by_cases used : orderInfo.status ≠ 0
          · exact wait_idle_single recorded (by simp [Call.hold, used]) seen
          · have idle := fresh.resolve_left used
            have unpaid : Unpaid state (.order 5 orderId) := by
              intro other found
              cases stored.symm.trans found
              exact not_not.mp used
            have holds : (Call.query 5 orderId uuid (some orderInfo)).hold =
                some (.order 5 orderId, 0) := by
              simp [Call.hold, not_not.mp used]
            refine wait_single recorded holds ⟨idle, fun unit given => ?_⟩ (fun _ => rfl) seen
            exact absurd given (single.ungiven _ unpaid unit)
        · rw [if_neg gift] at fresh
          have unpaid : Unpaid state (.order type orderId) := by
            simpa only [Unpaid, if_neg gift] using fresh
          have holds : (Call.query type orderId uuid (some orderInfo)).hold =
              some (.order type orderId, 0) := by
            simp [Call.hold, gift]
          refine wait_single recorded holds
            ⟨single.idle_of_unasked gift fresh, fun unit given => ?_⟩ (fun again => ?_) ?_
          · exact absurd given (single.ungiven _ unpaid unit)
          · simp only [Unpaid, if_neg gift] at again
            exact absurd List.mem_cons_self again
          · simpa only [Call.Seen, if_neg gift] using List.mem_cons_self
  · exact single

theorem createOrder_single (single : Single state) {type orderId itemId localPrice productNumber : Nat}
    (missing : state.orders type orderId = none) :
    Single (state.createOrder type orderId itemId localPrice productNumber) := by
  have kept : ∀ otherId orderInfo, state.orders 5 otherId = some orderInfo →
      (state.createOrder type orderId itemId localPrice productNumber).orders 5 otherId =
        some orderInfo := by
    intro otherId orderInfo found
    simp only [State.createOrder, Function.update_apply]
    split
    · rename_i gift
      subst gift
      rw [Function.update_of_ne, found]
      rintro rfl
      rw [missing] at found
      cases found
    · exact found
  refine record_single single (fun key unpaid => ?_) (fun call seen => ?_)
  · cases key with
    | transaction transactionId => exact unpaid
    | order other otherId =>
        simp only [Unpaid] at unpaid ⊢
        split at unpaid
        · rename_i gift
          rw [if_pos gift]
          exact fun orderInfo found => unpaid orderInfo (kept otherId orderInfo found)
        · rename_i not_gift
          rw [if_neg not_gift]
          exact unpaid
  · refine seen.mono (fun otherId created => ?_) (fun order before => before)
    obtain ⟨orderInfo, found⟩ := created
    exact ⟨orderInfo, kept otherId orderInfo found⟩

theorem step_single {after : State} {label : Label} (single : Single state)
    (allowed : OneCallback state label) (taken : step state label = some after) :
    Single after := by
  cases label with
  | doPay args =>
      cases taken
      cases stored : state.payOrders args.transactionId with
      | none => exact wait_idle_single single rfl trivial
      | some row =>
          obtain ⟨unset, status, idle⟩ := allowed row stored
          have unpaid : Unpaid state (.transaction args.transactionId) := by
            intro other found
            cases stored.symm.trans found
            exact unset
          refine wait_single single rfl ⟨idle, fun unit given => ?_⟩ (fun _ => trivial) status
          exact absurd given (single.ungiven _ unpaid unit)
  | sendRecharge type orderId uuid =>
      cases taken
      exact sendRecharge_single single allowed
  | resume call =>
      simp only [step] at taken
      split at taken
      · rename_i mem
        cases taken
        obtain ⟨erased, free⟩ := erase_single single mem
        exact resume_single erased free
          (fun key unpaid next => single.claiming key unpaid call mem next) (single.seen call mem)
      · cases taken
  | raised call =>
      simp only [step] at taken
      split at taken
      · rename_i mem
        cases taken
        exact (erase_single single mem).1
      · cases taken
  | createOrder type orderId itemId localPrice productNumber =>
      simp only [step] at taken
      split at taken
      · rename_i missing
        cases taken
        exact createOrder_single single missing
      · cases taken
  | createRole uuid =>
      cases taken
      exact record_single single (fun key unpaid => unpaid) (fun call seen => seen)
  | setOnline uuid online =>
      cases taken
      exact record_single single (fun key unpaid => unpaid) (fun call seen => seen)
  | restart =>
      cases taken
      refine ⟨single.tickets.sublist (List.nil_sublist _), single.ungiven, ?_, ?_⟩
      · exact fun key unpaid call mem => by cases mem
      · exact fun call mem => by cases mem

end

theorem initial_single (rechargeData : Nat → Bool) : Single (initial rechargeData) := by
  refine ⟨Ticket.valid_nil, fun key _ unit given => ?_, fun key _ call mem => ?_, fun call mem => ?_⟩
  · cases given
  · cases mem
  · cases mem

/-- If no callback is repeated, no unit of what is paid for is given twice. -/
theorem pay_grantedOnce {rechargeData : Nat → Bool} {labels : List Label}
    (guarded : Execution.Guarded step OneCallback (initial rechargeData) labels) :
    Execution.Always step GrantedOnce (initial rechargeData) labels := by
  have always := Execution.always_of_guarded step_single guarded (initial_single rechargeData)
  exact always.mono fun state single => single.tickets.nodup

/-- A callback for an order of one unit of item 3. -/
def callback (status : Option Nat) : PayArgs :=
  { transactionId := 1, orderId := 2, itemId := 3, unitPrice := 6, quantity := 1, uuid := 9
    type := 1, status }

/-- The callback that tells the status of the recorded order, up to its end. -/
def statusCallback (before : Option Nat) : List Label :=
  let row : Row := { orderId := 2, itemId := 3, unitPrice := 6, quantity := 1, status := before }
  [.doPay (callback (some 1)), .resume (.load (callback (some 1)) (some row)),
    .resume (.save (callback (some 1)) row), .resume (.deliver (.transaction 1) 0 1),
    .resume (.deliver (.transaction 1) 1 1)]

/-- An order is created, the channel announces its transaction, and tells its status once. -/
def paidRun : List Label :=
  [.createRole 9, .setOnline 9 true, .createOrder 1 2 3 6 1, .doPay (callback none),
    .resume (.load (callback none) none),
    .resume (.check (callback none)
      (some { itemId := 3, status := 0, localPrice := 6, productNumber := 1 })),
    .resume .insert] ++ statusCallback none

theorem pay_grantedOnce_paidRun :
    Execution.Always step GrantedOnce (initial fun _ => true) paidRun :=
  pay_grantedOnce (by decide)

def repeatedRun : List Label := paidRun ++ statusCallback (some 1)

/-- The unit is given twice. -/
theorem repeatedRun_not_grantedOnce :
    ¬ ∀ (rechargeData : Nat → Bool) (labels : List Label) (state : State),
      Execution.run step (initial rechargeData) labels = some state → GrantedOnce state := by
  intro claim
  have ends : ∃ state, Execution.run step (initial fun _ => true) repeatedRun = some state ∧
      state.grants = [(.transaction 1, 0), (.transaction 1, 0)] := by
    exact ⟨_, rfl, rfl⟩
  obtain ⟨state, execution, grants⟩ := ends
  have once := claim _ repeatedRun state execution
  rw [GrantedOnce, grants] at once
  simp at once

end UEServer.PayOrder
