import Mathlib

/-!
# Monthly cards

`meta_table/monthly_card.lua` and the daily refresh of `meta_table/base.lua`.  A card is bought for a number
of days or for ever.  Its reward can be claimed once a day, and the next refresh sends the rewards of the days
that went unclaimed by mail.  A record is kept of what was granted for every purchase.
-/

namespace UEServer.MonthlyCard

def day : ℤ := 86400

/-- `date.get_begin0`, where `base0` is a local midnight. -/
def getBegin0 (base0 ts : ℤ) : ℤ := ts - (ts - base0) % day

/-- The local day of a time, counted from `base0`. -/
def dayOf (base0 ts : ℤ) : ℤ := (ts - base0) / day

/-- A row of `MonthlyCardData`: its `validity_period_day`, if it has a limit. -/
structure CardData where
  validityPeriodDay : Option ℕ
  positive : ∀ days ∈ validityPeriodDay, 0 < days

/-- The state of a card that is held. -/
structure CardInfo where
  isReceived : Bool
  remainingDays : Option ℤ

/-- What a daily refresh sent: the days of the refresh before it and of its own, and the number of mails. -/
structure Mails where
  previous : ℤ
  today : ℤ
  count : ℕ

/-- What was granted for one purchase of a card, besides the grant at the purchase itself. -/
structure Purchase where
  validity : Option ℕ
  bought : ℤ
  /-- The days on which the reward was claimed. -/
  claims : List ℤ
  mails : List Mails

/-- A card of a role, with its purchases, the last one first. -/
structure Card where
  info : Option CardInfo
  purchases : List Purchase

structure Role where
  lastDailyTs : ℤ
  card : ℕ → Card

def Role.start (ts : ℤ) : Role := ⟨ts, fun _ => ⟨none, []⟩⟩

/-- `on_daily` for a card that is held: what is left of it, and the `replacement_count`. -/
def CardInfo.onDaily (info : CardInfo) (totalOfflineDays : ℤ) : Option CardInfo × ℤ :=
  let replacement (days : ℤ) := if info.isReceived then days - 1 else days
  match info.remainingDays with
  | none => (some ⟨false, none⟩, replacement totalOfflineDays)
  | some remainingDays =>
    if remainingDays - totalOfflineDays ≤ 0 then (none, replacement remainingDays)
    else (some ⟨false, some (remainingDays - totalOfflineDays)⟩, replacement totalOfflineDays)

/-- `on_daily` for a card. -/
def Card.onDaily (card : Card) (previous today totalOfflineDays : ℤ) : Card :=
  match card.info with
  | none => card
  | some info =>
    let (left, replacementCount) := info.onDaily totalOfflineDays
    ⟨left, card.purchases.modifyHead fun purchase =>
      { purchase with mails := ⟨previous, today, replacementCount.toNat⟩ :: purchase.mails }⟩

/-- `check_daily_zero_refresh`, as far as the cards go. -/
def Role.checkDailyZeroRefresh (base0 : ℤ) (role : Role) (now : ℤ) : Role :=
  if role.lastDailyTs < getBegin0 base0 now then
    let totalOfflineDays := (getBegin0 base0 now - getBegin0 base0 role.lastDailyTs) / day
    ⟨now, fun id =>
      (role.card id).onDaily (dayOf base0 role.lastDailyTs) (dayOf base0 now) totalOfflineDays⟩
  else role

/-- `buy_card`, on the day `today`. -/
def Card.buyCard (data : CardData) (today : ℤ) (card : Card) : Card :=
  match card.info with
  | some _ => card
  | none =>
    ⟨some ⟨false, data.validityPeriodDay.map Nat.cast⟩,
      ⟨data.validityPeriodDay, today, [], []⟩ :: card.purchases⟩

/-- `receiving_reward`, on the day `today`. -/
def Card.receivingReward (today : ℤ) (card : Card) : Card :=
  match card.info with
  | none => card
  | some info =>
    if info.isReceived then card
    else
      -- the claim of the last day ends the card
      ⟨if ∃ remainingDays ∈ info.remainingDays, remainingDays ≤ 1 then none
        else some { info with isReceived := true },
        card.purchases.modifyHead fun purchase => { purchase with claims := today :: purchase.claims }⟩

/-- What happens to a role.  The role has been refreshed on the day of a purchase or a claim, which is the day
of `last_daily_ts`. -/
inductive Event where
  | dailyRefresh (now : ℤ)
  | buyCard (id : ℕ)
  | receivingReward (id : ℕ)

variable (base0 : ℤ) (table : ℕ → Option CardData)

/-- A request about a card, which needs a row of `MonthlyCardData`. -/
def Role.request (role : Role) (id : ℕ) (change : CardData → ℤ → Card → Card) : Role :=
  match table id with
  | none => role
  | some data =>
    let changed := change data (dayOf base0 role.lastDailyTs) (role.card id)
    { role with card := Function.update role.card id changed }

def step (role : Role) : Event → Role
  | .dailyRefresh now => role.checkDailyZeroRefresh base0 now
  | .buyCard id => role.request base0 table id Card.buyCard
  | .receivingReward id => role.request base0 table id fun _ => Card.receivingReward

def run (ts : ℤ) (events : List Event) : Role := events.foldl (step base0 table) (.start ts)

variable {base0 table}

/-- The purchase is to be rewarded for the day. -/
def Purchase.Valid (purchase : Purchase) (day : ℤ) : Prop :=
  purchase.bought ≤ day ∧ ∀ days ∈ purchase.validity, day < purchase.bought + days

instance (purchase : Purchase) (day : ℤ) : Decidable (purchase.Valid day) :=
  inferInstanceAs (Decidable (_ ∧ _))

/-- The refresh is the next one after the day. -/
def Mails.next (day : ℤ) (mails : Mails) : Bool := mails.previous ≤ day ∧ day < mails.today

/-- The days before `reached` are rewarded once: those on which the reward was not claimed by a mail of the
next refresh. -/
structure Purchase.Right (purchase : Purchase) (reached : ℤ) : Prop where
  claims_nodup : purchase.claims.Nodup
  claims_valid : ∀ day ∈ purchase.claims, purchase.Valid day ∧ day ≤ reached
  once : ∀ day, purchase.bought ≤ day → day < reached →
    (purchase.mails.filter (Mails.next day)).length = 1
  within : ∀ mails ∈ purchase.mails, purchase.bought ≤ mails.previous ∧ mails.today ≤ reached
  /-- A refresh sends a mail for every day before it that was not claimed. -/
  sent : ∀ mails ∈ purchase.mails, mails.count =
    ((Finset.Ico mails.previous mails.today).filter
      fun day => purchase.Valid day ∧ day ∉ purchase.claims).card

def Purchase.paid (purchase : Purchase) : ℕ :=
  purchase.claims.length + (purchase.mails.map Mails.count).sum

/-- The card has disappeared: each of its days is rewarded. -/
structure Purchase.Ended (purchase : Purchase) : Prop where
  right : ∃ reached, purchase.Right reached ∧
    ∀ day, purchase.Valid day → day < reached ∨ day ∈ purchase.claims
  limited : purchase.validity = some purchase.paid

/-- The card is held: a day is not rewarded yet. -/
structure Purchase.Running (purchase : Purchase) (today : ℤ) : Prop where
  right : purchase.Right today
  open_day : ∃ day, today ≤ day ∧ purchase.Valid day ∧ day ∉ purchase.claims

/-- All purchases but that of a card that is held have ended. -/
def Card.Right (today : ℤ) (card : Card) : Prop :=
  match card.info, card.purchases with
  | none, purchases => ∀ purchase ∈ purchases, purchase.Ended
  | some _, purchase :: purchases => purchase.Running today ∧ ∀ purchase ∈ purchases, purchase.Ended
  | some _, [] => False

variable (base0 table) in
/-- A card that has disappeared can be bought again. -/
def Role.CanBuy (role : Role) (id : ℕ) : Prop :=
  ∀ data ∈ table id, (role.card id).info = none →
    ((step base0 table role (.buyCard id)).card id).purchases =
      ⟨data.validityPeriodDay, dayOf base0 role.lastDailyTs, [], []⟩ :: (role.card id).purchases

/-- What the state of a card says about its purchase. -/
structure CardInfo.Holds (info : CardInfo) (today : ℤ) (purchase : Purchase) : Prop where
  right : purchase.Right today
  begun : purchase.bought ≤ today
  received : info.isReceived = true ↔ today ∈ purchase.claims
  remaining : info.remainingDays = purchase.validity.map fun days : ℕ => purchase.bought + days - today
  left : ∀ remainingDays ∈ info.remainingDays,
    1 ≤ remainingDays ∧ (info.isReceived = true → 2 ≤ remainingDays)
  paid : (purchase.paid : ℤ) = today - purchase.bought + if info.isReceived then 1 else 0

variable {info : CardInfo} {purchase : Purchase} {today : ℤ}

theorem CardInfo.Holds.running (holds : info.Holds today purchase) : purchase.Running today := by
  refine ⟨holds.right, ?_⟩
  have left := holds.left
  rw [holds.remaining] at left
  by_cases received : info.isReceived
  · have later : today + 1 ∉ purchase.claims := fun mem => by
      have := (holds.right.claims_valid _ mem).2
      omega
    refine ⟨today + 1, by omega, ⟨holds.begun.trans (by omega), fun days limited => ?_⟩, later⟩
    have := (left (purchase.bought + days - today) (Option.mem_map.mpr ⟨days, limited, rfl⟩)).2 received
    omega
  · refine ⟨today, le_rfl, ⟨holds.begun, fun days limited => ?_⟩, fun mem => received (holds.received.mpr mem)⟩
    have := (left (purchase.bought + days - today) (Option.mem_map.mpr ⟨days, limited, rfl⟩)).1
    omega

inductive Card.Inv (today : ℤ) : Card → Prop where
  | gone {purchases : List Purchase} (ended : ∀ purchase ∈ purchases, purchase.Ended) :
      Card.Inv today ⟨none, purchases⟩
  | held {info : CardInfo} {purchase : Purchase} {purchases : List Purchase}
      (holds : info.Holds today purchase) (ended : ∀ purchase ∈ purchases, purchase.Ended) :
      Card.Inv today ⟨some info, purchase :: purchases⟩

theorem Card.Inv.right {card : Card} (inv : card.Inv today) : card.Right today := by
  cases inv with
  | gone ended => exact ended
  | held holds ended => exact ⟨holds.running, ended⟩

theorem CardInfo.Holds.bought (data : CardData) (today : ℤ) :
    (⟨false, data.validityPeriodDay.map Nat.cast⟩ : CardInfo).Holds today
      ⟨data.validityPeriodDay, today, [], []⟩ where
  right := ⟨List.nodup_nil, by simp, fun day after before => absurd before (not_lt.mpr after), by simp,
    by simp⟩
  begun := le_rfl
  received := by simp
  remaining := by cases data.validityPeriodDay <;> simp
  left := by
    intro remainingDays mem
    obtain ⟨days, limited, rfl⟩ := Option.mem_map.mp mem
    exact ⟨by exact_mod_cast data.positive days limited, by simp⟩
  paid := by simp [Purchase.paid]

theorem Card.Inv.buyCard {card : Card} (inv : card.Inv today) (data : CardData) :
    (card.buyCard data today).Inv today := by
  cases inv with
  | gone ended => exact .held (.bought data today) ended
  | held holds ended => exact .held holds ended

/-- A claim on `today` does not change what earlier refreshes had to send. -/
theorem Purchase.Right.claim (right : purchase.Right today) (valid : purchase.Valid today)
    (unclaimed : today ∉ purchase.claims) :
    Purchase.Right { purchase with claims := today :: purchase.claims } today where
  claims_nodup := List.nodup_cons.mpr ⟨unclaimed, right.claims_nodup⟩
  claims_valid := by
    intro day mem
    rcases List.mem_cons.mp mem with rfl | mem
    · exact ⟨valid, le_rfl⟩
    · exact right.claims_valid day mem
  once := right.once
  within := right.within
  sent := by
    intro mails mem
    rw [right.sent mails mem]
    refine congrArg Finset.card (Finset.filter_congr fun day between => ?_)
    have before : day ≠ today := by
      have := (right.within mails mem).2
      have := (Finset.mem_Ico.mp between).2
      omega
    simp [Purchase.Valid, before]

theorem Card.Inv.receivingReward {card : Card} (inv : card.Inv today) :
    (card.receivingReward today).Inv today := by
  cases inv with
  | gone ended => exact .gone ended
  | @held info purchase purchases holds ended =>
    unfold Card.receivingReward
    by_cases received : info.isReceived
    · simpa [received] using Card.Inv.held holds ended
    have unclaimed : today ∉ purchase.claims := fun mem => received (holds.received.mpr mem)
    have left := holds.left
    have paid := holds.paid
    rw [holds.remaining] at left
    have valid : purchase.Valid today := by
      refine ⟨holds.begun, fun days limited => ?_⟩
      have := (left _ (Option.mem_map.mpr ⟨days, limited, rfl⟩)).1
      omega
    have right := holds.right.claim valid unclaimed
    simp only [received, Bool.false_eq_true, ↓reduceIte] at paid ⊢
    by_cases last : ∃ remainingDays ∈ info.remainingDays, remainingDays ≤ 1
    · rw [if_pos last]
      obtain ⟨remainingDays, mem, le⟩ := last
      rw [holds.remaining] at mem
      obtain ⟨days, limited, rfl⟩ := Option.mem_map.mp mem
      have one := (left _ mem).1
      refine .gone (List.forall_mem_cons.mpr ⟨⟨⟨today, right, fun day dayValid => ?_⟩, ?_⟩, ended⟩)
      · have := dayValid.2 days limited
        simp only at this
        rcases lt_or_eq_of_le (show day ≤ today by omega) with before | rfl
        · exact .inl before
        · exact .inr List.mem_cons_self
      · rw [show purchase.validity = some days from limited]
        refine congrArg some (Int.natCast_inj.mp ?_)
        simp only [Purchase.paid, List.length_cons, Nat.cast_add] at paid ⊢
        omega
    · rw [if_neg last]
      refine .held ⟨right, holds.begun, by simp, holds.remaining, ?_, ?_⟩ ended
      · intro remainingDays mem
        have : ¬ remainingDays ≤ 1 := fun le => last ⟨remainingDays, mem, le⟩
        exact ⟨by omega, fun _ => by omega⟩
      · simp only [Purchase.paid, List.length_cons, Nat.cast_add, ↓reduceIte] at paid ⊢
        omega

/-- The days a refresh has to reward begin after a claim of the day before it and end with the card. -/
theorem CardInfo.Holds.unclaimed (holds : info.Holds today purchase) {now last : ℤ}
    (ends : ∀ day, today ≤ day → ((day < now ∧ ∀ days ∈ purchase.validity, day < purchase.bought + days) ↔
      day < last)) :
    ((Finset.Ico today now).filter fun day => purchase.Valid day ∧ day ∉ purchase.claims).card =
      (last - if info.isReceived then today + 1 else today).toNat := by
  rw [← Int.card_Ico]
  refine congrArg Finset.card (Finset.ext fun day => ?_)
  rw [Finset.mem_filter, Finset.mem_Ico, Finset.mem_Ico]
  have begun := holds.begun
  have claimed : today ≤ day → (day ∈ purchase.claims ↔ day = today ∧ info.isReceived = true) := by
    intro after
    rw [holds.received]
    constructor
    · intro mem
      have same : day = today := by
        have := (holds.right.claims_valid day mem).2
        omega
      exact ⟨same, same ▸ mem⟩
    · rintro ⟨rfl, mem⟩
      exact mem
  constructor
  · rintro ⟨⟨after, before⟩, ⟨-, valid⟩, unclaimed⟩
    refine ⟨?_, (ends day after).mp ⟨before, valid⟩⟩
    rw [claimed after] at unclaimed
    split
    · rename_i received
      have : day ≠ today := fun same => unclaimed ⟨same, received⟩
      omega
    · exact after
  · rintro ⟨from_first, before⟩
    have after : today ≤ day := by split at from_first <;> omega
    have valid := (ends day after).mpr before
    refine ⟨⟨after, valid.1⟩, ⟨by omega, valid.2⟩, fun mem => ?_⟩
    obtain ⟨rfl, received⟩ := (claimed after).mp mem
    rw [if_pos received] at from_first
    omega

theorem Purchase.Right.send (right : purchase.Right today) (begun : purchase.bought ≤ today) {now : ℤ}
    (later : today < now) {count : ℕ}
    (counted : ((Finset.Ico today now).filter
      fun day => purchase.Valid day ∧ day ∉ purchase.claims).card = count) :
    Purchase.Right { purchase with mails := ⟨today, now, count⟩ :: purchase.mails } now where
  claims_nodup := right.claims_nodup
  claims_valid := fun day mem =>
    ⟨(right.claims_valid day mem).1, (right.claims_valid day mem).2.trans later.le⟩
  once := by
    intro day after before
    rw [List.filter_cons]
    by_cases new : today ≤ day
    · have old : purchase.mails.filter (Mails.next day) = [] := by
        refine List.filter_eq_nil_iff.mpr fun mails mem => ?_
        have := (right.within mails mem).2
        simp only [Mails.next, decide_eq_true_eq]
        omega
      simp [Mails.next, new, before, old]
    · simp only [Mails.next, new, false_and, decide_false, Bool.false_eq_true, ↓reduceIte]
      exact right.once day after (by omega)
  within := by
    intro mails mem
    rcases List.mem_cons.mp mem with rfl | mem
    · exact ⟨begun, le_rfl⟩
    · exact ⟨(right.within mails mem).1, (right.within mails mem).2.trans later.le⟩
  sent := by
    intro mails mem
    rcases List.mem_cons.mp mem with rfl | mem
    · exact counted.symm
    · exact right.sent mails mem

theorem CardInfo.Holds.goOn (holds : info.Holds today purchase) {now : ℤ} (later : today < now)
    (lasts : ∀ days ∈ purchase.validity, now < purchase.bought + days) :
    (⟨false, info.remainingDays.map fun days => days - (now - today)⟩ : CardInfo).Holds now
      { purchase with mails :=
          ⟨today, now, (if info.isReceived then now - today - 1 else now - today).toNat⟩ :: purchase.mails } := by
  have counted := @CardInfo.Holds.unclaimed info purchase today holds now now fun day _ =>
    ⟨fun valid => valid.1, fun before => ⟨before, fun days limited => before.trans (lasts days limited)⟩⟩
  have paid := holds.paid
  refine ⟨holds.right.send holds.begun later ?_, holds.begun.trans later.le, ?_, ?_, ?_, ?_⟩
  · rw [counted]
    split <;> omega
  · simp only [Bool.false_eq_true, false_iff]
    intro mem
    have := (holds.right.claims_valid now mem).2
    omega
  · rw [holds.remaining, Option.map_map]
    exact congrArg (Option.map · purchase.validity) (funext fun days => by simp only [Function.comp_apply]; omega)
  · rw [holds.remaining, Option.map_map]
    intro remainingDays mem
    obtain ⟨days, limited, rfl⟩ := Option.mem_map.mp mem
    have := lasts days limited
    simp only [Function.comp_apply, Bool.false_eq_true, false_implies, and_true]
    omega
  · simp only [Purchase.paid, List.map_cons, List.sum_cons, Bool.false_eq_true, ↓reduceIte] at paid ⊢
    split at paid <;> simp only [*, ↓reduceIte, Bool.false_eq_true] <;> omega

theorem CardInfo.Holds.expire (holds : info.Holds today purchase) {now : ℤ} (later : today < now) {days : ℕ}
    (limited : purchase.validity = some days) (expired : purchase.bought + days ≤ now) :
    Purchase.Ended { purchase with mails :=
      ⟨today, now, (if info.isReceived then purchase.bought + days - today - 1
        else purchase.bought + days - today).toNat⟩ :: purchase.mails } := by
  have counted := @CardInfo.Holds.unclaimed info purchase today holds now (purchase.bought + days) (by
    simp only [limited, Option.mem_some_iff, forall_eq']
    omega)
  have paid := holds.paid
  have left := holds.left (purchase.bought + days - today) (by rw [holds.remaining, limited]; rfl)
  refine ⟨⟨now, holds.right.send holds.begun later ?_, fun day valid => .inl ?_⟩, ?_⟩
  · rw [counted]
    split <;> omega
  · exact (valid.2 days limited).trans_le expired
  · refine limited.trans (congrArg some (Int.natCast_inj.mp ?_))
    simp only [Purchase.paid, List.map_cons, List.sum_cons] at paid ⊢
    split at paid <;> simp only [*, ↓reduceIte, Bool.false_eq_true] at left ⊢ <;> omega

theorem Card.Inv.onDaily {card : Card} (inv : card.Inv today) {now : ℤ} (later : today < now) :
    (card.onDaily today now (now - today)).Inv now := by
  cases inv with
  | gone ended => exact .gone ended
  | @held info purchase purchases holds ended =>
    simp only [Card.onDaily, CardInfo.onDaily]
    have goOn := holds.goOn later
    rw [holds.remaining] at goOn ⊢
    rcases Option.eq_none_or_eq_some purchase.validity with limited | ⟨days, limited⟩
    · simp only [limited, Option.map_none, List.modifyHead_cons] at goOn ⊢
      exact .held (limited ▸ goOn (by simp)) ended
    · simp only [limited, Option.map_some, List.modifyHead_cons] at goOn ⊢
      by_cases expired : purchase.bought + days - today - (now - today) ≤ 0
      · rw [if_pos expired]
        exact .gone (List.forall_mem_cons.mpr ⟨limited ▸ holds.expire later limited (by omega), ended⟩)
      · rw [if_neg expired]
        refine .held (limited ▸ goOn ?_) ended
        simp only [Option.mem_some_iff, forall_eq']
        omega

theorem getBegin0_eq (base0 ts : ℤ) : getBegin0 base0 ts = base0 + dayOf base0 ts * day := by
  unfold getBegin0 dayOf day
  omega

def Role.Inv (base0 : ℤ) (role : Role) : Prop :=
  ∀ id, (role.card id).Inv (dayOf base0 role.lastDailyTs)

section
variable {role : Role} (inv : role.Inv base0)
include inv

theorem Role.Inv.request (id : ℕ) {change : CardData → ℤ → Card → Card}
    (kept : ∀ data today card, Card.Inv today card → (change data today card).Inv today) :
    (role.request base0 table id change).Inv base0 := by
  unfold Role.request
  cases table id with
  | none => exact inv
  | some data =>
    intro other
    rcases eq_or_ne other id with rfl | ne
    · simpa using kept data _ _ (inv other)
    · simpa [Function.update_of_ne ne] using inv other

theorem Role.Inv.checkDailyZeroRefresh (now : ℤ) :
    (role.checkDailyZeroRefresh base0 now).Inv base0 := by
  unfold Role.checkDailyZeroRefresh
  split
  · rename_i due
    have days : (getBegin0 base0 now - getBegin0 base0 role.lastDailyTs) / day =
        dayOf base0 now - dayOf base0 role.lastDailyTs := by
      rw [getBegin0_eq, getBegin0_eq, day]
      omega
    have later : dayOf base0 role.lastDailyTs < dayOf base0 now := by
      unfold getBegin0 day at due
      unfold dayOf day
      omega
    intro id
    rw [days]
    exact (inv id).onDaily later
  · exact inv

theorem Role.Inv.step (event : Event) : (MonthlyCard.step base0 table role event).Inv base0 := by
  cases event with
  | dailyRefresh now => exact inv.checkDailyZeroRefresh now
  | buyCard id => exact inv.request id fun data _ _ kept => kept.buyCard data
  | receivingReward id => exact inv.request id fun _ _ _ kept => kept.receivingReward

theorem Role.Inv.foldl (events : List Event) :
    (events.foldl (MonthlyCard.step base0 table) role).Inv base0 := by
  induction events generalizing role with
  | nil => exact inv
  | cons event events ih => exact ih (inv.step event)

end

theorem Role.canBuy (role : Role) (id : ℕ) : role.CanBuy base0 table id := by
  intro data found gone
  simp only [MonthlyCard.step, Role.request, Option.mem_def.mp found, Function.update_self, Card.buyCard, gone]

end UEServer.MonthlyCard
