import UEServer.CheckIn.Basic

/-!
# When monthly check-ins are right

Between two events the list is that of the month of the last refresh, and the rewards of that month are those
of its picked days and chests.  A refresh keeps this if the list that it throws away, when it does, is not
counted any more.
-/

namespace UEServer.CheckIn

open Calendar

variable {config : Config} {role after : Role}

def Role.month (role : Role) : ℤ := (dateOf role.lastDaily).monthIndex

/-- The invariant between two events, but for the count. -/
structure Kept (config : Config) (role : Role) : Prop where
  ordered : role.lastDaily ≤ role.today
  once : (role.rewards.map fun reward => (reward.month, reward.source)).Nodup
  past : ∀ reward ∈ role.rewards, reward.month ≤ role.month
  days : ∀ reward ∈ role.rewards, reward.month = role.month →
    ∀ day, reward.source = .day day → role.info day = .picked
  opened : ∀ reward ∈ role.rewards, reward.month = role.month →
    ∀ id, reward.source = .chest id → role.chestInfo id = .picked
  picked : ∀ day, role.info day = .picked → 1 ≤ day ∧ day ≤ (dateOf role.lastDaily).day
  listed : ∀ day, role.info day = .pick →
    day ≤ daysInMonth (dateOf role.lastDaily).year (dateOf role.lastDaily).month
  begun : role.lastDaily = role.today → ∀ day, role.info day = .pick → day ≤ role.date.day
  reached : ∀ id, role.chestInfo id ≠ .unpick → 1 ≤ role.numPicked
  required : ∀ id, role.chestInfo id = .pick →
    (config.month (dateOf role.lastDaily).month).chestDayRequest id ≤ role.numPicked

/-- The invariant: a role that is online has been refreshed today, and one that is not on the day it logged
out. -/
structure Inv (config : Config) (role : Role) : Prop extends Kept config role where
  current : role.isOnline = true → role.lastDaily = role.today ∧ role.checkInCount = role.numPicked
  left : role.isOnline = false → role.logoutDay = role.lastDaily

theorem Inv.good (inv : Inv config role) : role.Good config where
  once := inv.once
  counted online := (inv.current online).2
  chests online id pick := by
    obtain ⟨today, counted⟩ := inv.current online
    have required := inv.required id pick
    rw [today] at required
    exact required.trans counted.ge

theorem inv_init (config : Config) (today : ℕ) : Inv config (.init config today) where
  ordered := Int.natCast_nonneg today
  once := List.nodup_nil
  past := by simp [Role.init]
  days := by simp [Role.init]
  opened := by simp [Role.init]
  picked := by
    intro day picked
    simp only [Role.init] at picked
    split at picked <;> cases picked
  listed := by
    intro day pick
    simp only [Role.init] at pick
    split at pick
    · rename_i bounds
      exact bounds.2.trans (valid_dateOf today).day_le
    · cases pick
  begun := by
    intro _ day pick
    simp only [Role.init] at pick
    split at pick
    · rename_i bounds
      exact bounds.2
    · cases pick
  reached := by simp [Role.init]
  required := by simp [Role.init]
  current := by simp [Role.init]
  left _ := rfl

variable {info : ℕ → RewardState}

theorem countPicked_eq {last : ℕ} (below : last ≤ 31)
    (picked : ∀ day, info day = .picked → day ≤ last) : countPicked info last = countPicked info 31 := by
  refine congrArg Finset.card (Finset.ext fun day => ?_)
  simp only [Finset.mem_filter, Finset.mem_Icc]
  constructor
  · rintro ⟨⟨first, le⟩, is_picked⟩
    exact ⟨⟨first, le.trans below⟩, is_picked⟩
  · rintro ⟨⟨first, -⟩, is_picked⟩
    exact ⟨⟨first, picked day is_picked⟩, is_picked⟩

theorem countPicked_update {day : ℕ} (first : 1 ≤ day) (last : day ≤ 31)
    (unpicked : info day ≠ .picked) :
    countPicked (Function.update info day .picked) 31 = countPicked info 31 + 1 := by
  have added : (Finset.Icc 1 31).filter (fun number => Function.update info day .picked number = .picked) =
      insert day ((Finset.Icc 1 31).filter fun number => info number = .picked) := by
    ext number
    rcases eq_or_ne number day with rfl | ne
    · simp [first, last]
    · simp [ne]
  rw [countPicked, added, Finset.card_insert_of_notMem (by simp [unpicked])]
  rfl

theorem countPicked_eq_zero :
    countPicked info 31 = 0 ↔ ∀ day, 1 ≤ day → day ≤ 31 → info day ≠ .picked := by
  simp [countPicked, Finset.filter_eq_empty_iff]

theorem Kept.unpicked (kept : Kept config role) (zero : role.numPicked = 0) (day : ℕ) :
    role.info day ≠ .picked := by
  intro picked
  have bounds := kept.picked day picked
  exact countPicked_eq_zero.mp zero day bounds.1 (bounds.2.trans (valid_dateOf _).day_le) picked

@[simp]
theorem dailyReset_lastDaily : (role.dailyReset config).lastDaily = role.lastDaily := by
  unfold Role.dailyReset
  split <;> rfl

@[simp]
theorem dailyReset_today : (role.dailyReset config).today = role.today := by
  unfold Role.dailyReset
  split <;> rfl

@[simp]
theorem dailyReset_isOnline : (role.dailyReset config).isOnline = role.isOnline := by
  unfold Role.dailyReset
  split <;> rfl

@[simp]
theorem dailyReset_checkInCount : (role.dailyReset config).checkInCount = role.checkInCount := by
  unfold Role.dailyReset
  split <;> rfl

theorem Kept.startDay (kept : Kept config role)
    (same : role.date.monthIndex = role.month) :
    Kept config (role.mark.startDay config) ∧
      (role.mark.startDay config).numPicked = role.numPicked := by
  have sameMonth := (sameMonth_iff (valid_dateOf role.today) (valid_dateOf role.lastDaily)).mpr same
  have day_le : (dateOf role.lastDaily).day ≤ role.date.day := by
    rcases lt_or_eq_of_le kept.ordered with before | today
    · rcases dateOf_lt before with later | later
      · exact absurd same (ne_of_gt later)
      · exact later.2.le
    · rw [today]
      rfl
  have entry : ∀ day, (role.mark.startDay config).info day =
      if 1 ≤ day ∧ day ≤ daysInMonth role.date.year role.date.month then
        if day ≤ role.date.day then if role.info day = .unpick then .pick else role.info day else .unpick
      else role.info day := fun day => rfl
  have pickable : ∀ day, (role.mark.startDay config).info day = .pick → day ≤ role.date.day := by
    intro day pick
    by_contra later
    have listed := kept.listed day
    rw [← sameMonth.1, ← sameMonth.2] at listed
    change _ → day ≤ daysInMonth role.date.year role.date.month at listed
    rw [entry] at pick
    split_ifs at pick
    exact absurd (listed pick) (by omega)
  have info : ∀ day, (role.mark.startDay config).info day = .picked ↔
      role.info day = .picked := by
    intro day
    rw [entry]
    constructor
    · intro picked
      by_contra other
      revert picked
      split_ifs <;> simp [other]
    · intro picked
      have bounds := kept.picked day picked
      have before : day ≤ role.date.day := bounds.2.trans day_le
      simp [bounds.1, before, picked]
  have num : (role.mark.startDay config).numPicked = role.numPicked := by
    unfold Role.numPicked countPicked
    exact congrArg Finset.card (Finset.filter_congr fun day _ => info day)
  refine ⟨⟨le_rfl, kept.once, ?_, ?_, ?_, ?_, ?_, fun _ => pickable, ?_, ?_⟩, num⟩
  · exact fun reward mem => (kept.past reward mem).trans same.ge
  · intro reward mem month day source
    exact (info day).mpr (kept.days reward mem (month.trans same) day source)
  · exact fun reward mem month id source => kept.opened reward mem (month.trans same) id source
  · intro day picked
    have bounds := kept.picked day ((info day).mp picked)
    exact ⟨bounds.1, bounds.2.trans day_le⟩
  · exact fun day pick => (pickable day pick).trans (valid_dateOf role.today).2.2.2
  · intro id some_state
    rw [num]
    exact kept.reached id some_state
  · intro id pick
    rw [num]
    have required := kept.required id pick
    rw [← sameMonth.2] at required
    exact required

/-- A new list is right in a new month, or if nothing was picked in the old one. -/
theorem Kept.startMonth (kept : Kept config role)
    (fresh : role.month < role.date.monthIndex ∨ (role.month = role.date.monthIndex ∧ role.numPicked = 0)) :
    Kept config (role.mark.startMonth config) ∧
      (role.mark.startMonth config).numPicked = 0 := by
  have num : (role.mark.startMonth config).numPicked = 0 :=
    countPicked_eq_zero.mpr fun _ _ _ => by simp [Role.startMonth]
  have not_granted : ∀ reward ∈ role.rewards, reward.month ≠ role.date.monthIndex := by
    intro reward mem month
    rcases fresh with later | ⟨same, zero⟩
    · have := kept.past reward mem
      omega
    · cases source : reward.source with
      | day day => exact kept.unpicked zero day (kept.days reward mem (month.trans same.symm) day source)
      | chest id =>
        have opened := kept.opened reward mem (month.trans same.symm) id source
        have reached := kept.reached id (by simp [opened])
        omega
  refine ⟨⟨le_rfl, kept.once, ?_, ?_, ?_, ?_, ?_, ?_, ?_, ?_⟩, num⟩
  · intro reward mem
    have before := kept.past reward mem
    simp only [Role.startMonth, Role.month] at before ⊢
    change _ ≤ role.date.monthIndex
    unfold Role.month at fresh
    omega
  · exact fun reward mem month => absurd month (not_granted reward mem)
  · exact fun reward mem month => absurd month (not_granted reward mem)
  all_goals simp [Role.startMonth]

theorem Kept.dailyReset (kept : Kept config role)
    (thrown : role.Resets → role.month < role.date.monthIndex ∨ role.numPicked = 0)
    (same : ¬ role.Resets → role.date.monthIndex = role.month) :
    Kept config (role.mark.dailyReset config) ∧
      (role.mark.dailyReset config).numPicked =
        if role.Resets then 0 else role.numPicked := by
  unfold Role.dailyReset
  by_cases resets : role.Resets
  · have le : role.month ≤ role.date.monthIndex := by
      rcases lt_or_eq_of_le kept.ordered with before | today
      · rcases dateOf_lt before with later | later
        · exact later.le
        · exact later.1.le
      · unfold Role.month Role.date
        rw [today]
    have start := kept.startMonth (by
      rcases thrown resets with later | zero
      · exact .inl later
      · rcases lt_or_eq_of_le le with later | same
        · exact .inl later
        · exact .inr ⟨same, zero⟩)
    have day := start.1.startDay rfl
    rw [if_pos (show role.mark.Resets from resets), if_pos resets]
    exact ⟨day.1, day.2.trans start.2⟩
  · rw [if_neg (show ¬ role.mark.Resets from resets), if_neg resets]
    exact kept.startDay (same resets)

theorem month_eq_of_not_resets (resets : ¬ role.Resets) : (dateOf role.logoutDay).monthIndex = role.date.monthIndex :=
  (sameMonth_iff (valid_dateOf _) (valid_dateOf _)).mp (not_not.mp (not_or.mp resets).1)

section
variable (inv : Inv config role)
include inv

theorem Inv.nextDay (permitted : Permitted config role .nextDay) (online : role.isOnline = true) :
    Inv config (role.nextDay.checkDailyZeroRefresh config) := by
  obtain ⟨today, counted⟩ := inv.current online
  have due : role.nextDay.lastDaily < role.nextDay.today := by
    simp only [Role.nextDay, today]
    omega
  have kept : Kept config role.nextDay :=
    { inv.toKept with ordered := due.le, begun := fun same => absurd same due.ne }
  have next : role.nextDay.date = (dateOf role.lastDaily).next := by rw [today, ← dateOf_succ]; rfl
  have day := kept.dailyReset
    (fun resets => .inr (counted.symm.trans (permitted online resets)))
    (fun stays => by
      have same : role.nextDay.date.SameMonth (dateOf role.lastDaily) := by
        rcases (dateOf role.lastDaily).next_cases with same | first
        · exact next ▸ same.1
        · exact absurd (.inr (next ▸ first.2)) stays
      exact (sameMonth_iff (valid_dateOf _) (valid_dateOf _)).mp same)
  unfold Role.checkDailyZeroRefresh
  rw [if_pos due]
  refine ⟨day.1, fun _ => ⟨by simp [Role.mark], ?_⟩, fun offline => ?_⟩
  · rw [day.2, dailyReset_checkInCount]
    split
    · rename_i resets
      exact permitted online resets
    · exact counted
  · rw [dailyReset_isOnline] at offline
    cases online.symm.trans offline

theorem Inv.login (permitted : Permitted config role .login) (offline : role.isOnline = false) :
    Inv config ((role.load config).checkDailyZeroRefresh config) := by
  have left := inv.left offline
  have loaded : Kept config (role.load config) := { inv.toKept with }
  unfold Role.checkDailyZeroRefresh
  by_cases due : role.lastDaily < role.today
  · rw [if_pos (show (role.load config).lastDaily < (role.load config).today from due)]
    have order := dateOf_lt due
    have resets_iff : (role.load config).Resets ↔ role.month < role.date.monthIndex := by
      change ¬ (dateOf role.logoutDay).SameMonth role.date ∨ role.date.day = 1 ↔ _
      rw [left, Role.date, sameMonth_iff (valid_dateOf _) (valid_dateOf _), Role.month]
      have first := (valid_dateOf role.lastDaily).2.2.1
      omega
    have day := loaded.dailyReset (fun resets => .inl (resets_iff.mp resets)) (fun stays => by
      have same := month_eq_of_not_resets stays
      change (dateOf role.logoutDay).monthIndex = _ at same
      rw [left] at same
      exact same.symm)
    refine ⟨day.1, fun _ => ⟨by simp [Role.mark], ?_⟩, fun impossible => ?_⟩
    · rw [day.2, dailyReset_checkInCount]
      split
      · rename_i resets
        exact permitted offline due resets
      · rename_i stays
        refine countPicked_eq (valid_dateOf _).day_le fun number picked => ?_
        have bounds := inv.picked number picked
        rw [resets_iff, Role.month, Role.date] at stays
        exact bounds.2.trans (by change _ ≤ (dateOf role.today).day; omega)
    · rw [dailyReset_isOnline] at impossible
      cases impossible
  · rw [if_neg (show ¬ (role.load config).lastDaily < (role.load config).today from due)]
    have today : role.lastDaily = role.today := le_antisymm inv.ordered (not_lt.mp due)
    refine ⟨loaded, fun _ => ⟨today, ?_⟩, fun impossible => by cases impossible⟩
    refine countPicked_eq (valid_dateOf _).day_le fun number picked => ?_
    have bounds := inv.picked number picked
    rw [today] at bounds
    exact bounds.2

theorem Inv.getReplenishCountByRecharge (progress : ℤ) :
    Inv config (role.getReplenishCountByRecharge config progress) := by
  unfold Role.getReplenishCountByRecharge
  split
  · exact inv
  · exact { inv with }

theorem Inv.getReplenishCountByActive (points requireNum : ℤ) :
    Inv config (role.getReplenishCountByActive config points requireNum) := by
  unfold Role.getReplenishCountByActive
  split
  · exact inv
  · exact { inv with }

theorem Inv.replenish {paid : Role} (taken : role.replenish config = some paid) :
    Inv config paid ∧ paid.info = role.info ∧ paid.date = role.date ∧ paid.isOnline = role.isOnline ∧
      paid ≠ role := by
  simp only [Role.replenish] at taken
  split at taken
  · cases taken
  · split at taken
    · cases taken
      refine ⟨{ inv with }, rfl, rfl, rfl, fun same => ?_⟩
      have := congrArg Role.replenishUsedCount same
      simp only at this
      omega
    · cases taken

theorem Inv.pickDay (online : role.isOnline = true) {day : ℕ} (inside : role.IsDay day)
    (pick : role.info day = .pick) (vip : ℕ) (reached : day ≤ role.date.day) :
    Inv config (role.pickDay config day vip) := by
  obtain ⟨today, counted⟩ := inv.current online
  have first : 1 ≤ day := by
    have := inside.1
    omega
  have num : (role.pickDay config day vip).numPicked = role.numPicked + 1 :=
    countPicked_update first (reached.trans (valid_dateOf _).day_le) (by simp [pick])
  have chest : ∀ id, (role.pickDay config day vip).chestInfo id = role.chestInfo id ∨
      (role.chestInfo id = .unpick ∧ (role.pickDay config day vip).chestInfo id = .pick ∧
        (config.month role.date.month).chestDayRequest id ≤ role.checkInCount + 1) := by
    intro id
    simp only [Role.pickDay]
    split
    · rename_i opens
      exact .inr ⟨opens.2.2.2, rfl, opens.2.2.1⟩
    · exact .inl rfl
  have month : role.month = role.date.monthIndex := by rw [Role.month, today]; rfl
  have fresh : ∀ reward ∈ role.rewards, (reward.month, reward.source) ≠ (role.date.monthIndex, .day day) := by
    intro reward mem same
    have picked := inv.days reward mem ((congrArg Prod.fst same).trans month.symm) day (congrArg Prod.snd same)
    rw [pick] at picked
    cases picked
  have earlier : ∀ number, (role.pickDay config day vip).info number = .pick → role.info number = .pick := by
    intro number picks
    rcases eq_or_ne number day with rfl | other
    · exact pick
    · simpa [Role.pickDay, other] using picks
  refine ⟨⟨inv.ordered, ?_, ?_, ?_, ?_, ?_, fun number picks => inv.listed number (earlier number picks),
    fun same number picks => inv.begun same number (earlier number picks), ?_, ?_⟩, fun _ => ⟨today, ?_⟩,
    fun offline => ?_⟩
  · refine List.nodup_cons.mpr ⟨fun mem => ?_, inv.once⟩
    obtain ⟨reward, reward_mem, same⟩ := List.mem_map.mp mem
    exact fresh reward reward_mem same
  · intro reward mem
    rcases List.mem_cons.mp mem with rfl | mem
    · exact month.ge
    · exact inv.past reward mem
  · intro reward mem same number source
    rcases eq_or_ne number day with rfl | other
    · simp [Role.pickDay]
    · rcases List.mem_cons.mp mem with rfl | mem
      · exact absurd (Source.day.inj source).symm other
      · simpa [Role.pickDay, other] using inv.days reward mem same number source
  · intro reward mem same id source
    rcases List.mem_cons.mp mem with rfl | mem
    · cases source
    · have opened := inv.opened reward mem same id source
      rcases chest id with kept | ⟨unpick, -⟩
      · exact kept.trans opened
      · rw [opened] at unpick
        cases unpick
  · intro number picked
    rcases eq_or_ne number day with rfl | other
    · exact ⟨first, by rw [show (role.pickDay config number vip).lastDaily = role.today from today]; exact reached⟩
    · exact inv.picked number (by simpa [Role.pickDay, other] using picked)
  · omega
  · intro id picks
    rw [num]
    rcases chest id with kept | ⟨-, -, request⟩
    · exact (inv.required id (kept.symm.trans picks)).trans (by omega)
    · rw [show (role.pickDay config day vip).lastDaily = role.today from today, ← counted]
      exact request
  · rw [num, ← counted]
    rfl
  · cases online.symm.trans offline

theorem Inv.receiveChestAward (online : role.isOnline = true) (id : ℤ) :
    Inv config (role.receiveChestAward config id) := by
  unfold Role.receiveChestAward
  split
  · exact inv
  split
  · exact inv
  split
  · rename_i pick
    obtain ⟨today, counted⟩ := inv.current online
    have month : role.month = role.date.monthIndex := by rw [Role.month, today]; rfl
    have num : 1 ≤ role.numPicked := inv.reached id.toNat (by simp [pick])
    refine ⟨⟨inv.ordered, ?_, ?_, ?_, ?_, inv.picked, inv.listed, inv.begun, fun _ _ => num, ?_⟩, inv.current,
      inv.left⟩
    · refine List.nodup_cons.mpr ⟨fun mem => ?_, inv.once⟩
      obtain ⟨reward, reward_mem, same⟩ := List.mem_map.mp mem
      have opened := inv.opened reward reward_mem ((congrArg Prod.fst same).trans month.symm) id.toNat
        (congrArg Prod.snd same)
      rw [pick] at opened
      cases opened
    · intro reward mem
      rcases List.mem_cons.mp mem with rfl | mem
      · exact month.ge
      · exact inv.past reward mem
    · intro reward mem same day source
      rcases List.mem_cons.mp mem with rfl | mem
      · cases source
      · exact inv.days reward mem same day source
    · intro reward mem same number source
      rcases eq_or_ne number id.toNat with rfl | other
      · simp
      · rcases List.mem_cons.mp mem with rfl | mem
        · exact absurd (Source.chest.inj source).symm other
        · simpa [other] using inv.opened reward mem same number source
    · intro number picks
      rcases eq_or_ne number id.toNat with rfl | other
      · simp at picks
      · exact inv.required number (by simpa [other] using picks)
  · exact inv

/-- A check-in is refused with everything unchanged, or it picks a day, if the make-up check-in is for a day
that can be picked. -/
theorem checkIn_cases (online : role.isOnline = true) {day : ℤ} {vip : ℕ}
    (permitted : Permitted config role (.checkIn day vip)) :
    role.checkIn config day vip = (role, false) ∨
      ∃ picked, role.checkIn config day vip = (picked, true) ∧ Inv config picked := by
  have begun := inv.begun (inv.current online).1
  unfold Role.checkIn
  by_cases inside : role.IsDay day
  · have number : ((day.toNat : ℕ) : ℤ) = day := Int.toNat_of_nonneg inside.1.le
    rw [if_pos inside]
    by_cases other : day ≠ role.date.day
    · rw [if_pos other]
      cases taken : role.replenish config with
      | none => exact .inl rfl
      | some paid =>
        have pick := permitted online inside other (by simp [taken])
        obtain ⟨paid_inv, info, date, paid_online, -⟩ := inv.replenish taken
        have paid_pick : paid.info day.toNat = .pick := info ▸ pick
        simp only [paid_pick, ↓reduceIte]
        refine .inr ⟨_, rfl, paid_inv.pickDay (paid_online.trans online) ?_ paid_pick vip ?_⟩
        · rw [Role.IsDay, date, number]
          exact inside
        · rw [date]
          exact begun _ pick
    · rw [if_neg other]
      by_cases pick : role.info day.toNat = .pick
      · simp only [pick, ↓reduceIte]
        refine .inr ⟨_, rfl, inv.pickDay online ?_ pick vip (begun _ pick)⟩
        rw [number]
        exact inside
      · simp [pick]
  · simp [inside]

/-- A make-up check-in for a day that cannot be picked is refused, and its count is lost. -/
theorem checkIn_loses {day : ℤ} (vip : ℕ) (inside : role.IsDay day) (other : day ≠ role.date.day)
    (paid : (role.replenish config).isSome = true) (unpick : role.info day.toNat ≠ .pick) :
    (role.checkIn config day vip).2 = false ∧ (role.checkIn config day vip).1 ≠ role := by
  obtain ⟨after, taken⟩ := Option.isSome_iff_exists.mp paid
  obtain ⟨-, info, -, -, changed⟩ := inv.replenish taken
  have refused : role.checkIn config day vip = (after, false) := by
    simp [Role.checkIn, inside, other, taken, info, unpick]
  rw [refused]
  exact ⟨rfl, changed⟩

theorem Inv.step {event : Event} (permitted : Permitted config role event)
    (taken : CheckIn.step config role event = some after) : Inv config after := by
  unfold CheckIn.step at taken
  split at taken
  all_goals try cases taken
  all_goals rename_i online
  · exact inv.nextDay permitted online
  · refine { inv with ordered := ?_, begun := ?_, current := ?_ }
    · exact inv.ordered.trans (by simp only [Role.nextDay]; omega)
    · intro same
      have := inv.ordered
      simp only [Role.nextDay] at same
      omega
    · exact fun impossible => absurd (online.symm.trans impossible) (by decide)
  · exact inv.login permitted online
  · refine { inv with current := ?_, left := ?_ }
    · exact fun impossible => by cases impossible
    · exact fun _ => (inv.current online).1.symm
  · exact inv.getReplenishCountByRecharge _
  · exact inv.getReplenishCountByActive _ _
  · rcases checkIn_cases inv online permitted with refused | ⟨picked, done, picked_inv⟩
    · rw [refused]
      exact inv
    · rw [done]
      exact picked_inv
  · exact inv.receiveChestAward online _

theorem Inv.right {event : Event} (permitted : Permitted config role event) :
    Right config role event := by
  refine ⟨fun after taken => (inv.step permitted taken).good, ?_⟩
  rintro day vip rfl online refused
  rcases checkIn_cases inv online permitted with same | ⟨picked, done, -⟩
  · rw [same]
  · rw [done] at refused
    cases refused

end

theorem numPicked_dailyReset (resets : role.Resets) : (role.dailyReset config).numPicked = 0 := by
  unfold Role.dailyReset
  rw [if_pos resets]
  refine countPicked_eq_zero.mpr fun day _ _ picked => ?_
  have entry : ((role.startMonth config).startDay config).info day =
      if 1 ≤ day ∧ day ≤ daysInMonth role.date.year role.date.month then
        if day ≤ role.date.day then .pick else .unpick
      else .unpick := rfl
  rw [entry] at picked
  split_ifs at picked

theorem Inv.permitted (inv : Inv config role) {event : Event} (right : Right config role event) :
    Permitted config role event := by
  cases event with
  | nextDay =>
    intro online resets
    have taken : CheckIn.step config role .nextDay = some (role.nextDay.checkDailyZeroRefresh config) := by
      simp [CheckIn.step, online]
    have counted := (right.1 _ taken).counted
    have due : role.nextDay.lastDaily < role.nextDay.today := by
      have := inv.ordered
      simp only [Role.nextDay]
      omega
    unfold Role.checkDailyZeroRefresh at counted
    rw [if_pos due, dailyReset_checkInCount, dailyReset_isOnline] at counted
    exact (counted online).trans (@numPicked_dailyReset config role.nextDay.mark resets)
  | login =>
    intro offline due resets
    have taken : CheckIn.step config role .login =
        some ((role.load config).checkDailyZeroRefresh config) := by
      simp [CheckIn.step, offline]
    have counted := (right.1 _ taken).counted
    unfold Role.checkDailyZeroRefresh at counted
    rw [if_pos (show (role.load config).lastDaily < (role.load config).today from due),
      dailyReset_checkInCount, dailyReset_isOnline] at counted
    exact (counted rfl).trans (@numPicked_dailyReset config (role.load config).mark resets)
  | checkIn day vip =>
    intro online inside other paid
    by_contra unpick
    have lost := checkIn_loses inv vip inside other paid unpick
    exact lost.2 (right.2 day vip rfl online lost.1)
  | logout => trivial
  | recharge progress => trivial
  | active points requireNum => trivial
  | chest id => trivial

/-- Rewards are granted once in a month, the days are counted right, chests need their count and refusals
change nothing throughout a sequence of events exactly if it throws away no list with counted days and spends
no make-up check-in on a day that cannot be picked. -/
theorem check_ins_right_iff (config : Config) (today : ℕ) (events : List Event) :
    Execution.Guarded (step config) (Right config) (.init config today) events ↔
      Execution.Guarded (step config) (Permitted config) (.init config today) events := by
  constructor
  · exact fun guarded => Execution.guarded_mono
      (fun inv right taken => inv.step (inv.permitted right) taken) (fun inv right => inv.permitted right)
      guarded (inv_init config today)
  · exact fun guarded => Execution.guarded_mono (fun inv permitted taken => inv.step permitted taken)
      (fun inv permitted => inv.right permitted) guarded (inv_init config today)

theorem good_of_guarded {final : Role} {events : List Event}
    (guarded : Execution.Guarded (step config) (Right config) role events)
    (execution : Execution.run (step config) role events = some final) (good : role.Good config) :
    final.Good config := by
  induction events generalizing role with
  | nil =>
    cases execution
    exact good
  | cons event events ih =>
    obtain ⟨next, taken, rest⟩ := Option.bind_eq_some_iff.mp execution
    exact ih (guarded.2 next taken) rest (guarded.1.1 next taken)

/-- A table in which every day has a reward and there is a make-up check-in a day. -/
def plainConfig : Config where
  month _ := ⟨fun _ => 1, fun _ => 1, [], fun _ => 3, fun _ => some [], [], 1, 1⟩
  chestNum := 1
  monthCheckLimit := 5

/-- A role that is created on the first of February and stays online gets a new list on the third, since it
has never logged out, and the reward of the second once more. -/
def neverLoggedOut : List Event :=
  [.login, .nextDay, .checkIn 2 0, .nextDay, .checkIn 2 0]

theorem neverLoggedOut_not_right :
    ¬ Execution.Guarded (step plainConfig) (Right plainConfig) (.init plainConfig 31) neverLoggedOut := by
  intro guarded
  have granted : (Execution.run (step plainConfig) (.init plainConfig 31) neverLoggedOut).map
      (fun role => role.rewards.map fun reward => (reward.month, reward.source)) =
        some [(23642, .day 2), (23642, .day 2)] := by decide +kernel
  obtain ⟨final, execution, rewards⟩ := Option.map_eq_some_iff.mp granted
  have once := (good_of_guarded guarded execution (inv_init plainConfig 31).good).once
  rw [rewards] at once
  exact absurd once (by decide)

end UEServer.CheckIn
