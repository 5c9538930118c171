import UEServer.Child.Sorted

/-!
# The market is sorted, and its pages

The lists follow what is stored throughout a run exactly if every step of it is steady.  The pages of a list
are apart only if there is one of them: each page after the first one begins with the last entry of the one
before it.
-/

namespace UEServer.ChildMarket

open Execution

section
variable {ρ : Type*} {signList : List (Object ρ)}

theorem pages_succ (signList : List (Object ρ)) (count : ℕ) :
    pages signList (count + 1) = pages signList count ++ (page signList (count + 1)).getD [] := by
  rw [pages, List.range_succ, List.flatMap_append, List.flatMap_singleton]
  rfl

theorem maxCount_eq : maxCount = 10 := rfl

theorem page_one (signList : List (Object ρ)) (some_ : signList ≠ []) :
    page signList 1 = some (signList.take maxCount) := by
  have length := List.length_pos_iff.mpr some_
  have bounds : pageBounds 1 signList.length =
      some (1, if maxCount > signList.length then signList.length else maxCount) := by
    exact if_neg (Nat.not_lt.mpr length)
  rw [page, bounds, Option.map_some]
  dsimp only
  split
  · rw [List.take_length, List.take_of_length_le (by omega)]
    rfl
  · rfl

theorem page_later {count : ℕ} (later : 1 ≤ count) (left : count * maxCount ≤ signList.length) :
    ((page signList (count + 1)).getD []).length =
      min ((count + 1) * maxCount) signList.length + 1 - count * maxCount := by
  have bounds : pageBounds (count + 1) signList.length =
      some (count * maxCount, min ((count + 1) * maxCount) signList.length) := by
    rw [pageBounds, Nat.add_sub_cancel]
    rw [maxCount_eq] at left ⊢
    rw [if_neg (by omega : ¬ count * 10 ≤ 0), if_neg (by omega)]
    have right : (if (count + 1) * 10 > signList.length then signList.length else (count + 1) * 10) =
        min ((count + 1) * 10) signList.length := by
      split <;> omega
    rw [right]
  rw [page, bounds, Option.map_some, Option.getD_some, List.length_drop, List.length_take]
  dsimp only [maxCount] at left ⊢
  omega

theorem page_beyond {count : ℕ} (later : 1 ≤ count) (beyond : signList.length < count * maxCount) :
    page signList (count + 1) = none := by
  rw [page, pageBounds, Nat.add_sub_cancel]
  rw [maxCount_eq] at beyond ⊢
  rw [if_neg (by omega : ¬ count * 10 ≤ 0), if_pos (by omega), Option.map_none]

theorem length_pages {count : ℕ} (left : count * maxCount ≤ signList.length) (some_ : signList ≠ []) :
    (pages signList (count + 1)).length = min ((count + 1) * maxCount) signList.length + count := by
  induction count with
  | zero =>
      rw [pages_succ, page_one signList some_, Option.getD_some]
      change (List.take maxCount signList).length = _
      rw [List.length_take, Nat.zero_add, Nat.one_mul, Nat.add_zero]
  | succ count ih =>
      rw [pages_succ, List.length_append, page_later (by omega) left, ih (by
        dsimp only [maxCount] at left ⊢
        omega)]
      dsimp only [maxCount] at left ⊢
      omega

theorem pages_of_few {count : ℕ} (few : signList.length < maxCount) :
    pages signList (count + 1) = signList := by
  induction count with
  | zero =>
      rw [pages_succ]
      change [] ++ (page signList 1).getD [] = signList
      rw [List.nil_append]
      rcases eq_or_ne signList [] with rfl | some_
      · rfl
      · rw [page_one signList some_, Option.getD_some, List.take_of_length_le few.le]
  | succ count ih =>
      have beyond : signList.length < (count + 1) * maxCount := by
        dsimp only [maxCount] at few ⊢
        omega
      rw [pages_succ, ih, page_beyond (by omega) beyond, Option.getD_none, List.append_nil]

theorem paged_iff_length (signList : List (Object ρ)) : Paged signList ↔ signList.length < maxCount := by
  constructor
  · intro paged
    by_contra many
    have left : signList.length / maxCount * maxCount ≤ signList.length := Nat.div_mul_le_self _ _
    have all : signList.length ≤ (signList.length / maxCount + 1) * maxCount := by
      dsimp only [maxCount]
      omega
    have some_ : signList ≠ [] := by
      rintro rfl
      exact many (Nat.zero_lt_succ 9)
    have length := length_pages left some_
    rw [paged _ all, Nat.min_eq_right all] at length
    dsimp only [maxCount] at many length
    omega
  · intro few count all
    cases count with
    | zero =>
        rw [Nat.zero_mul, Nat.le_zero, List.length_eq_zero_iff] at all
        rw [all]
        rfl
    | succ count => exact pages_of_few few

end

section
variable {ρ : Type*} [DecidableEq ρ]

/-- What is stored, and the proposals as they are walked when the lists are built first. -/
structure Stored (propose : Table ρ (Table ℕ (Object ρ))) (entries : List (Object ρ)) : Prop where
  /-- Every proposal is stored under its role and child. -/
  keyed : Keyed (Market.start propose entries)
  walked : entries.Perm (Market.start propose entries).objects

theorem step_keyed {market next : Market ρ} {event : Event ρ} (keyed : Keyed market) (good : Good market)
    (taken : step market event = some next) : Keyed next := by
  cases event with
  | add object =>
      cases taken
      exact keyed.addObject object
  | delete uuid childId border =>
      rw [step] at taken
      split at taken
      · cases taken
        exact keyed.deleteObject good uuid childId border
      · cases taken
  | reset entries =>
      rw [step] at taken
      split at taken
      · cases taken
        exact keyed
      · cases taken

theorem step_good_iff {market next : Market ρ} {event : Event ρ} (keyed : Keyed market)
    (good : Good market) (taken : step market event = some next) : Good next ↔ Steady market event := by
  cases event with
  | add object =>
      cases taken
      exact ⟨steady_of_good_add keyed good, good_add good⟩
  | delete uuid childId border =>
      rw [step] at taken
      split at taken
      · cases taken
        exact ⟨steady_of_good_delete keyed good, good_delete keyed good⟩
      · cases taken
  | reset entries =>
      rw [step] at taken
      split at taken
      · rename_i walked
        cases taken
        exact ⟨fun _ => trivial, fun _ => good_reset keyed walked⟩
      · cases taken

end

def proposal (uuid : String) (childId : ℕ) (attr : ℚ) (applyTime : ℤ) : Object String :=
  ⟨uuid, childId, .man, 1, [("business", attr)], attr, applyTime⟩

/-- Two children are offered, one of them again, one is taken away, and the market is rebuilt. -/
def steadyEvents : List (Event String) :=
  [.add (proposal "a" 1 10 5), .add (proposal "b" 1 20 6), .add (proposal "a" 1 12 7),
    .delete "b" 1 0, .reset [proposal "a" 1 12 7]]

/-- The better child is offered again with less. -/
def lessEvents : List (Event String) :=
  [.add (proposal "a" 1 10 5), .add (proposal "b" 1 5 6), .add (proposal "a" 1 1 7)]

end UEServer.ChildMarket
