import Mathlib
import UEServer.Library.Bisect
import UEServer.Library.Execution

/-!
# Binary insertion and random sampling

`table.bi_search`, `table.bi_insert` and `table.sample` of `lualib/global_variables.lua`, where one draw of
`math.random(1, len)` comes after the other.  Indices are counted from 1.
-/

namespace UEServer.GlobalVariables

variable {α : Type*}

/-- A loop of `table.bi_search`: there is no result where it reads beside the list. -/
def biSearchLoop (less : α → α → Bool) (list : List α) (value : α) (leftIndex rightIndex : ℕ) : Option ℕ :=
  if leftIndex < rightIndex then
    match list[(leftIndex + rightIndex) / 2 - 1]? with
    | none => none
    | some other =>
        if less value other then biSearchLoop less list value leftIndex ((leftIndex + rightIndex) / 2)
        else biSearchLoop less list value ((leftIndex + rightIndex) / 2 + 1) rightIndex
  else some leftIndex
termination_by rightIndex - leftIndex

variable [LT α] [DecidableLT α]

/-- The comparison: by the function, or else by `<`. -/
def lessBy (compareFunc : Option (α → α → Bool)) : α → α → Bool :=
  compareFunc.getD fun first second => first < second

def biSearch (list : List α) (value : α) (compareFunc : Option (α → α → Bool)) : Option ℕ :=
  match compareFunc with
  | some compareFunc => biSearchLoop compareFunc list value 1 (1 + list.length)
  | none => biSearchLoop (fun first second => first < second) list value 1 (1 + list.length)

def biInsert (list : List α) (value : α) (compareFunc : Option (α → α → Bool)) : Option (List α) :=
  (biSearch list value compareFunc).map fun idx => list.take (idx - 1) ++ value :: list.drop (idx - 1)

omit [LT α] [DecidableLT α] in
theorem biSearchLoop_eq {less : α → α → Bool} {list : List α} {value : α} {fuel left right : ℕ}
    (enough : right - left ≤ fuel) (low : 1 ≤ left) (high : right ≤ list.length + 1) :
    biSearchLoop less list value left right = some (Bisect.searchLoop less list value fuel left right) := by
  induction fuel generalizing left right with
  | zero =>
      rw [biSearchLoop, if_neg (by omega)]
      rfl
  | succ fuel ih =>
      rw [biSearchLoop, Bisect.searchLoop]
      split
      · rw [List.getElem?_eq_getElem (show (left + right) / 2 - 1 < list.length by omega)]
        dsimp only
        split
        · exact ih (by omega) low (by omega)
        · exact ih (by omega) (by omega) high
      · rfl

theorem biSearch_eq (list : List α) (value : α) (compareFunc : Option (α → α → Bool)) :
    biSearch list value compareFunc = some (Bisect.search (lessBy compareFunc) list value) := by
  cases compareFunc with
  | none => exact biSearchLoop_eq (by omega) (Nat.le_refl 1) (by omega)
  | some less => exact biSearchLoop_eq (by omega) (Nat.le_refl 1) (by omega)

omit [LT α] [DecidableLT α] in
theorem splits_unique {less : α → α → Bool} {list : List α} {value : α} {index other : ℕ}
    (splits : Bisect.Splits less list value index) (splits' : Bisect.Splits less list value other) :
    index = other := by
  have apart : ∀ {first second : ℕ}, Bisect.Splits less list value first →
      Bisect.Splits less list value second → ¬ first < second := by
    intro first second one two earlier
    have low := one.low
    have high := two.high
    have found := List.getElem?_eq_getElem (show first - 1 < list.length by omega)
    have stays := two.before _ _ found (by omega)
    rw [one.after _ _ found (by omega)] at stays
    cases stays
  have not_less := apart splits splits'
  have not_more := apart splits' splits
  omega

section
omit [LT α] [DecidableLT α]
variable {less : α → α → Bool} (order : IsStrictWeakOrder α fun first second => less first second = true)
include order

theorem asymm_of_order ⦃first second : α⦄ (before : less first second = true) : less second first = false :=
  eq_false_of_ne_true fun after => order.irrefl first (order.trans _ _ _ before after)

theorem trans_of_order ⦃first second third : α⦄ (stays : less second first = false)
    (stays' : less third second = false) : less third first = false := by
  refine eq_false_of_ne_true fun before => ?_
  have apart : less first second ≠ true := fun comes =>
    ne_true_of_eq_false stays' (order.trans _ _ _ before comes)
  have apart' : less second third ≠ true := fun comes =>
    ne_true_of_eq_false stays (order.trans _ _ _ comes before)
  exact (order.incomp_trans first second third ⟨apart, ne_true_of_eq_false stays⟩
    ⟨apart', ne_true_of_eq_false stays'⟩).2 before

/-- The values that do not come after a value: those that come before it, and then those that are equivalent. -/
theorem exists_parts {front : List α} (sorted : Bisect.Sorted less front) {value : α}
    (stays : ∀ other ∈ front, less value other = false) :
    ∃ lower equal, front = lower ++ equal ∧ (∀ other ∈ lower, less other value = true) ∧
      ∀ other ∈ equal, less other value = false ∧ less value other = false := by
  induction front with
  | nil => exact ⟨[], [], rfl, nofun, nofun⟩
  | cons first others ih =>
      obtain ⟨leads, rest⟩ := List.pairwise_cons.mp sorted
      cases comes : less first value with
      | true =>
          obtain ⟨lower, equal, whole, before, apart⟩ := ih rest fun other mem => stays other (.tail _ mem)
          refine ⟨first :: lower, equal, ?_, List.forall_mem_cons.mpr ⟨comes, before⟩, apart⟩
          rw [whole, List.cons_append]
      | false =>
          refine ⟨[], first :: others, rfl, nofun, fun other mem => ⟨?_, stays other mem⟩⟩
          rcases List.mem_cons.mp mem with rfl | mem
          · exact comes
          · exact trans_of_order order comes (leads other mem)

end

theorem biInsert_eq (list : List α) (value : α) (compareFunc : Option (α → α → Bool)) :
    biInsert list value compareFunc = some (Bisect.insert (lessBy compareFunc) list value) := by
  rw [biInsert, biSearch_eq, Option.map_some, Bisect.insert]

/-- **Binary insertion is right**: the index is the only one that splits the list at the value, and the value goes
directly behind those that are equivalent to it. -/
theorem biInsert_right (compareFunc : Option (α → α → Bool))
    (order : IsStrictWeakOrder α fun first second => lessBy compareFunc first second = true) {list : List α}
    (sorted : Bisect.Sorted (lessBy compareFunc) list) (value : α) :
    (∃ index, biSearch list value compareFunc = some index ∧
      ∀ other, Bisect.Splits (lessBy compareFunc) list value other ↔ other = index) ∧
    ∃ lower equal upper, list = lower ++ equal ++ upper ∧
      biInsert list value compareFunc = some (lower ++ equal ++ value :: upper) ∧
      Bisect.Sorted (lessBy compareFunc) (lower ++ equal ++ value :: upper) ∧
      (∀ other ∈ lower, lessBy compareFunc other value = true) ∧
      (∀ other ∈ equal, lessBy compareFunc other value = false ∧ lessBy compareFunc value other = false) ∧
      ∀ other ∈ upper, lessBy compareFunc value other = true := by
  refine ⟨⟨_, biSearch_eq list value compareFunc, fun other => ⟨fun splits => ?_, ?_⟩⟩, ?_⟩
  · exact splits_unique splits (Bisect.search_splits (trans_of_order order) sorted value)
  · rintro rfl
    exact Bisect.search_splits (trans_of_order order) sorted value
  · have splits := Bisect.search_splits (trans_of_order order) sorted value
    have stays : ∀ other ∈ list.take (Bisect.search (lessBy compareFunc) list value - 1),
        lessBy compareFunc value other = false := by
      intro other mem
      obtain ⟨i, found⟩ := List.mem_iff_getElem?.mp mem
      rw [List.getElem?_take] at found
      split at found
      · exact splits.before i other found (by omega)
      · cases found
    obtain ⟨lower, equal, front, before, apart⟩ :=
      exists_parts order (sorted.sublist (List.take_sublist _ _)) stays
    refine ⟨lower, equal, list.drop (Bisect.search (lessBy compareFunc) list value - 1), ?_, ?_, ?_, before, apart,
      fun other mem => ?_⟩
    · rw [← front, List.take_append_drop]
    · rw [biInsert_eq, Bisect.insert, front]
    · rw [← front]
      exact Bisect.sorted_insert (asymm_of_order order) (trans_of_order order) sorted value
    · obtain ⟨i, found⟩ := List.mem_iff_getElem?.mp mem
      rw [List.getElem?_drop] at found
      exact splits.after _ other found (by omega)

theorem biInsert_right_two : ∃ lower equal upper, [1, 2, 2, 3] = lower ++ equal ++ upper ∧
    biInsert [1, 2, 2, 3] 2 none = some (lower ++ equal ++ 2 :: upper) := by
  have order : IsStrictWeakOrder ℕ fun first second => lessBy none first second = true :=
    { irrefl := by simp [lessBy]
      trans := by
        simp only [lessBy, Option.getD_none, decide_eq_true_eq]
        omega
      incomp_trans := by
        simp only [lessBy, Option.getD_none, decide_eq_true_eq]
        omega }
  have sorted : Bisect.Sorted (lessBy none) [1, 2, 2, 3] := by decide
  have right := biInsert_right none order sorted 2
  obtain ⟨-, lower, equal, upper, whole, inserted, -⟩ := right
  exact ⟨lower, equal, upper, whole, inserted⟩

end UEServer.GlobalVariables

namespace UEServer.GlobalVariables

variable {α : Type*}

/-- A sampler before a draw. -/
inductive Sampler (α : Type*) where
  | copying (copyTb : List α) (len : ℕ) (result : List α)
  | rejecting (dict : List ℕ) (result : List α)

def Sampler.result : Sampler α → List α
  | .copying _ _ result | .rejecting _ result => result

/-- The bound of the next draw. -/
def Sampler.len (tb : List α) : Sampler α → ℕ
  | .copying _ len _ => len
  | .rejecting _ _ => tb.length

/-- The size from which on positions are drawn until one is new. -/
def setsize (k : ℤ) : ℕ := if k > 5 then 21 + 4 ^ Nat.clog 4 (k * 3).toNat else 21

/-- The beginning of `table.sample`, which raises if there are not enough elements. -/
def startSample (tb : List α) (k : ℤ) : Option (Sampler α) :=
  if k < 0 ∨ k > tb.length then none
  else if tb.length < setsize k then some (.copying tb tb.length [])
  else some (.rejecting [] [])

/-- A draw, as long as elements are missing. -/
def drawSample (tb : List α) (k : ℤ) (sampler : Sampler α) (index : ℕ) : Option (Sampler α) :=
  if sampler.result.length ≥ k ∨ index < 1 ∨ index > sampler.len tb then none
  else
    match sampler with
    | .copying copyTb len result => do
        let value ← copyTb[index - 1]?
        let last ← copyTb[len - 1]?
        return .copying (copyTb.set (index - 1) last) (len - 1) (result ++ [value])
    | .rejecting dict result =>
        if index ∈ dict then some (.rejecting dict result)
        else (tb[index - 1]?).map fun value => .rejecting (index :: dict) (result ++ [value])

/-- The draws that give a new element. -/
def Sampler.free (tb : List α) : Sampler α → List ℕ
  | .copying _ len _ => List.range' 1 len
  | .rejecting dict _ => (List.range' 1 tb.length).filter (· ∉ dict)

/-- The elements at these positions, counted from 0. -/
def At (tb : List α) (values : List α) (positions : List ℕ) : Prop :=
  values.map some = positions.map fun position => tb[position]?

/-- The elements of the copy that are left are those at other positions than the ones that have been taken. -/
structure Copied (tb copyTb : List α) (len : ℕ) (taken : List ℕ) (slot : ℕ → ℕ) : Prop where
  nodup : taken.Nodup
  length : taken.length + len = tb.length
  copy : ∀ i < len, copyTb[i]? = tb[slot i]?
  inside : ∀ i < len, slot i < tb.length
  fresh : ∀ i < len, slot i ∉ taken
  apart : ∀ i < len, ∀ j < len, slot i = slot j → i = j

def Right (tb : List α) : Sampler α → Prop
  | .copying copyTb len result => ∃ taken slot, Copied tb copyTb len taken slot ∧ At tb result taken
  | .rejecting dict result => dict.Nodup ∧ (∀ index ∈ dict, 1 ≤ index ∧ index ≤ tb.length) ∧
      At tb result (dict.reverse.map (· - 1))

section
variable {tb : List α} {k : ℤ} {sampler next : Sampler α} {index : ℕ}

theorem At.length {values : List α} {positions : List ℕ} (here : At tb values positions) :
    values.length = positions.length := by
  simpa using congrArg List.length here

theorem At.concat {values : List α} {positions : List ℕ} (here : At tb values positions) {value : α} {position : ℕ}
    (found : tb[position]? = some value) : At tb (values ++ [value]) (positions ++ [position]) := by
  rw [At, List.map_append, List.map_append, here, List.map_singleton, List.map_singleton, found]

/-- The element that is drawn is taken, and the last one that is left put in its place. -/
theorem Copied.draw {copyTb : List α} {len : ℕ} {taken : List ℕ} {slot : ℕ → ℕ}
    (copied : Copied tb copyTb len taken slot) {i : ℕ} (less : i < len) {last : α}
    (found : copyTb[len - 1]? = some last) :
    Copied tb (copyTb.set i last) (len - 1) (taken ++ [slot i]) (Function.update slot i (slot (len - 1))) where
  nodup := List.nodup_append.mpr ⟨copied.nodup, List.nodup_singleton _, fun position mem other mem' => by
    cases List.mem_singleton.mp mem'
    rintro rfl
    exact copied.fresh i less mem⟩
  length := by
    rw [List.length_append, List.length_singleton, ← copied.length]
    omega
  copy := by
    intro j before
    have whole := copied.copy i less
    rw [List.getElem?_eq_getElem (copied.inside i less)] at whole
    obtain ⟨inside, -⟩ := List.getElem?_eq_some_iff.mp whole
    by_cases same : j = i
    · subst same
      rw [Function.update_self, List.getElem?_set_self inside, ← found]
      exact copied.copy (len - 1) (by omega)
    · rw [Function.update_of_ne same, List.getElem?_set_ne (Ne.symm same)]
      exact copied.copy j (by omega)
  inside := by
    intro j before
    by_cases same : j = i
    · rw [same, Function.update_self]
      exact copied.inside _ (by omega)
    · rw [Function.update_of_ne same]
      exact copied.inside j (by omega)
  fresh := by
    intro j before mem
    rcases List.mem_append.mp mem with mem | mem
    · by_cases same : j = i
      · rw [same, Function.update_self] at mem
        exact copied.fresh _ (by omega) mem
      · rw [Function.update_of_ne same] at mem
        exact copied.fresh j (by omega) mem
    · have eq := List.mem_singleton.mp mem
      by_cases same : j = i
      · rw [same, Function.update_self] at eq
        have := copied.apart _ (by omega) i less eq
        omega
      · rw [Function.update_of_ne same] at eq
        exact same (copied.apart j (by omega) i less eq)
  apart := by
    intro j before j' before' eq
    by_cases same : j = i <;> by_cases same' : j' = i
    · rw [same, same']
    · rw [same, Function.update_self, Function.update_of_ne same'] at eq
      have := copied.apart _ (by omega) j' (by omega) eq
      omega
    · rw [same', Function.update_self, Function.update_of_ne same] at eq
      have := copied.apart j (by omega) _ (by omega) eq
      omega
    · rw [Function.update_of_ne same, Function.update_of_ne same'] at eq
      exact copied.apart j (by omega) j' (by omega) eq

theorem drawSample_eq (fewer : sampler.result.length < k) (low : 1 ≤ index) (high : index ≤ sampler.len tb)
    (right : Right tb sampler) :
    ∃ next, drawSample tb k sampler index = some next ∧ Right tb next ∧
      (index ∈ sampler.free tb → next.result.length = sampler.result.length + 1) ∧
      (index ∉ sampler.free tb → next = sampler) := by
  have open_ : ¬ (sampler.result.length ≥ k ∨ index < 1 ∨ index > sampler.len tb) := by omega
  cases sampler with
  | copying copyTb len result =>
      obtain ⟨taken, slot, copied, here⟩ := right
      have less : index - 1 < len := by
        change index ≤ len at high
        omega
      obtain ⟨value, value_at⟩ : ∃ value, tb[slot (index - 1)]? = some value :=
        ⟨_, List.getElem?_eq_getElem (copied.inside _ less)⟩
      obtain ⟨last, last_at⟩ : ∃ last, tb[slot (len - 1)]? = some last :=
        ⟨_, List.getElem?_eq_getElem (copied.inside _ (by omega))⟩
      have found := (copied.copy _ less).trans value_at
      have found' := (copied.copy (len - 1) (by omega)).trans last_at
      refine ⟨.copying (copyTb.set (index - 1) last) (len - 1) (result ++ [value]), ?_, ?_, ?_, ?_⟩
      · rw [drawSample, if_neg open_]
        rw [found, found']
        rfl
      · exact ⟨_, _, copied.draw less found', here.concat value_at⟩
      · intro _
        exact List.length_append
      · intro taken'
        exact absurd (List.mem_range'_1.mpr ⟨low, by omega⟩) taken'
  | rejecting dict result =>
      obtain ⟨nodup, range, here⟩ := right
      change index ≤ tb.length at high
      rw [drawSample, if_neg open_]
      split
      · rename_i mem
        refine ⟨_, rfl, ⟨nodup, range, here⟩, fun free => ?_, fun _ => rfl⟩
        exact absurd mem (by simpa using (List.mem_filter.mp free).2)
      · rename_i fresh
        have found := List.getElem?_eq_getElem (show index - 1 < tb.length by omega)
        rw [found]
        refine ⟨_, rfl, ⟨List.nodup_cons.mpr ⟨fresh, nodup⟩, List.forall_mem_cons.mpr ⟨⟨low, high⟩, range⟩, ?_⟩,
          fun _ => List.length_append, fun taken => ?_⟩
        · rw [List.reverse_cons, List.map_append, List.map_singleton]
          exact here.concat found
        · exact absurd (List.mem_filter.mpr ⟨List.mem_range'_1.mpr ⟨low, by omega⟩, by simpa using fresh⟩) taken

theorem exists_free (right : Right tb sampler) (fewer : sampler.result.length < tb.length) :
    1 ≤ (sampler.free tb).length := by
  cases sampler with
  | copying copyTb len result =>
      obtain ⟨taken, slot, copied, here⟩ := right
      have length := copied.length
      have same := here.length
      change result.length < tb.length at fewer
      change 1 ≤ (List.range' 1 len).length
      rw [List.length_range']
      omega
  | rejecting dict result =>
      obtain ⟨nodup, -, here⟩ := right
      have same := here.length
      rw [List.length_map, List.length_reverse] at same
      change result.length < tb.length at fewer
      by_contra none
      have full : List.range' 1 tb.length ⊆ dict := by
        intro index mem
        by_contra fresh
        have free : index ∈ (List.range' 1 tb.length).filter (· ∉ dict) :=
          List.mem_filter.mpr ⟨mem, by simpa using fresh⟩
        exact none (List.length_pos_of_mem free)
      have := (List.subperm_of_subset List.nodup_range' full).length_le
      rw [List.length_range'] at this
      omega

theorem Right.step (right : Right tb sampler ∧ sampler.result.length ≤ k)
    (taken : drawSample tb k sampler index = some next) : Right tb next ∧ next.result.length ≤ k := by
  by_cases closed : sampler.result.length ≥ k ∨ index < 1 ∨ index > sampler.len tb
  · unfold drawSample at taken
    rw [if_pos closed] at taken
    cases taken
  · obtain ⟨other, drawn, kept, free, same⟩ :=
      @drawSample_eq _ tb k sampler index (by omega) (by omega) (by omega) right.1
    cases drawn.symm.trans taken
    refine ⟨kept, ?_⟩
    by_cases mem : index ∈ sampler.free tb
    · have more := free mem
      omega
    · rw [same mem]
      exact right.2

theorem Right.start (started : startSample tb k = some sampler) :
    (Right tb sampler ∧ sampler.result.length ≤ k) ∧ k ≤ tb.length := by
  rw [startSample] at started
  split at started
  · cases started
  · split at started
    · cases started
      refine ⟨⟨⟨[], id, ⟨.nil, by simp, fun _ _ => rfl, fun _ less => less, fun _ _ => nofun, fun _ _ _ _ same => same⟩,
        rfl⟩, ?_⟩, by omega⟩
      change ((0 : ℕ) : ℤ) ≤ k
      omega
    · cases started
      refine ⟨⟨⟨.nil, nofun, rfl⟩, ?_⟩, by omega⟩
      change ((0 : ℕ) : ℤ) ≤ k
      omega

end

/-- **Sampling is right**: it raises for a wrong number only; the elements that have been drawn are at different
positions; and as long as some are missing every draw is possible, a position is free, and a draw of a free position
gives one more element. -/
theorem sample_right (tb : List α) (k : ℤ) :
    (startSample tb k = none ↔ k < 0 ∨ k > tb.length) ∧
    ∀ sampler draws final, startSample tb k = some sampler →
      Execution.run (drawSample tb k) sampler draws = some final →
      (∃ positions : List ℕ, positions.Nodup ∧ At tb final.result positions) ∧ final.result.length ≤ k ∧
      (final.result.length < k → 1 ≤ (final.free tb).length ∧
        (∀ index, 1 ≤ index → index ≤ final.len tb → ∃ next, drawSample tb k final index = some next) ∧
        ∀ index ∈ final.free tb, ∃ next, drawSample tb k final index = some next ∧
          next.result.length = final.result.length + 1) := by
  refine ⟨?_, fun sampler draws final started execution => ?_⟩
  · rw [startSample]
    split
    · rename_i wrong
      exact ⟨fun _ => wrong, fun _ => rfl⟩
    · rename_i right
      refine iff_of_false ?_ right
      split <;> exact nofun
  · obtain ⟨base, enough⟩ := Right.start started
    obtain ⟨right, fewer⟩ := Execution.run_invariant Right.step execution base
    refine ⟨?_, fewer, fun missing => ⟨exists_free right (by omega), fun index low high => ?_, fun index free => ?_⟩⟩
    · cases final with
      | copying copyTb len result =>
          obtain ⟨taken, slot, copied, here⟩ := right
          exact ⟨taken, copied.nodup, here⟩
      | rejecting dict result =>
          obtain ⟨nodup, range, here⟩ := right
          refine ⟨_, (List.nodup_reverse.mpr nodup).map_on ?_, here⟩
          intro index mem other mem' same
          have low := range index (List.mem_reverse.mp mem)
          have low' := range other (List.mem_reverse.mp mem')
          omega
    · obtain ⟨next, drawn, -⟩ := drawSample_eq missing low high right
      exact ⟨next, drawn⟩
    · have bounds : 1 ≤ index ∧ index ≤ final.len tb := by
        cases final with
        | copying copyTb len result =>
            have bound := List.mem_range'_1.mp free
            exact ⟨bound.1, show index ≤ len by omega⟩
        | rejecting dict result =>
            have bound := List.mem_range'_1.mp (List.mem_filter.mp free).1
            exact ⟨bound.1, show index ≤ tb.length by omega⟩
      obtain ⟨next, drawn, -, more, -⟩ := drawSample_eq missing bounds.1 bounds.2 right
      exact ⟨next, drawn, more free⟩

end UEServer.GlobalVariables
