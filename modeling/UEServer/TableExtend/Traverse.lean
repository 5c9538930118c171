import Mathlib.Data.List.Induction
import UEServer.TableExtend.Recency

/-!
# Traversing an `LRU` while it changes

A loop over `pairs` finds the next key by the one that it has just visited.  It begins again at the
first key when that one has been deleted, and where it goes on from a key that has been moved to the end
depends on the direction.
-/

namespace UEServer.TableExtend

variable {κ ν : Type*} [DecidableEq κ]

namespace LRU

/-- A loop visits every key that is there at its start once, and ends. -/
def VisitsOnce (lru : LRU κ ν) (body : List (κ × ν) → κ → ν → Choice ν) : Prop :=
  ∃ fuel visited, traverse body fuel lru [] none = some visited ∧
    ∀ key, (lru.index key).isSome → (visited.map Prod.fst).count key = 1

def Choice.deletes : Choice ν → Bool
  | .delete => true
  | _ => false

/-- What may be done with a key: it may be deleted if all that were visited before are gone.  It may be
assigned or touched if it is the last one or, in reverse mode, if all that were visited before are
gone. -/
def Choice.Allowed (reverse gone last : Bool) : Choice ν → Prop
  | .keep => True
  | .delete => gone = true
  | .set _ _ | .touch _ => if reverse then gone = true else last = true

/-- The body does with every key what may be done with it. -/
def Undisturbed (reverse : Bool) (body : List (κ × ν) → κ → ν → Choice ν) :
    List (κ × ν) → Bool → List (κ × ν) → Prop
  | _, _, [] => True
  | visited, gone, entry :: rest =>
      (body visited entry.1 entry.2).Allowed reverse gone rest.isEmpty ∧
        Undisturbed reverse body (visited ++ [entry])
          (gone && (body visited entry.1 entry.2).deletes) rest

/-- What a choice does to the keys in the order of their use. -/
def chosen (table : Lru κ ν) (key : κ) (old : ν) : Choice ν → Lru κ ν
  | .keep => table
  | .delete => table.erase key
  | .set value time => table.put key value time
  | .touch time => table.put key old time

variable {lru : LRU κ ν} {table : Lru κ ν} {nodes : List ℕ} {key : κ} {value : ν}
  {body : List (κ × ν) → κ → ν → Choice ν} {front back : List (κ × ν × ℕ)} {entry : κ × ν × ℕ}

/-- The ring holds a list that is not too long. -/
structure Sound (lru : LRU κ ν) (table : Lru κ ν) : Prop where
  /-- The ring, the dictionary and the count have the keys of the list. -/
  keys : ∃ nodes, lru.Rep table nodes
  within : table.size = 0 ∨ (table.size : ℤ) ≤ lru.maxCount

theorem get_of_shown (entries : (shown lru.reverse table).entries = front ++ entry :: back) :
    table.get entry.1 = some entry.2.1 := by
  rw [← get_shown lru.reverse]
  refine Lru.get_eq_some.mpr ⟨entry.2.2, ?_⟩
  rw [entries]
  exact List.mem_append_cons_self

theorem Sound.choose (sound : lru.Sound table) (found : table.get key = some value)
    (choice : Choice ν) :
    (lru.choose key choice).Sound (chosen table key value choice) ∧
      (lru.choose key choice).reverse = lru.reverse := by
  obtain ⟨⟨nodes, rep⟩, within⟩ := sound
  cases choice with
  | keep => exact ⟨⟨⟨nodes, rep⟩, within⟩, rfl⟩
  | delete =>
      obtain ⟨rest, deleted, -, -⟩ := rep.delete key
      obtain ⟨-, -, reverse, maxCount⟩ := lru.delete_fields key
      refine ⟨⟨⟨rest, deleted⟩, ?_⟩, reverse⟩
      have fewer := table.size_erase_le key
      change (table.erase key).size = 0 ∨ ((table.erase key).size : ℤ) ≤ (lru.delete key).maxCount
      omega
  | set new time =>
      have room := put_within within found new time
      obtain ⟨keys, reverse, maxCount⟩ := rep.set_room room
      exact ⟨⟨keys, .inr (room.trans_eq maxCount.symm)⟩, reverse⟩
  | touch time =>
      obtain ⟨keys, reverse, maxCount⟩ := rep.touch_spec within found time
      have touched : lru.choose key (.touch time) = (lru.delete key).set key value time :=
        congrArg Prod.snd (touch_of_index ((rep.index key).trans found) time)
      rw [touched]
      exact ⟨⟨keys, .inr ((put_within within found value time).trans_eq maxCount.symm)⟩, reverse⟩

theorem Sound.next (sound : lru.Sound table) (key : Option κ) :
    lru.next key = (shown lru.reverse table).next key := by
  obtain ⟨nodes, rep⟩ := sound.keys
  exact rep.next key

theorem entries_shown_erase {reverse : Bool}
    (entries : (shown reverse table).entries = front ++ entry :: back) :
    (shown reverse (table.erase entry.1)).entries = front ++ back := by
  cases reverse with
  | false => exact Lru.entries_erase entries
  | true =>
      have forward : table.entries = back.reverse ++ entry :: front.reverse := by
        have turned : table.entries.reverse = front ++ entry :: back := entries
        rw [← List.reverse_reverse table.entries, turned]
        simp
      change (table.erase entry.1).entries.reverse = _
      rw [Lru.entries_erase forward]
      simp

theorem entries_shown_put {reverse : Bool}
    (entries : (shown reverse table).entries = front ++ entry :: back) (value : ν) (time : ℕ) :
    (shown reverse (table.put entry.1 value time)).entries =
      if reverse then (entry.1, value, time) :: (front ++ back)
      else front ++ back ++ [(entry.1, value, time)] := by
  have erased := entries_shown_erase entries
  cases reverse with
  | false =>
      change (table.erase entry.1).entries ++ _ = _
      rw [show (table.erase entry.1).entries = front ++ back from erased]
      rfl
  | true =>
      change ((table.erase entry.1).entries ++ [(entry.1, value, time)]).reverse = _
      rw [List.reverse_append, show (table.erase entry.1).entries.reverse = front ++ back from erased]
      rfl

/-- Where a loop is: the entries before and after its next step, and whether all that it has visited
are gone. -/
structure Amid (lru : LRU κ ν) (table : Lru κ ν) (visited : List (κ × ν)) (gone : Bool)
    (key : Option κ) (front back : List (κ × ν × ℕ)) : Prop where
  /-- The `LRU` is the list. -/
  sound : lru.Sound table
  entries : (shown lru.reverse table).entries = front ++ back
  next : lru.next key = back.head?.map fun entry => (entry.1, entry.2.1)
  /-- All that were visited are gone exactly if no entry is in front. -/
  gone : gone = true ↔ front = []
  seen : ∀ entry ∈ front, entry.1 ∈ visited.map Prod.fst

variable {visited : List (κ × ν)} {gone : Bool} {reached : Option κ}

theorem next_shown_none {reverse : Bool} {entries : List (κ × ν × ℕ)}
    (same : (shown reverse table).entries = entries) :
    (shown reverse table).next none = entries.head?.map fun entry => (entry.1, entry.2.1) := by
  rw [← same]
  rfl

theorem Amid.onward (amid : Amid lru table visited gone reached front (entry :: back))
    {choice : Choice ν} (allowed : choice.Allowed lru.reverse gone back.isEmpty) :
    ∃ after rest, (lru.choose entry.1 choice).reverse = lru.reverse ∧
      Amid (lru.choose entry.1 choice) after (visited ++ [(entry.1, entry.2.1)])
        (gone && choice.deletes) (some entry.1) rest back := by
  have found := get_of_shown amid.entries
  obtain ⟨sound, reverse⟩ := amid.sound.choose found choice
  have seen : ∀ other ∈ front ++ [entry],
      other.1 ∈ (visited ++ [(entry.1, entry.2.1)]).map Prod.fst := by
    intro other mem
    rw [List.map_append, List.mem_append]
    rcases List.mem_append.mp mem with mem | mem
    · exact .inl (amid.seen other mem)
    · cases List.mem_singleton.mp mem
      exact .inr List.mem_cons_self
  have assigned : ∀ value time, chosen table entry.1 entry.2.1 choice = table.put entry.1 value time →
      choice.deletes = false → (if lru.reverse then gone = true else back.isEmpty = true) →
        ∃ rest, Amid (lru.choose entry.1 choice) (chosen table entry.1 entry.2.1 choice)
          (visited ++ [(entry.1, entry.2.1)]) (gone && choice.deletes) (some entry.1) rest back := by
    intro value time put kept allowed
    have entries := entries_shown_put amid.entries value time
    rw [put] at sound ⊢
    rw [kept, Bool.and_false]
    have next := sound.next (some entry.1)
    cases reversed : lru.reverse with
    | false =>
        rw [reversed] at allowed entries
        have last : back = [] := List.isEmpty_iff.mp allowed
        subst last
        rw [reverse, reversed, @Lru.next_of_entries _ _ _ _ _ [] (entry.1, value, time) entries] at next
        refine ⟨front ++ [(entry.1, value, time)], sound, ?_, next, ?_, ?_⟩
        · rw [reverse, reversed, entries]
          simp
        · simp
        · intro other mem
          rcases List.mem_append.mp mem with mem | mem
          · exact seen other (List.mem_append_left _ mem)
          · cases List.mem_singleton.mp mem
            exact seen entry (List.mem_append_right _ List.mem_cons_self)
    | true =>
        rw [reversed] at allowed entries
        have first : front = [] := amid.gone.mp allowed
        subst first
        rw [reverse, reversed,
          @Lru.next_of_entries _ _ _ _ [] back (entry.1, value, time) entries] at next
        refine ⟨[(entry.1, value, time)], sound, ?_, next, ?_, ?_⟩
        · rw [reverse, reversed, entries]
          rfl
        · simp
        · intro other mem
          cases List.mem_singleton.mp mem
          exact seen entry List.mem_cons_self
  cases choice with
  | keep =>
      refine ⟨table, front ++ [entry], rfl, amid.sound, ?_, ?_, ?_, seen⟩
      · exact amid.entries.trans (List.append_cons ..)
      · rw [(amid.sound.choose found .keep).1.next]
        exact Lru.next_of_entries amid.entries
      · simp [Choice.deletes]
  | delete =>
      have first : front = [] := amid.gone.mp allowed
      subst first
      have entries := entries_shown_erase amid.entries
      rw [← reverse] at entries
      refine ⟨table.erase entry.1, [], reverse, sound, entries, ?_, ?_, nofun⟩
      · have absent : (shown (lru.choose entry.1 .delete).reverse (table.erase entry.1)).get entry.1 =
            none := by
          rw [get_shown, Lru.get_erase, if_pos rfl]
        rw [sound.next]
        exact (Lru.next_of_absent absent).trans (next_shown_none entries)
      · rw [show gone = true from allowed]
        simp [Choice.deletes]
  | set value time =>
      obtain ⟨rest, amid⟩ := assigned value time rfl rfl allowed
      exact ⟨_, rest, reverse, amid⟩
  | touch time =>
      obtain ⟨rest, amid⟩ := assigned entry.2.1 time rfl rfl allowed
      exact ⟨_, rest, reverse, amid⟩

/-- After any other choice the loop comes to a key that it has visited, or ends too early. -/
theorem Amid.astray (amid : Amid lru table visited gone reached front (entry :: back))
    {choice : Choice ν} (disallowed : ¬ choice.Allowed lru.reverse gone back.isEmpty) :
    (∃ again, (lru.choose entry.1 choice).next (some entry.1) = some again ∧
      again.1 ∈ visited.map Prod.fst) ∨
        (lru.choose entry.1 choice).next (some entry.1) = none ∧ back ≠ [] := by
  have found := get_of_shown amid.entries
  obtain ⟨sound, reverse⟩ := amid.sound.choose found choice
  have some_front : ¬ gone = true → ∃ first rest, front = first :: rest := by
    intro stays
    exact List.exists_cons_of_ne_nil fun none => stays (amid.gone.mpr none)
  have assigned : ∀ value time, chosen table entry.1 entry.2.1 choice = table.put entry.1 value time →
      ¬ (if lru.reverse then gone = true else back.isEmpty = true) →
        (∃ again, (lru.choose entry.1 choice).next (some entry.1) = some again ∧
          again.1 ∈ visited.map Prod.fst) ∨
            (lru.choose entry.1 choice).next (some entry.1) = none ∧ back ≠ [] := by
    intro value time put disallowed
    have entries := entries_shown_put amid.entries value time
    rw [put] at sound
    have next := sound.next (some entry.1)
    cases reversed : lru.reverse with
    | false =>
        rw [reversed] at disallowed entries
        rw [reverse, reversed, @Lru.next_of_entries _ _ _ _ _ [] (entry.1, value, time) entries] at next
        exact .inr ⟨next, fun none => disallowed (List.isEmpty_iff.mpr none)⟩
    | true =>
        rw [reversed] at disallowed entries
        obtain ⟨first, rest, rfl⟩ := some_front disallowed
        rw [reverse, reversed,
          @Lru.next_of_entries _ _ _ _ [] _ (entry.1, value, time) entries] at next
        exact .inl ⟨_, next, amid.seen first List.mem_cons_self⟩
  cases choice with
  | keep => exact absurd trivial disallowed
  | delete =>
      obtain ⟨first, rest, rfl⟩ := some_front disallowed
      have entries := entries_shown_erase amid.entries
      rw [← reverse] at entries
      have absent : (shown (lru.choose entry.1 .delete).reverse (table.erase entry.1)).get entry.1 =
          none := by
        rw [get_shown, Lru.get_erase, if_pos rfl]
      have next := (sound.next (some entry.1)).trans
        ((Lru.next_of_absent absent).trans (next_shown_none entries))
      exact .inl ⟨_, next, amid.seen first List.mem_cons_self⟩
  | set value time => exact assigned value time rfl disallowed
  | touch time => exact assigned entry.2.1 time rfl disallowed

variable {final : List (κ × ν)} {fuel : ℕ}

theorem prefix_of_traverse
    (ended : traverse body fuel lru visited reached = some final) : visited <+: final := by
  induction fuel generalizing lru visited reached with
  | zero => cases ended
  | succ fuel ih =>
      rw [traverse] at ended
      cases next : lru.next reached with
      | none =>
          rw [next] at ended
          exact Option.some.inj ended ▸ List.prefix_rfl
      | some entry =>
          rw [next] at ended
          exact (List.prefix_append visited _).trans (ih ended)

theorem visited_again {last again : κ × ν}
    (ended : traverse body fuel lru (visited ++ [last]) reached = some final)
    (next : lru.next reached = some again) (seen : again.1 ∈ visited.map Prod.fst) :
    1 < (final.map Prod.fst).count again.1 := by
  cases fuel with
  | zero => cases ended
  | succ fuel =>
      rw [traverse, next] at ended
      have kept := (prefix_of_traverse ended).sublist.map Prod.fst
      have twice := kept.count_le again.1
      have once := List.count_pos_iff.mpr seen
      simp only [List.map_append, List.count_append, List.map_cons, List.map_nil,
        List.count_singleton_self] at twice
      omega

theorem traverse_ended
    (ended : traverse body fuel lru visited reached = some final) (next : lru.next reached = none) :
    final = visited := by
  cases fuel with
  | zero => cases ended
  | succ fuel =>
      rw [traverse, next] at ended
      exact (Option.some.inj ended).symm

/-- A loop that does only what is allowed visits the rest of the entries. -/
theorem Amid.traverse (amid : Amid lru table visited gone reached front back)
    (undisturbed : Undisturbed lru.reverse body visited gone
      (back.map fun entry => (entry.1, entry.2.1))) (enough : back.length < fuel) :
    LRU.traverse body fuel lru visited reached =
      some (visited ++ back.map fun entry => (entry.1, entry.2.1)) := by
  induction back generalizing lru table visited gone reached front fuel with
  | nil =>
      obtain ⟨fuel, rfl⟩ := Nat.exists_eq_succ_of_ne_zero (Nat.ne_of_gt enough)
      rw [LRU.traverse, amid.next]
      simp
  | cons entry back ih =>
      obtain ⟨fuel, rfl⟩ := Nat.exists_eq_succ_of_ne_zero (Nat.ne_of_gt (Nat.zero_lt_of_lt enough))
      obtain ⟨allowed, later⟩ := undisturbed
      rw [List.isEmpty_map] at allowed
      obtain ⟨after, rest, reverse, onward⟩ := amid.onward allowed
      rw [← reverse] at later
      have all := ih onward later (Nat.lt_of_succ_lt_succ enough)
      rw [LRU.traverse, amid.next]
      change LRU.traverse body fuel (lru.choose entry.1 (body visited entry.1 entry.2.1))
        (visited ++ [(entry.1, entry.2.1)]) (some entry.1) = _
      rw [all, List.append_assoc]
      rfl

/-- A loop that does something else visits a key twice, or leaves one out. -/
theorem Amid.traverse_astray (amid : Amid lru table visited gone reached front back)
    (nodup : ((visited ++ back.map fun entry => (entry.1, entry.2.1)).map Prod.fst).Nodup)
    (disturbed : ¬ Undisturbed lru.reverse body visited gone
      (back.map fun entry => (entry.1, entry.2.1)))
    (ended : LRU.traverse body fuel lru visited reached = some final) :
    ∃ key ∈ (visited ++ back.map fun entry => (entry.1, entry.2.1)).map Prod.fst,
      (final.map Prod.fst).count key ≠ 1 := by
  induction back generalizing lru table visited gone reached front fuel with
  | nil => exact absurd trivial disturbed
  | cons entry back ih =>
      cases fuel with
      | zero => cases ended
      | succ fuel =>
          have split : (visited ++ (entry :: back).map fun entry => (entry.1, entry.2.1)) =
              visited ++ [(entry.1, entry.2.1)] ++ back.map fun entry => (entry.1, entry.2.1) :=
            List.append_cons ..
          rw [LRU.traverse, amid.next] at ended
          rw [split] at nodup ⊢
          by_cases allowed : (body visited entry.1 entry.2.1).Allowed lru.reverse gone back.isEmpty
          · obtain ⟨after, rest, reverse, onward⟩ := amid.onward allowed
            refine ih onward nodup ?_ ended
            intro later
            rw [reverse] at later
            refine disturbed ⟨?_, later⟩
            rw [List.isEmpty_map]
            exact allowed
          · rcases amid.astray allowed with ⟨again, next, seen⟩ | ⟨next, some⟩
            · refine ⟨again.1, ?_, Nat.ne_of_gt (visited_again ended next seen)⟩
              rw [List.append_assoc, List.map_append, List.mem_append]
              exact .inl seen
            · obtain ⟨left, behind, rfl⟩ := List.exists_cons_of_ne_nil some
              refine ⟨left.1, by simp, ?_⟩
              rw [List.map_append, List.nodup_append] at nodup
              have absent : left.1 ∉ final.map Prod.fst := by
                rw [traverse_ended ended next]
                intro mem
                exact nodup.2.2 left.1 mem left.1 List.mem_cons_self rfl
              rw [List.count_eq_zero.mpr absent]
              exact Nat.zero_ne_one

/-- A loop over `pairs` visits every key once exactly if its body does only what is allowed. -/
theorem Sound.body_visitsOnce_iff (sound : lru.Sound table) (body : List (κ × ν) → κ → ν → Choice ν) :
    lru.VisitsOnce body ↔ Undisturbed lru.reverse body [] true
      ((shown lru.reverse table).entries.map fun entry => (entry.1, entry.2.1)) := by
  have amid : Amid lru table [] true none [] (shown lru.reverse table).entries :=
    ⟨sound, rfl, sound.next none, ⟨fun _ => rfl, fun _ => rfl⟩, nofun⟩
  have keys : ((shown lru.reverse table).entries.map fun entry => (entry.1, entry.2.1)).map Prod.fst =
      (shown lru.reverse table).entries.map Prod.fst := by
    rw [List.map_map]
    rfl
  have nodup := (shown lru.reverse table).nodup
  rw [← keys] at nodup
  have present : ∀ key, (lru.index key).isSome ↔
      key ∈ ((shown lru.reverse table).entries.map fun entry => (entry.1, entry.2.1)).map Prod.fst := by
    intro key
    obtain ⟨nodes, rep⟩ := sound.keys
    rw [rep.index, ← get_shown lru.reverse, keys, Option.isSome_iff_exists, List.mem_map]
    constructor
    · rintro ⟨value, found⟩
      obtain ⟨time, mem⟩ := Lru.get_eq_some.mp found
      exact ⟨(key, value, time), mem, rfl⟩
    · rintro ⟨⟨_, value, time⟩, mem, rfl⟩
      exact ⟨value, Lru.get_eq_some.mpr ⟨time, mem⟩⟩
  constructor
  · rintro ⟨fuel, visited, ended, once⟩
    by_contra disturbed
    obtain ⟨key, mem, not_once⟩ := amid.traverse_astray nodup disturbed ended
    exact not_once (once key ((present key).mpr mem))
  · intro undisturbed
    refine ⟨_, _, amid.traverse undisturbed (Nat.lt_succ_self _), fun key there => ?_⟩
    exact List.count_eq_one_of_mem nodup ((present key).mp there)

theorem Rep.pop_sound (rep : lru.Rep table nodes)
    (within : table.size - 1 = 0 ∨ ((table.size - 1 : ℕ) : ℤ) ≤ lru.maxCount) :
    ∃ after, lru.pop.2.Sound after := by
  rcases rep.pop with ⟨popped, empty⟩ | ⟨key, value, time, rest, first, -, removed⟩
  · rw [popped]
    exact ⟨table, ⟨nodes, rep⟩, .inl (congrArg List.length empty)⟩
  · have found : table.get key = some value := by
      rw [← get_shown lru.reverse]
      exact Lru.get_of_peek first
    have size := Lru.size_erase_of_get found
    refine ⟨table.erase key, ⟨rest, removed⟩, ?_⟩
    rw [lru.pop_fields.2]
    omega

theorem Sound.step (sound : lru.Sound table) (label : Label κ ν) :
    (∃ after, (lru.step label).2.Sound after) ∧ (lru.step label).2.reverse = lru.reverse := by
  obtain ⟨⟨nodes, rep⟩, within⟩ := sound
  cases label with
  | set key value time =>
      obtain ⟨added, rest, assigned, added_rep, reverse, maxCount⟩ := rep.set key value time
      have size : (table.put key value time).size = table.size ∨
          (table.put key value time).size = table.size + 1 := by
        cases found : table.get key with
        | none => exact .inr (Lru.size_put_of_absent value time found)
        | some old => exact .inl (Lru.size_put_of_get value time found)
      have count := added_rep.count_eq
      change (∃ after, (lru.set key value time).Sound after) ∧
        (lru.set key value time).reverse = lru.reverse
      rw [assigned]
      split
      · exact ⟨added_rep.pop_sound (by omega), added.pop_fields.1.trans reverse⟩
      · exact ⟨⟨_, ⟨rest, added_rep⟩, .inr (by omega)⟩, reverse⟩
  | delete key =>
      obtain ⟨rest, deleted, -, -⟩ := rep.delete key
      obtain ⟨-, -, reverse, maxCount⟩ := lru.delete_fields key
      have fewer := table.size_erase_le key
      refine ⟨⟨_, ⟨rest, deleted⟩, ?_⟩, reverse⟩
      change _ ∨ _ ≤ (lru.delete key).maxCount
      omega
  | touch key time =>
      cases found : table.get key with
      | none =>
          have same := touch_of_absent ((rep.index key).trans found) time
          rw [LRU.step, same]
          exact ⟨⟨table, ⟨nodes, rep⟩, within⟩, rfl⟩
      | some old =>
          obtain ⟨kept, reverse⟩ := Sound.choose ⟨⟨nodes, rep⟩, within⟩ found (.touch time)
          exact ⟨⟨_, kept⟩, reverse⟩
  | pop => exact ⟨rep.pop_sound (by omega), lru.pop_fields.1⟩
  | peek => exact ⟨⟨table, ⟨nodes, rep⟩, within⟩, rfl⟩
  | clear => exact ⟨⟨Lru.empty, ⟨[], Rep.clear lru⟩, .inl rfl⟩, rfl⟩

/-- What some operations make of a new `LRU`. -/
def reach (reverse : Bool) (maxCount : Option ℤ) (labels : List (Label κ ν)) : LRU κ ν :=
  labels.foldl (fun lru label => (lru.step label).2) (new reverse maxCount)

theorem reach_sound (reverse : Bool) (maxCount : Option ℤ) (labels : List (Label κ ν)) :
    (∃ table, (reach reverse maxCount labels).Sound table) ∧
      (reach reverse maxCount labels).reverse = reverse := by
  induction labels using List.reverseRecOn with
  | nil => exact ⟨⟨Lru.empty, ⟨[], rep_new reverse maxCount⟩, .inl rfl⟩, rfl⟩
  | append_singleton labels label ih =>
      obtain ⟨⟨table, sound⟩, same⟩ := ih
      obtain ⟨after, kept⟩ := sound.step label
      unfold reach at after kept same ⊢
      rw [List.foldl_append]
      exact ⟨after, kept.trans same⟩

/-- The keys of an `LRU` are visited in some order, and a loop whose body may change the key that it
visits visits each of them once exactly if the body does only what is allowed there. -/
theorem visitsOnce_iff (reverse : Bool) (maxCount : Option ℤ) (labels : List (Label κ ν)) :
    ∃ entries : List (κ × ν),
      (∀ fuel, entries.length < fuel →
        (reach reverse maxCount labels).pairs fuel = some entries) ∧
      ∀ body, (reach reverse maxCount labels).VisitsOnce body ↔
        Undisturbed reverse body [] true entries := by
  obtain ⟨⟨table, sound⟩, same⟩ := reach_sound reverse maxCount labels
  obtain ⟨nodes, rep⟩ := sound.keys
  refine ⟨(shown (reach reverse maxCount labels).reverse table).entries.map fun entry =>
    (entry.1, entry.2.1), fun fuel enough => ?_, fun body => ?_⟩
  · rw [List.length_map, length_shown] at enough
    exact rep.pairs enough
  · have iff := sound.body_visitsOnce_iff body
    rwa [same] at iff ⊢

/-- Touching the first of two keys ends the loop. -/
theorem touching_not_visitsOnce :
    ¬ (reach false none [.set 1 10 0, .set 2 20 1] : LRU ℕ ℕ).VisitsOnce fun _ _ _ => .touch 2 := by
  rintro ⟨fuel, visited, ended, once⟩
  have all := once 2 rfl
  match fuel with
  | 0 => cases ended
  | 1 => cases ended
  | fuel + 2 =>
      have first : some [(1, 10)] = some visited := ended
      cases first
      revert all
      decide

end LRU
end UEServer.TableExtend
