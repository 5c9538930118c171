import UEServer.TableExtend.Lru

/-!
# The ring and the dictionary are in step

The tables of an `LRU` hold the entries of a table that remembers the order of its assignments, and
every operation of the one is an operation of the other.
-/

namespace UEServer.TableExtend

variable {κ ν : Type*} [DecidableEq κ]

def shown (reverse : Bool) (table : Lru κ ν) : Lru κ ν := if reverse then table.flip else table

namespace LRU

/-- The links in the direction of a traversal. -/
def directed (lru : LRU κ ν) : Links := if lru.reverse then lru.links.flip else lru.links

/-- The nodes of the ring hold the entries, the dictionary finds them, and they are counted. -/
structure Rep (lru : LRU κ ν) (table : Lru κ ν) (nodes : List ℕ) : Prop where
  ring : lru.links.Ring lru.root nodes
  entries : nodes.map lru.elems = table.entries.map some
  root : lru.elems lru.root = none
  dict : ∀ key node, lru.elemDict key = some node ↔
    node ∈ nodes ∧ ∃ value time, lru.elems node = some (key, value, time)
  count : lru.count = nodes.length
  fresh : ∀ node ∈ lru.root :: nodes, node < lru.fresh

variable {lru : LRU κ ν} {table : Lru κ ν} {nodes : List ℕ} {key : κ} {node : ℕ}

section
omit [DecidableEq κ]

theorem Rep.length (rep : lru.Rep table nodes) : nodes.length = table.entries.length := by
  rw [← List.length_map (f := lru.elems), rep.entries, List.length_map]

theorem Rep.len (rep : lru.Rep table nodes) : lru.len = table.entries.length := by
  rw [← rep.length]
  exact rep.count

theorem Rep.split (rep : lru.Rep table nodes) (found : lru.elemDict key = some node) :
    ∃ front back before value time behind,
      nodes = front ++ node :: back ∧ table.entries = before ++ (key, value, time) :: behind ∧
        front.map lru.elems = before.map some ∧ back.map lru.elems = behind.map some ∧
          lru.elems node = some (key, value, time) := by
  obtain ⟨mem, value, time, fields⟩ := (rep.dict key node).mp found
  obtain ⟨front, back, rfl⟩ := List.append_of_mem mem
  have entries := rep.entries
  rw [List.map_append, List.map_cons, fields] at entries
  obtain ⟨before, rest, entries, before_eq, rest_eq⟩ := List.map_eq_append_iff.mp entries.symm
  obtain ⟨entry, behind, rfl, entry_eq, behind_eq⟩ := List.map_eq_cons_iff.mp rest_eq
  obtain rfl := Option.some.inj entry_eq
  exact ⟨front, back, before, value, time, behind, rfl, entries, before_eq.symm, behind_eq.symm,
    fields⟩

end

section
variable (rep : lru.Rep table nodes)
include rep

theorem Rep.get_of_found (found : lru.elemDict key = some node) :
    ∃ value time, lru.elems node = some (key, value, time) ∧ table.get key = some value := by
  obtain ⟨front, back, before, value, time, behind, -, entries, -, -, fields⟩ := rep.split found
  refine ⟨value, time, fields, Lru.get_eq_some.mpr ⟨time, ?_⟩⟩
  rw [entries]
  exact List.mem_append_cons_self

theorem Rep.get_of_missing (missing : lru.elemDict key = none) : table.get key = none := by
  cases got : table.get key with
  | none => rfl
  | some value =>
      obtain ⟨time, mem⟩ := Lru.get_eq_some.mp got
      have held : some (key, value, time) ∈ nodes.map lru.elems := by
        rw [rep.entries]
        exact List.mem_map_of_mem mem
      obtain ⟨node, inside, fields⟩ := List.mem_map.mp held
      cases missing.symm.trans ((rep.dict key node).mpr ⟨inside, value, time, fields⟩)

theorem Rep.index (key : κ) : lru.index key = table.get key := by
  unfold LRU.index
  cases found : lru.elemDict key with
  | none => exact (rep.get_of_missing found).symm
  | some node =>
      obtain ⟨value, time, fields, got⟩ := rep.get_of_found found
      rw [got, Option.bind_some, fields]
      rfl

theorem Rep.remove (found : lru.elemDict key = some node) :
    ∃ rest, (lru.remove key node).Rep (table.erase key) rest ∧ rest ⊆ nodes ∧ node ∉ rest := by
  obtain ⟨front, back, before, value, time, behind, rfl, entries, front_eq, back_eq, fields⟩ :=
    rep.split found
  have ring := rep.ring.unlink
  have nodup := (List.nodup_cons.mp rep.ring.nodup).2
  have outside : node ∉ front ++ back := (List.nodup_cons.mp (List.nodup_middle.mp nodup)).1
  have kept : front ++ back ⊆ front ++ node :: back :=
    (List.sublist_cons_self node back).append_left front |>.subset
  refine ⟨front ++ back, ⟨ring, ?_, rep.root, fun other place => ?_, ?_, fun place mem => ?_⟩, kept,
    outside⟩
  · have erased := Lru.entries_erase entries
    rw [erased, List.map_append, List.map_append, ← front_eq, ← back_eq]
    rfl
  · change Function.update lru.elemDict key none other = some place ↔ _
    by_cases same : other = key
    · subst same
      rw [Function.update_self]
      refine ⟨by rintro ⟨⟩, ?_⟩
      rintro ⟨mem, held⟩
      have again := (rep.dict other place).mpr ⟨kept mem, held⟩
      cases again.symm.trans found
      exact absurd mem outside
    · rw [Function.update_of_ne same, rep.dict]
      refine and_congr_left fun held => ⟨fun mem => ?_, fun mem => kept mem⟩
      rcases List.mem_append.mp mem with mem | mem
      · exact List.mem_append_left back mem
      · rcases List.mem_cons.mp mem with rfl | mem
        · obtain ⟨_, _, again⟩ := held
          have both := fields.symm.trans again
          exact absurd (Prod.ext_iff.mp (Option.some.inj both)).1.symm same
        · exact List.mem_append_right front mem
  · change lru.count - 1 = _
    rw [rep.count, List.length_append, List.length_append, List.length_cons]
    omega
  · refine rep.fresh place ?_
    rcases List.mem_cons.mp mem with rfl | mem
    · exact List.mem_cons_self
    · exact List.mem_cons_of_mem _ (kept mem)

theorem Rep.delete (key : κ) :
    ∃ rest, (lru.delete key).Rep (table.erase key) rest ∧ rest ⊆ nodes ∧
      ∀ node, lru.elemDict key = some node → node ∉ rest := by
  unfold LRU.delete
  cases found : lru.elemDict key with
  | none =>
      rw [Lru.erase_of_absent (rep.get_of_missing found)]
      exact ⟨nodes, rep, List.Subset.refl nodes, nofun⟩
  | some node =>
      obtain ⟨rest, removed, kept, outside⟩ := rep.remove found
      refine ⟨rest, removed, kept, fun other same => ?_⟩
      cases same
      exact outside

theorem Rep.add (value : ν) (time : ℕ) (absent : table.get key = none)
    (new : node ∉ lru.root :: nodes) {fresh : ℕ} (later : lru.fresh ≤ fresh) (small : node < fresh)
    :
    Rep
      { lru with
        links := lru.links.attach lru.root node
        elems := Function.update lru.elems node (some (key, value, time))
        elemDict := Function.update lru.elemDict key (some node)
        count := lru.count + 1
        fresh := fresh } (table.put key value time) (nodes ++ [node]) := by
  have not_root : lru.root ≠ node := fun same => new (same ▸ List.mem_cons_self)
  have old : ∀ place ∈ nodes, place ≠ node := fun place mem same =>
    new (same ▸ List.mem_cons_of_mem lru.root mem)
  refine ⟨rep.ring.attach new, ?_, ?_, fun other place => ?_, ?_, fun place mem => ?_⟩
  · have kept : nodes.map (Function.update lru.elems node (some (key, value, time))) =
        nodes.map lru.elems :=
      List.map_congr_left fun place mem => Function.update_of_ne (old place mem) ..
    dsimp only
    rw [List.map_append, kept, rep.entries, Lru.entries_put value time absent, List.map_append,
      List.map_singleton, List.map_singleton, Function.update_self]
  · exact (Function.update_of_ne not_root ..).trans rep.root
  · dsimp only
    rw [List.mem_append, List.mem_singleton]
    by_cases same : other = key
    · subst same
      rw [Function.update_self]
      constructor
      · rintro ⟨⟩
        exact ⟨.inr rfl, value, time, Function.update_self ..⟩
      · rintro ⟨mem | rfl, held⟩
        · rw [Function.update_of_ne (old place mem)] at held
          obtain ⟨found, _, _, got⟩ := rep.get_of_found ((rep.dict other place).mpr ⟨mem, held⟩)
          cases absent.symm.trans got
        · rfl
    · rw [Function.update_of_ne same, rep.dict]
      constructor
      · rintro ⟨mem, held⟩
        rw [Function.update_of_ne (old place mem)]
        exact ⟨.inl mem, held⟩
      · rintro ⟨mem | rfl, held⟩
        · rw [Function.update_of_ne (old place mem)] at held
          exact ⟨mem, held⟩
        · obtain ⟨_, _, held⟩ := held
          rw [Function.update_self] at held
          exact absurd (Prod.ext_iff.mp (Option.some.inj held)).1.symm same
  · dsimp only
    rw [rep.count, List.length_append, List.length_singleton]
    omega
  · rw [← List.cons_append, List.mem_append] at mem
    rcases mem with mem | mem
    · exact (rep.fresh place mem).trans_le later
    · cases List.mem_singleton.mp mem
      exact small

omit [DecidableEq κ] in
theorem Rep.directed :
    ∃ order, (∀ node, node ∈ order ↔ node ∈ nodes) ∧ lru.directed.Ring lru.root order ∧
      order.map lru.elems = (shown lru.reverse table).entries.map some := by
  unfold LRU.directed shown
  cases lru.reverse with
  | false => exact ⟨nodes, fun _ => Iff.rfl, rep.ring, rep.entries⟩
  | true =>
      refine ⟨nodes.reverse, fun _ => List.mem_reverse, rep.ring.flip, ?_⟩
      rw [List.map_reverse, rep.entries, ← List.map_reverse]
      rfl

end

omit [DecidableEq κ] in
theorem directed_next (lru : LRU κ ν) (node : ℕ) :
    lru.directed.next node = if lru.reverse then lru.links.prev node else lru.links.next node := by
  unfold LRU.directed
  cases lru.reverse <;> rfl

omit [DecidableEq κ] in
theorem firstElem_eq (lru : LRU κ ν) : lru.firstElem = lru.directed.next lru.root :=
  (lru.directed_next lru.root).symm

theorem get_shown (reverse : Bool) (table : Lru κ ν) (key : κ) :
    (shown reverse table).get key = table.get key := by
  cases reverse with
  | false => rfl
  | true => exact table.get_flip key

omit [DecidableEq κ] in
theorem Rep.first (rep : lru.Rep table nodes) :
    (lru.firstElem = lru.root ∧ table.entries = []) ∨
      ∃ key value time, lru.firstElem ≠ lru.root ∧
        lru.elems lru.firstElem = some (key, value, time) ∧
        lru.elemDict key = some lru.firstElem ∧
        (shown lru.reverse table).peek = some (key, value, time) := by
  obtain ⟨order, same, ring, entries⟩ := rep.directed
  rw [lru.firstElem_eq, ring.next_root]
  cases order with
  | nil =>
      refine .inl ⟨rfl, ?_⟩
      have empty : (shown lru.reverse table).entries = [] := (List.map_eq_nil_iff.mp entries.symm)
      unfold shown at empty
      cases reversed : lru.reverse with
      | false => rwa [reversed] at empty
      | true =>
          rw [reversed] at empty
          exact List.reverse_eq_nil_iff.mp empty
  | cons node order =>
      refine .inr ?_
      obtain ⟨⟨key, value, time⟩, rest, found, held, -⟩ := List.map_eq_cons_iff.mp entries.symm
      have mem : node ∈ nodes := (same node).mp List.mem_cons_self
      have other : node ≠ lru.root := fun root =>
        (List.nodup_cons.mp ring.nodup).1 (root ▸ List.mem_cons_self)
      refine ⟨key, value, time, other, held.symm, (rep.dict key node).mpr ⟨mem, value, time, held.symm⟩,
        ?_⟩
      rw [Lru.peek, found, List.head?_cons]

omit [DecidableEq κ] in
theorem Rep.peek (rep : lru.Rep table nodes) : lru.peek = (shown lru.reverse table).peek := by
  unfold LRU.peek
  dsimp only
  rcases rep.first with ⟨first, empty⟩ | ⟨key, value, time, other, held, -, first⟩
  · rw [if_pos first, Lru.peek]
    unfold shown
    cases lru.reverse with
    | false => exact (List.head?_eq_none_iff.mpr empty).symm
    | true => exact (List.head?_eq_none_iff.mpr (List.reverse_eq_nil_iff.mpr empty)).symm
  · rw [if_neg other, held, first]

theorem Rep.pop (rep : lru.Rep table nodes) :
    (lru.pop = (none, lru) ∧ table.entries = []) ∨
      ∃ key value time rest, (shown lru.reverse table).peek = some (key, value, time) ∧
        lru.pop.1 = some (key, value) ∧ lru.pop.2.Rep (table.erase key) rest := by
  rcases rep.first with ⟨first, empty⟩ | ⟨key, value, time, other, held, found, first⟩
  · refine .inl ⟨?_, empty⟩
    unfold LRU.pop
    rw [if_pos first]
  · obtain ⟨rest, removed, -, -⟩ := rep.remove found
    have popped : lru.pop = (some (key, value), lru.remove key lru.firstElem) := by
      unfold LRU.pop
      rw [if_neg other, held]
    refine .inr ⟨key, value, time, rest, first, ?_, ?_⟩
    · rw [popped]
    · rw [popped]
      exact removed

theorem delete_fields (lru : LRU κ ν) (key : κ) :
    (lru.delete key).root = lru.root ∧ (lru.delete key).fresh = lru.fresh ∧
      (lru.delete key).reverse = lru.reverse ∧ (lru.delete key).maxCount = lru.maxCount := by
  unfold LRU.delete
  cases lru.elemDict key with
  | none => exact ⟨rfl, rfl, rfl, rfl⟩
  | some node => exact ⟨rfl, rfl, rfl, rfl⟩

theorem pop_fields (lru : LRU κ ν) :
    lru.pop.2.reverse = lru.reverse ∧ lru.pop.2.maxCount = lru.maxCount := by
  unfold LRU.pop
  dsimp only
  split
  · exact ⟨rfl, rfl⟩
  · split
    · exact ⟨rfl, rfl⟩
    · exact ⟨rfl, rfl⟩

/-- An assignment puts the key at the end, before a key is removed if there are too many. -/
theorem Rep.set (rep : lru.Rep table nodes) (key : κ) (value : ν) (time : ℕ) :
    ∃ added rest, lru.set key value time =
        (if added.maxCount < added.count then added.pop.2 else added) ∧
      added.Rep (table.put key value time) rest ∧ added.reverse = lru.reverse ∧
        added.maxCount = lru.maxCount := by
  obtain ⟨rest, deleted, kept, outside⟩ := rep.delete key
  obtain ⟨root, fresh, reverse, maxCount⟩ := lru.delete_fields key
  have elem : (lru.elemDict key).getD lru.fresh ∉ (lru.delete key).root :: rest := by
    rw [root]
    cases found : lru.elemDict key with
    | none =>
        intro mem
        have small := rep.fresh lru.fresh (List.cons_subset_cons lru.root kept mem)
        exact Nat.lt_irrefl _ small
    | some node =>
        rintro mem
        rcases List.mem_cons.mp mem with rfl | mem
        · exact (List.nodup_cons.mp rep.ring.nodup).1 ((rep.dict key _).mp found).1
        · exact outside node found mem
  have absent : (table.erase key).get key = none := by
    rw [Lru.get_erase, if_pos rfl]
  have added := deleted.add value time absent elem
    (le_max_left _ ((lru.elemDict key).getD lru.fresh + 1)) (Nat.lt_of_succ_le (le_max_right _ _))
  rw [Lru.put_erase] at added
  exact ⟨_, _, rfl, added, reverse, maxCount⟩

theorem touch_of_absent (missing : lru.index key = none) (time : ℕ) :
    lru.touch key time = (none, lru) := by
  rw [LRU.touch, missing]

theorem touch_of_index {value : ν} (found : lru.index key = some value) (time : ℕ) :
    lru.touch key time = (some value, (lru.delete key).set key value time) := by
  rw [LRU.touch, found]

section
omit [DecidableEq κ]

theorem Rep.clear (lru : LRU κ ν) : lru.clear.Rep Lru.empty [] where
  ring := Links.ring_self (Function.update_self ..) (Function.update_self ..)
  entries := rfl
  root := Function.update_self ..
  dict key node := ⟨nofun, nofun⟩
  count := rfl
  fresh node mem := by
    obtain rfl := List.mem_singleton.mp mem
    exact Nat.lt_succ_self _

theorem rep_new (reverse : Bool) (maxCount : Option ℤ) :
    (new reverse maxCount : LRU κ ν).Rep Lru.empty [] where
  ring := Links.ring_self rfl rfl
  entries := rfl
  root := rfl
  dict key node := ⟨nofun, nofun⟩
  count := rfl
  fresh node mem := by
    obtain rfl := List.mem_singleton.mp mem
    exact Nat.zero_lt_one

theorem elems_head {order : List ℕ} {entries : List (κ × ν × ℕ)} (root : lru.elems lru.root = none)
    (same : order.map lru.elems = entries.map some) :
    lru.elems (order.head?.getD lru.root) = entries.head? := by
  cases order with
  | nil =>
      rw [List.map_eq_nil_iff.mp same.symm]
      exact root
  | cons node order =>
      obtain ⟨entry, rest, rfl, held, -⟩ := List.map_eq_cons_iff.mp same.symm
      exact held.symm

end

/-- The iterator goes from a key to the one that follows it, or to the first one. -/
theorem Rep.next (rep : lru.Rep table nodes) (key : Option κ) :
    lru.next key = (shown lru.reverse table).next key := by
  obtain ⟨order, same, ring, entries⟩ := rep.directed
  have start : ((lru.elems (lru.directed.next lru.root)).map fun fields => (fields.1, fields.2.1)) =
      (shown lru.reverse table).next none := by
    rw [ring.next_root, elems_head rep.root entries]
    rfl
  unfold LRU.next
  dsimp only
  rw [← directed_next]
  cases key with
  | none => exact start
  | some key =>
      rw [Option.bind_some]
      cases found : lru.elemDict key with
      | none =>
          rw [Lru.next_of_absent ((get_shown ..).trans (rep.get_of_missing found))]
          exact start
      | some node =>
          obtain ⟨mem, value, time, held⟩ := (rep.dict key node).mp found
          obtain ⟨front, back, rfl⟩ := List.append_of_mem ((same node).mpr mem)
          rw [List.map_append, List.map_cons, held] at entries
          obtain ⟨before, rest, entries, -, rest_eq⟩ := List.map_eq_append_iff.mp entries.symm
          obtain ⟨entry, behind, rfl, entry_eq, behind_eq⟩ := List.map_eq_cons_iff.mp rest_eq
          cases entry_eq
          rw [Option.getD_some, ring.next_node, elems_head rep.root behind_eq.symm]
          exact (@Lru.next_of_entries _ _ _ _ _ _ (key, value, time) entries).symm

end LRU
end UEServer.TableExtend
