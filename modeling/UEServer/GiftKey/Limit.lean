import Mathlib.Data.List.Perm.Subperm
import UEServer.GiftKey.Basic
import UEServer.Library.Table

/-!
# Gift keys are not used too often

As long as statements about a key are executed in their order, the cache, or else the row after all
statements that are pending, counts the uses of a key.  As long as no role has two redemptions of a
batch under way, it does not succeed with both.
-/

namespace UEServer.GiftKey

variable {κ β ρ : Type} [DecidableEq κ]
  {config : Config κ β} {state : State κ ρ} {id : Nat} {redemption : Redemption κ ρ}

/-- How often the world has counted a use of a key. -/
def State.uses (state : State κ ρ) (key : κ) : Nat :=
  state.used.countP fun use => use.2 = key

def Phase.busy : Phase → Bool
  | .loading | .loaded _ => true
  | _ => false

/-- The redemption holds the lock of its key. -/
def Redemption.Busy (redemption : Redemption κ ρ) : Prop :=
  redemption.phase.busy = true

omit [DecidableEq κ] in
theorem Redemption.busy_of_loaded {useCount : Option Nat}
    (loaded : redemption.phase = .loaded useCount) : redemption.Busy := by
  rw [Redemption.Busy, loaded]
  rfl

def rowAfter (key : κ) (row : Option Nat) (statements : List (Nat × Statement κ)) : Option Nat :=
  statements.foldl (fun row sent => sent.2.row key row) row

/-- The world counts the uses of the keys. -/
structure Counted (config : Config κ β) (state : State κ ρ) : Prop where
  cached : ∀ key useCount, (key, useCount) ∈ state.cache → useCount = state.uses key
  /-- The row of a key that is not in the cache counts them once all statements are executed. -/
  stored : ∀ key useCount, state.cache.lookup key = none →
    rowAfter key (state.rows key) state.pending = some useCount → useCount = state.uses key
  locked : ∀ id redemption, state.redemptions id = some redemption → redemption.Busy →
    state.lockDict redemption.key ∧ state.cache.lookup redemption.key = none
  alone : ∀ id redemption other another, state.redemptions id = some redemption →
    state.redemptions other = some another → redemption.Busy → another.Busy →
    redemption.key = another.key → id = other
  loaded : ∀ id redemption useCount, state.redemptions id = some redemption →
    redemption.phase = .loaded (some useCount) → useCount = state.uses redemption.key
  bounded : ∀ key, state.uses key ≤ config.total key

variable {statement : Statement κ}

theorem Statement.row_of_writes_eq_none {key : κ}
    (unwritten : statement.writes key = none) (row : Option Nat) :
    statement.row key row = row := by
  cases statement with
  | load id => rfl
  | save entries insert =>
      change entries.lookup key = none at unwritten
      simp [Statement.row, unwritten]

theorem rowAfter_of_writes_eq_none {key : κ} {statements : List (Nat × Statement κ)}
    (unwritten : ∀ sent ∈ statements, sent.2.writes key = none) (row : Option Nat) :
    rowAfter key row statements = row := by
  induction statements generalizing row with
  | nil => rfl
  | cons sent statements ih =>
      obtain ⟨first, others⟩ := List.forall_mem_cons.mp unwritten
      rw [rowAfter, List.foldl_cons, Statement.row_of_writes_eq_none first]
      exact ih others row

theorem rowAfter_append (key : κ) (row : Option Nat) (front back : List (Nat × Statement κ)) :
    rowAfter key row (front ++ back) = rowAfter key (rowAfter key row front) back :=
  List.foldl_append

/-- A statement that overtakes no save of the key leaves the row after all statements. -/
theorem rowAfter_eraseIdx {key : κ} {statements : List (Nat × Statement κ)} {index conn : Nat} (found : statements[index]? = some (conn, statement))
    (first : statement.writes key = none ∨
      ∀ earlier ∈ statements.take index, earlier.2.writes key = none) (row : Option Nat) :
    rowAfter key (statement.row key row) (statements.eraseIdx index) =
      rowAfter key row statements := by
  obtain ⟨inside, same⟩ := List.getElem?_eq_some_iff.mp found
  have split : statements = statements.take index ++ (conn, statement) ::
      statements.drop (index + 1) := by
    rw [← same, List.getElem_cons_drop, List.take_append_drop]
  have erased : statements.eraseIdx index =
      statements.take index ++ statements.drop (index + 1) := List.eraseIdx_eq_take_drop_succ _ _
  conv_rhs => rw [split]
  rw [erased, rowAfter_append, rowAfter_append]
  change _ = rowAfter key (statement.row key (rowAfter key row (statements.take index))) _
  rcases first with unwritten | overtaken
  · rw [Statement.row_of_writes_eq_none unwritten, Statement.row_of_writes_eq_none unwritten]
  · rw [rowAfter_of_writes_eq_none overtaken, rowAfter_of_writes_eq_none overtaken]

omit [DecidableEq κ] in
theorem put_redemptions (other : Nat) :
    (state.put id redemption).redemptions other =
      if other = id then some redemption else state.redemptions other :=
  Function.update_apply _ _ _ _

section
variable (counted : Counted config state)
include counted

theorem Counted.put (idle : ¬ redemption.Busy) : Counted config (state.put id redemption) := by
  have busy : ∀ other another, (state.put id redemption).redemptions other = some another →
      another.Busy → state.redemptions other = some another := by
    intro other another found holds
    rw [put_redemptions] at found
    split at found
    · cases found
      exact absurd holds idle
    · exact found
  refine { counted with locked := ?_, alone := ?_, loaded := ?_ }
  · intro other another found holds
    exact counted.locked other another (busy other another found holds) holds
  · intro first one second two found found' holds holds' same
    exact counted.alone first one second two (busy first one found holds)
      (busy second two found' holds') holds holds' same
  · intro other another useCount found has
    have holds := Redemption.busy_of_loaded has
    exact counted.loaded other another useCount (busy other another found holds) has

/-- Nobody else holds the lock of the key of a redemption. -/
def Sole (state : State κ ρ) (id : Nat) (key : κ) : Prop :=
  ∀ other another, state.redemptions other = some another → another.Busy → another.key = key →
    other = id

theorem Counted.sole (found : state.redemptions id = some redemption) (holds : redemption.Busy) :
    Sole state id redemption.key := by
  intro other another other_found other_holds same
  exact counted.alone other another id redemption other_found found other_holds holds same

theorem Counted.sole_of_unlocked {key : κ} (free : state.lockDict key = false) (id : Nat) :
    Sole state id key := by
  intro other another found holds same
  have locked := (counted.locked other another found holds).1
  rw [same, free] at locked
  cases locked

theorem Counted.answer (sole : Sole state id redemption.key) (ok : Bool) :
    Counted config (state.answer id redemption ok) := by
  have idle : ¬ Redemption.Busy { redemption with phase := .replied ok } := nofun
  have moved : Counted config (state.put id { redemption with phase := .replied ok }) :=
    counted.put idle
  refine { moved with locked := fun other another found holds => ?_ }
  obtain ⟨locked, absent⟩ := moved.locked other another found holds
  refine ⟨?_, absent⟩
  have different : another.key ≠ redemption.key := by
    intro same
    change (state.put id _).redemptions other = some another at found
    rw [put_redemptions] at found
    split at found
    · cases found
      exact idle holds
    · rename_i other_id
      exact other_id (sole other another found holds same)
  change Function.update state.lockDict redemption.key false another.key = true
  rw [Function.update_of_ne different]
  exact locked

omit counted in
theorem uses_count (state : State κ ρ) (id : Nat) (key other : κ) :
    (state.count id key).uses other = state.uses other + if key = other then 1 else 0 := by
  simp [State.uses, State.count, List.countP_append, List.countP_singleton]

omit counted in
theorem lookup_filter_of_ne {cache : List (κ × Nat)} {key other : κ} (different : other ≠ key) :
    (cache.filter fun entry => entry.1 ≠ key).lookup other = cache.lookup other := by
  induction cache with
  | nil => rfl
  | cons entry cache ih =>
      obtain ⟨first, useCount⟩ := entry
      by_cases same : first = key
      · subst same
        rw [List.filter_cons_of_neg (by simp), List.lookup_cons, beq_false_of_ne different]
        exact ih
      · rw [List.filter_cons_of_pos (by simpa using same), List.lookup_cons, List.lookup_cons, ih]

/-- The world counts one more use of a key, and nobody holds the lock of the key. -/
theorem Counted.use {key : κ}
    (nobody : ∀ other another, state.redemptions other = some another → another.Busy → another.key ≠ key)
    (room : state.uses key < config.total key) :
    Counted config ((state.setUseCount key (state.uses key + 1)).count id key) := by
  have uses : ∀ other,
      ((state.setUseCount key (state.uses key + 1)).count id key).uses other =
        state.uses other + if key = other then 1 else 0 := uses_count _ id key
  have lookup : ∀ other, other ≠ key →
      (state.setUseCount key (state.uses key + 1)).cache.lookup other =
        state.cache.lookup other := by
    intro other different
    change List.lookup other ((key, _) :: _) = _
    rw [List.lookup_cons, beq_false_of_ne different]
    exact lookup_filter_of_ne different
  refine ⟨fun other useCount mem => ?_, fun other useCount absent row => ?_,
    fun other another found holds => ?_, counted.alone, fun other another useCount found has => ?_,
    fun other => ?_⟩
  · rw [uses]
    rcases List.mem_cons.mp mem with same | before
    · cases same
      rw [if_pos rfl]
    · obtain ⟨inside, different⟩ := List.mem_filter.mp before
      have different : other ≠ key := by simpa using different
      rw [if_neg (Ne.symm different)]
      exact counted.cached other useCount inside
  · have different : other ≠ key := by
      rintro rfl
      change List.lookup other ((other, _) :: _) = none at absent
      simp at absent
    rw [uses, if_neg (Ne.symm different)]
    refine counted.stored other useCount ?_ row
    rw [← lookup other different]
    exact absent
  · obtain ⟨locked, absent⟩ := counted.locked other another found holds
    have different := nobody other another found holds
    exact ⟨locked, (lookup another.key different).trans absent⟩
  · have different := nobody other another found (Redemption.busy_of_loaded has)
    rw [uses, if_neg (Ne.symm different)]
    exact counted.loaded other another useCount found has
  · rw [uses]
    split
    · rename_i same
      exact same ▸ room
    · exact counted.bounded other

theorem Counted.useKey (sole : Sole state id redemption.key) {useCount : Option Nat}
    (right : ∀ n, useCount = some n → n = state.uses redemption.key) :
    Counted config (state.useKey config id redemption useCount) := by
  cases useCount with
  | none => exact counted.answer sole false
  | some useCount =>
      obtain rfl := right useCount rfl
      unfold State.useKey
      dsimp only
      split
      · exact counted.answer sole false
      · rename_i room
        have answered := counted.answer sole true
        refine answered.use (fun other another found holds same => ?_) (Nat.lt_of_not_le room)
        change (state.put id _).redemptions other = some another at found
        rw [put_redemptions] at found
        split at found
        · cases found
          cases holds
        · rename_i other_id
          exact other_id (sole other another found holds same)

theorem Counted.lock : Counted config (state.lock config id redemption) := by
  unfold State.lock
  split
  · exact counted.put nofun
  · rename_i unlocked
    have free : state.lockDict redemption.key = false := by simpa using unlocked
    have sole := counted.sole_of_unlocked free id
    split
    · rename_i useCount cached
      refine counted.useKey sole fun n same => ?_
      cases same
      exact counted.cached _ _ (Assoc.mem_of_lookup cached)
    · rename_i absent
      have holder : ∀ other another,
          (state.put id { redemption with phase := .loading }).redemptions other = some another →
          another.Busy → (other = id ∧ another.key = redemption.key) ∨
            (other ≠ id ∧ state.redemptions other = some another ∧
              another.key ≠ redemption.key) := by
        intro other another other_found holds
        rw [put_redemptions] at other_found
        split at other_found
        · cases other_found
          rename_i same
          exact .inl ⟨same, rfl⟩
        · rename_i other_id
          exact .inr ⟨other_id, other_found, fun same =>
            other_id (sole other another other_found holds same)⟩
      refine ⟨counted.cached, fun key useCount missing row => ?_,
        fun other another other_found holds => ?_,
        fun first one second two one_found two_found one_holds two_holds same => ?_,
        fun other another useCount other_found has => ?_, counted.bounded⟩
      · refine counted.stored key useCount missing ?_
        rw [rowAfter_append] at row
        exact row
      · rcases holder other another other_found holds with ⟨-, same⟩ | ⟨-, before, different⟩
        · rw [same]
          exact ⟨Function.update_self _ _ _, absent⟩
        · obtain ⟨locked, missing⟩ := counted.locked other another before holds
          refine ⟨?_, missing⟩
          change Function.update state.lockDict redemption.key true another.key = true
          rw [Function.update_of_ne different]
          exact locked
      · rcases holder first one one_found one_holds with ⟨rfl, one_key⟩ | ⟨-, one_before, one_key⟩
        · rcases holder second two two_found two_holds with ⟨rfl, -⟩ | ⟨-, -, two_key⟩
          · rfl
          · exact absurd (same.symm.trans one_key) two_key
        · rcases holder second two two_found two_holds with ⟨-, two_key⟩ | ⟨-, two_before, -⟩
          · exact absurd (same.trans two_key) one_key
          · exact counted.alone first one second two one_before two_before one_holds two_holds same
      · rcases holder other another other_found (Redemption.busy_of_loaded has) with ⟨rfl, -⟩ | ⟨-, before, -⟩
        · rw [put_redemptions, if_pos rfl] at other_found
          cases other_found
          cases has
        · exact counted.loaded other another useCount before has

theorem Counted.arrive (now : Nat) : Counted config (state.arrive config id now redemption) := by
  have refused : Counted config (state.put id { redemption with phase := .replied false }) :=
    counted.put nofun
  unfold State.arrive
  split
  · exact refused
  · split
    · exact refused
    · split
      · exact refused
      · exact counted.lock

end

omit [DecidableEq κ] in
theorem saveStatement_eq (config : Config κ β) (cache : List (κ × Nat)) (conn : Nat) :
    (cache = [] ∧ State.saveStatement config cache conn = []) ∨
      ∃ conn' insert, State.saveStatement config cache conn = [(conn', .save cache insert)] := by
  match cache with
  | [] => exact .inl ⟨rfl, rfl⟩
  | [entry] => exact .inr ⟨_, _, rfl⟩
  | first :: second :: rest => exact .inr ⟨_, _, rfl⟩

theorem Counted.save (counted : Counted config state) (conn : Nat) :
    Counted config (state.save config conn) := by
  refine ⟨fun key useCount mem => (nomatch mem), fun key useCount _ row => ?_,
    fun other another found holds => ⟨(counted.locked other another found holds).1, rfl⟩,
    counted.alone, counted.loaded, counted.bounded⟩
  change rowAfter key (state.rows key) (state.pending ++ State.saveStatement config state.cache conn) =
    some useCount at row
  rw [rowAfter_append] at row
  rcases saveStatement_eq config state.cache conn with ⟨empty, none⟩ | ⟨conn', insert, sent⟩
  · rw [none] at row
    exact counted.stored key useCount (by rw [empty]; rfl) row
  · rw [sent] at row
    change Statement.row (.save state.cache insert) key _ = some useCount at row
    simp only [Statement.row] at row
    split at row
    · rename_i absent
      exact counted.stored key useCount absent row
    · rename_i value cached
      split at row
      · obtain rfl := Option.some.inj row
        exact counted.cached key value (Assoc.mem_of_lookup cached)
      · cases row

theorem Counted.execute (counted : Counted config state) {index conn : Nat} (found : state.pending[index]? = some (conn, statement))
    (turn : InTurn config state (.execute index)) :
    Counted config (state.execute index statement) := by
  have turn := turn conn statement found
  cases statement with
  | load id =>
      have rows : ∀ key, rowAfter key (state.rows key) (state.pending.eraseIdx index) =
          rowAfter key (state.rows key) state.pending :=
        fun key => rowAfter_eraseIdx found (.inl rfl) _
      have executed : Counted config { state with pending := state.pending.eraseIdx index } := by
        refine { counted with stored := fun key useCount absent row => ?_ }
        exact counted.stored key useCount absent ((rows key).symm.trans row)
      unfold State.execute
      dsimp only
      split
      · exact executed
      · rename_i redemption redeems
        split
        · rename_i loading
          have holds : redemption.Busy := by
            rw [Redemption.Busy, loading]
            rfl
          have before : ∀ other another,
              (state.put id { redemption with
                phase := .loaded (state.rows redemption.key) }).redemptions other = some another →
              another.Busy → ∃ old, state.redemptions other = some old ∧ old.Busy ∧
                old.key = another.key := by
            intro other another other_found other_holds
            rw [put_redemptions] at other_found
            split at other_found
            · rename_i same
              subst same
              cases other_found
              exact ⟨redemption, redeems, holds, rfl⟩
            · exact ⟨another, other_found, other_holds, rfl⟩
          refine { executed with locked := ?_, alone := ?_, loaded := ?_ }
          · intro other another other_found other_holds
            obtain ⟨old, old_found, old_holds, same⟩ := before other another other_found other_holds
            have locked := counted.locked other old old_found old_holds
            rw [same] at locked
            exact locked
          · intro first one second two one_found two_found one_holds two_holds same
            obtain ⟨old, old_found, old_holds, old_key⟩ := before first one one_found one_holds
            obtain ⟨old', old_found', old_holds', old_key'⟩ :=
              before second two two_found two_holds
            exact counted.alone first old second old' old_found old_found' old_holds old_holds'
              (old_key.trans (same.trans old_key'.symm))
          · intro other another useCount other_found has
            rw [put_redemptions] at other_found
            split at other_found
            · cases other_found
              have row : state.rows redemption.key = some useCount := Phase.loaded.inj has
              refine counted.stored redemption.key useCount
                (counted.locked id redemption redeems holds).2 ?_
              rw [rowAfter_of_writes_eq_none (turn redemption redeems loading)]
              exact row
            · exact counted.loaded other another useCount other_found has
        · exact executed
  | save entries insert =>
      refine { counted with stored := fun key useCount absent row => ?_ }
      refine counted.stored key useCount absent ?_
      rw [← rowAfter_eraseIdx found ?_ (state.rows key)]
      · exact row
      · cases written : entries.lookup key with
        | none => exact .inl written
        | some value =>
            refine .inr fun earlier mem => ?_
            exact turn earlier mem (key, value) (Assoc.mem_of_lookup written)

/-- The redemption has not returned to the role. -/
def Redemption.Open (redemption : Redemption κ ρ) : Prop :=
  ∀ ok, redemption.phase ≠ .finished ok

structure Recorded (config : Config κ β) (state : State κ ρ) : Prop where
  single : ∀ id redemption other another, state.redemptions id = some redemption →
    state.redemptions other = some another → redemption.Open → another.Open →
    redemption.role = another.role →
    config.batchKey redemption.key = config.batchKey another.key → id = other
  /-- A redemption that is under way is of a batch that the role has not used. -/
  fresh : ∀ id redemption, state.redemptions id = some redemption → redemption.Open →
    ∀ used ∈ state.ywGiftKey redemption.role,
      config.batchKey used ≠ config.batchKey redemption.key
  recorded : ∀ success ∈ state.succeeded, success.key ∈ state.ywGiftKey success.role
  once : state.succeeded.Pairwise fun first second => first.role = second.role →
    config.batchKey first.key ≠ config.batchKey second.key
  replied : ∀ id redemption, state.redemptions id = some redemption →
    redemption.phase = .replied true → (id, redemption.key) ∈ state.used
  counted : ∀ success ∈ state.succeeded, (success.id, success.key) ∈ state.used
  returned : ∀ success ∈ state.succeeded, ∃ redemption,
    state.redemptions success.id = some redemption ∧ ¬ redemption.Open
  distinct : (state.succeeded.map Success.id).Nodup

/-- A redemption that is under way goes on at the world. -/
structure Moves (state after : State κ ρ) (id : Nat) (redemption : Redemption κ ρ) : Prop where
  redemptions : ∃ phase, Redemption.Open { redemption with phase } ∧
    after.redemptions =
      Function.update state.redemptions id (some { redemption with phase }) ∧
    (phase = .replied true → (id, redemption.key) ∈ after.used)
  ywGiftKey : after.ywGiftKey = state.ywGiftKey
  succeeded : after.succeeded = state.succeeded
  used : ∀ use ∈ state.used, use ∈ after.used

omit [DecidableEq κ] in
theorem moves_put {phase : Phase} (unfinished : Redemption.Open { redemption with phase })
    (refused : phase ≠ .replied true) :
    Moves state (state.put id { redemption with phase }) id redemption :=
  ⟨⟨phase, unfinished, rfl, fun same => absurd same refused⟩, rfl, rfl, fun _ mem => mem⟩

theorem moves_refuse : Moves state (state.answer id redemption false) id redemption :=
  ⟨⟨.replied false, nofun, rfl, nofun⟩, rfl, rfl, fun _ mem => mem⟩

theorem moves_useKey (config : Config κ β) (useCount : Option Nat) :
    Moves state (state.useKey config id redemption useCount) id redemption := by
  unfold State.useKey
  split
  · exact moves_refuse
  · split
    · exact moves_refuse
    · refine ⟨⟨.replied true, nofun, rfl, fun _ => ?_⟩, rfl, rfl, fun use mem => ?_⟩
      · exact List.mem_append_right _ (List.mem_singleton_self _)
      · exact List.mem_append_left _ mem

theorem moves_lock (config : Config κ β) :
    Moves state (state.lock config id redemption) id redemption := by
  unfold State.lock
  split
  · exact moves_put nofun nofun
  · split
    · exact moves_useKey config _
    · exact ⟨⟨.loading, nofun, rfl, nofun⟩, rfl, rfl, fun _ mem => mem⟩

theorem moves_arrive (config : Config κ β) (now : Nat) :
    Moves state (state.arrive config id now redemption) id redemption := by
  unfold State.arrive
  split
  · exact moves_put nofun nofun
  · split
    · exact moves_put nofun nofun
    · split
      · exact moves_put nofun nofun
      · exact moves_lock config

section
omit [DecidableEq κ]

theorem Recorded.moves {after : State κ ρ} (recorded : Recorded config state)
    (found : state.redemptions id = some redemption) (unfinished : redemption.Open)
    (moves : Moves state after id redemption) : Recorded config after := by
  obtain ⟨⟨phase, opens, same, allowed⟩, ywGiftKey, succeeded, used⟩ := moves
  have lookup : ∀ other, after.redemptions other =
      if other = id then some { redemption with phase } else state.redemptions other := by
    intro other
    rw [same]
    exact Function.update_apply _ _ _ _
  have before : ∀ other another, after.redemptions other = some another → another.Open →
      ∃ old, state.redemptions other = some old ∧ old.Open ∧ old.role = another.role ∧
        old.key = another.key := by
    intro other another other_found other_open
    rw [lookup] at other_found
    split at other_found
    · rename_i at_id
      subst at_id
      obtain rfl := Option.some.inj other_found
      exact ⟨redemption, found, unfinished, rfl, rfl⟩
    · exact ⟨another, other_found, other_open, rfl, rfl⟩
  refine ⟨?_, ?_, ?_, ?_, ?_, ?_, ?_, ?_⟩
  · intro first one second two one_found two_found one_open two_open role batch
    obtain ⟨old, old_found, old_open, old_role, old_key⟩ := before first one one_found one_open
    obtain ⟨old', old_found', old_open', old_role', old_key'⟩ :=
      before second two two_found two_open
    refine recorded.single first old second old' old_found old_found' old_open old_open'
      (old_role.trans (role.trans old_role'.symm)) ?_
    rw [old_key, old_key']
    exact batch
  · intro other another other_found other_open key mem
    obtain ⟨old, old_found, old_open, old_role, old_key⟩ :=
      before other another other_found other_open
    rw [ywGiftKey, ← old_role] at mem
    rw [← old_key]
    exact recorded.fresh other old old_found old_open key mem
  · rw [succeeded, ywGiftKey]
    exact recorded.recorded
  · rw [succeeded]
    exact recorded.once
  · intro other another other_found has
    rw [lookup] at other_found
    split at other_found
    · rename_i at_id
      subst at_id
      obtain rfl := Option.some.inj other_found
      exact allowed has
    · exact used _ (recorded.replied other another other_found has)
  · rw [succeeded]
    exact fun success mem => used _ (recorded.counted success mem)
  · rw [succeeded]
    intro success mem
    obtain ⟨old, old_found, closed⟩ := recorded.returned success mem
    refine ⟨old, ?_, closed⟩
    rw [lookup, if_neg ?_]
    · exact old_found
    · intro at_id
      rw [at_id, found] at old_found
      obtain rfl := Option.some.inj old_found
      exact closed unfinished
  · rw [succeeded]
    exact recorded.distinct

/-- A role begins a redemption, and has no other of the batch under way. -/
theorem Recorded.start (recorded : Recorded config state)
    (unused : state.redemptions id = none)
    (turn : ∀ other another, state.redemptions other = some another →
      another.role = redemption.role →
      config.batchKey another.key = config.batchKey redemption.key → ¬ another.Open)
    (fresh : redemption.Open → ∀ used ∈ state.ywGiftKey redemption.role,
      config.batchKey used ≠ config.batchKey redemption.key)
    (refused : redemption.phase ≠ .replied true) :
    Recorded config (state.put id redemption) := by
  refine { recorded with single := ?_, fresh := ?_, replied := ?_, returned := ?_ }
  · intro first one second two one_found two_found one_open two_open role batch
    rw [put_redemptions] at one_found two_found
    split at one_found
    · rename_i at_first
      obtain rfl := Option.some.inj one_found
      split at two_found
      · rename_i at_second
        exact at_first.trans at_second.symm
      · exact absurd two_open (turn second two two_found role.symm batch.symm)
    · split at two_found
      · obtain rfl := Option.some.inj two_found
        exact absurd one_open (turn first one one_found role batch)
      · exact recorded.single first one second two one_found two_found one_open two_open role batch
  · intro other another found opens
    rw [put_redemptions] at found
    split at found
    · obtain rfl := Option.some.inj found
      exact fresh opens
    · exact recorded.fresh other another found opens
  · intro other another found has
    rw [put_redemptions] at found
    split at found
    · obtain rfl := Option.some.inj found
      exact absurd has refused
    · exact recorded.replied other another found has
  · intro success mem
    obtain ⟨old, old_found, closed⟩ := recorded.returned success mem
    refine ⟨old, ?_, closed⟩
    rw [put_redemptions, if_neg ?_]
    · exact old_found
    · intro at_id
      rw [at_id, unused] at old_found
      cases old_found

theorem Recorded.finish [DecidableEq ρ] (recorded : Recorded config state)
    (found : state.redemptions id = some redemption) {ok : Bool}
    (replied : redemption.phase = .replied ok) :
    Recorded config (state.finish id redemption ok) := by
  have opens : redemption.Open := by
    intro finished same
    rw [replied] at same
    cases same
  have lookup : ∀ other, (state.finish id redemption ok).redemptions other =
      if other = id then some { redemption with phase := .finished ok }
      else state.redemptions other := by
    intro other
    have same : (state.finish id redemption ok).redemptions =
        (state.put id { redemption with phase := .finished ok }).redemptions := by
      unfold State.finish
      split <;> rfl
    rw [same]
    exact put_redemptions other
  have before : ∀ other another, (state.finish id redemption ok).redemptions other = some another →
      another.Open → other ≠ id ∧ state.redemptions other = some another := by
    intro other another other_found other_open
    rw [lookup] at other_found
    split at other_found
    · obtain rfl := Option.some.inj other_found
      exact absurd rfl (other_open ok)
    · rename_i different
      exact ⟨different, other_found⟩
  have old_ids : ∀ success ∈ state.succeeded, success.id ≠ id := by
    intro success mem at_id
    obtain ⟨old, old_found, closed⟩ := recorded.returned success mem
    rw [at_id, found] at old_found
    obtain rfl := Option.some.inj old_found
    exact closed opens
  have old_returned : ∀ success ∈ state.succeeded, ∃ redemption',
      (state.finish id redemption ok).redemptions success.id = some redemption' ∧
        ¬ redemption'.Open := by
    intro success mem
    obtain ⟨old, old_found, closed⟩ := recorded.returned success mem
    refine ⟨old, ?_, closed⟩
    rw [lookup, if_neg (old_ids success mem)]
    exact old_found
  have single : ∀ first one second two,
      (state.finish id redemption ok).redemptions first = some one →
      (state.finish id redemption ok).redemptions second = some two → one.Open → two.Open →
      one.role = two.role → config.batchKey one.key = config.batchKey two.key →
      first = second := by
    intro first one second two one_found two_found one_open two_open
    exact recorded.single first one second two (before first one one_found one_open).2
      (before second two two_found two_open).2 one_open two_open
  have used : (state.finish id redemption ok).used = state.used := by
    unfold State.finish
    split <;> rfl
  have still : ∀ other another, (state.finish id redemption ok).redemptions other = some another →
      another.phase = .replied true → (other, another.key) ∈ state.used := by
    intro other another other_found has
    rw [lookup] at other_found
    split at other_found
    · obtain rfl := Option.some.inj other_found
      cases has
    · exact recorded.replied other another other_found has
  cases ok with
  | false =>
      refine ⟨single, fun other another other_found other_open => ?_, recorded.recorded,
        recorded.once, still, recorded.counted, old_returned, recorded.distinct⟩
      exact recorded.fresh other another (before other another other_found other_open).2 other_open
  | true =>
      have known : ∀ role key, key ∈ state.ywGiftKey role →
          key ∈ Function.update state.ywGiftKey redemption.role
            (state.ywGiftKey redemption.role ++ [redemption.key]) role := by
        intro role key mem
        by_cases same : role = redemption.role
        · subst same
          rw [Function.update_self]
          exact List.mem_append_left _ mem
        · rw [Function.update_of_ne same]
          exact mem
      refine ⟨single, fun other another other_found other_open key mem => ?_, ?_, ?_, still, ?_,
        ?_, ?_⟩
      · obtain ⟨different, old_found⟩ := before other another other_found other_open
        change key ∈ Function.update state.ywGiftKey redemption.role
          (state.ywGiftKey redemption.role ++ [redemption.key]) another.role at mem
        by_cases same : another.role = redemption.role
        · rw [same, Function.update_self] at mem
          rcases List.mem_append.mp mem with mem | mem
          · exact recorded.fresh other another old_found other_open key (same ▸ mem)
          · obtain rfl := List.mem_singleton.mp mem
            intro batch
            exact different
              (recorded.single other another id redemption old_found found other_open opens same
                batch.symm)
        · rw [Function.update_of_ne same] at mem
          exact recorded.fresh other another old_found other_open key mem
      · refine List.forall_mem_cons.mpr ⟨?_, fun success mem => ?_⟩
        · change redemption.key ∈ Function.update state.ywGiftKey redemption.role
            (state.ywGiftKey redemption.role ++ [redemption.key]) redemption.role
          rw [Function.update_self]
          exact List.mem_append_right _ (List.mem_singleton_self _)
        · exact known success.role success.key (recorded.recorded success mem)
      · refine List.pairwise_cons.mpr ⟨fun success mem role => ?_, recorded.once⟩
        refine Ne.symm (recorded.fresh id redemption found opens success.key ?_)
        change redemption.role = success.role at role
        rw [role]
        exact recorded.recorded success mem
      · refine List.forall_mem_cons.mpr ⟨?_, recorded.counted⟩
        exact recorded.replied id redemption found replied
      · refine List.forall_mem_cons.mpr ⟨⟨_, (lookup id).trans (if_pos rfl), ?_⟩, old_returned⟩
        exact fun finished => finished true rfl
      · refine List.nodup_cons.mpr ⟨fun mem => ?_, recorded.distinct⟩
        obtain ⟨success, inside, same⟩ := List.mem_map.mp mem
        exact old_ids success inside same

end

/-- The world counts the uses, and the roles record what succeeds. -/
def Sound (config : Config κ β) (state : State κ ρ) : Prop :=
  Counted config state ∧ Recorded config state

theorem Sound.moves {after : State κ ρ} (sound : Sound config state)
    (found : state.redemptions id = some redemption) (unfinished : redemption.Open)
    (moves : Moves state after id redemption) (counted : Counted config after) :
    Sound config after :=
  ⟨counted, sound.2.moves found unfinished moves⟩

omit [DecidableEq κ] in
theorem Redemption.Open.of_phase {phase : Phase} (at_phase : redemption.phase = phase)
    (unfinished : ∀ ok, phase ≠ .finished ok) : redemption.Open :=
  fun ok same => unfinished ok (at_phase.symm.trans same)

theorem step_sound [DecidableEq β] [DecidableEq ρ] {after : State κ ρ} {label : Label κ ρ} (sound : Sound config state)
    (turn : InTurn config state label) (taken : step config state label = some after) :
    Sound config after := by
  cases label with
  | redeem id role key =>
      simp only [step] at taken
      split at taken
      · cases taken
      · rename_i unused
        cases taken
        have idle : ∀ used : Bool, ¬ Redemption.Busy
            ({ role, key, phase := if used then .finished false else .sent } :
              Redemption κ ρ) := by
          intro used
          cases used <;> nofun
        refine ⟨sound.1.put (idle _), sound.2.start unused ?_ ?_ ?_⟩
        · intro other another found role batch opens
          obtain ⟨ok, finished⟩ := turn other another found role batch
          exact opens ok finished
        · intro opens used mem batch
          refine opens false (if_pos ?_)
          exact List.any_eq_true.mpr ⟨used, mem, decide_eq_true batch⟩
        · split <;> nofun
  | arrive id now =>
      simp only [step] at taken
      split at taken
      · cases taken
      · rename_i redemption found
        split at taken
        · rename_i sent
          cases taken
          exact sound.moves found (.of_phase sent nofun) (moves_arrive config now)
            (sound.1.arrive now)
        · cases taken
  | poll id =>
      simp only [step] at taken
      split at taken
      · cases taken
      · rename_i redemption found
        split at taken
        · rename_i waiting
          cases taken
          exact sound.moves found (.of_phase waiting nofun) (moves_lock config) sound.1.lock
        · cases taken
  | loadReturn id =>
      simp only [step] at taken
      split at taken
      · cases taken
      · rename_i redemption found
        split at taken
        · rename_i useCount loaded
          cases taken
          have holds := Redemption.busy_of_loaded loaded
          refine sound.moves found (.of_phase loaded nofun) (moves_useKey config useCount)
            (sound.1.useKey (sound.1.sole found holds) fun n same => ?_)
          exact sound.1.loaded id redemption n found (same ▸ loaded)
        · cases taken
  | loadError id =>
      simp only [step] at taken
      split at taken
      · cases taken
      · rename_i redemption found
        split at taken
        · rename_i loading
          cases taken
          have holds : redemption.Busy := by
            rw [Redemption.Busy, loading]
            rfl
          exact sound.moves found (.of_phase loading nofun) moves_refuse
            (sound.1.answer (sound.1.sole found holds) false)
        · cases taken
  | save conn =>
      cases taken
      have same := sound.2
      exact ⟨sound.1.save conn, { same with }⟩
  | execute index =>
      simp only [step] at taken
      split at taken
      · cases taken
      · rename_i conn statement found
        split at taken
        · cases taken
        · cases taken
          refine ⟨sound.1.execute found turn, ?_⟩
          have same := sound.2
          have kept : ∀ pending rows, Recorded config { state with pending, rows } :=
            fun _ _ => { same with }
          cases statement with
          | load id =>
              unfold State.execute
              dsimp only
              split
              · exact kept _ _
              · rename_i redemption redeems
                split
                · rename_i loading
                  refine (kept (state.pending.eraseIdx index) state.rows).moves redeems
                    (.of_phase loading nofun) (moves_put nofun nofun)
                · exact kept _ _
          | save entries insert => exact kept _ _
  | reply id =>
      simp only [step] at taken
      split at taken
      · cases taken
      · rename_i redemption found
        split at taken
        · rename_i ok replied
          cases taken
          refine ⟨?_, sound.2.finish found replied⟩
          have moved : Counted config (state.put id { redemption with phase := .finished ok }) :=
            sound.1.put nofun
          unfold State.finish
          split
          · exact { moved with }
          · exact moved
        · cases taken

theorem Sound.limited (sound : Sound config state) : Limited config state := by
  refine ⟨fun key => ?_, sound.2.once⟩
  refine Nat.le_trans ?_ (sound.1.bounded key)
  rw [State.uses, List.countP_eq_length_filter, List.countP_eq_length_filter]
  have distinct : ((state.succeeded.filter fun success => success.key = key).map
      fun success => (success.id, success.key)).Nodup := by
    refine List.Nodup.of_map Prod.fst ?_
    rw [List.map_map]
    exact sound.2.distinct.sublist (List.filter_sublist.map Success.id)
  rw [← List.length_map fun success : Success κ ρ => (success.id, success.key)]
  refine (distinct.subperm fun use mem => ?_).length_le
  obtain ⟨success, inside, rfl⟩ := List.mem_map.mp mem
  obtain ⟨succeeded, same⟩ := List.mem_filter.mp inside
  exact List.mem_filter.mpr ⟨sound.2.counted success succeeded, same⟩

theorem initial_sound (config : Config κ β) (keys : κ → Bool) :
    Sound config (initial keys : State κ ρ) := by
  have nobody : ∀ id redemption,
      (initial keys : State κ ρ).redemptions id ≠ some redemption := fun _ _ => nofun
  refine ⟨⟨nofun, fun key useCount _ row => ?_, fun _ _ found => absurd found (nobody _ _),
    fun _ _ _ _ found => absurd found (nobody _ _), fun _ _ _ found => absurd found (nobody _ _),
    fun key => Nat.zero_le _⟩,
    ⟨fun _ _ _ _ found => absurd found (nobody _ _), fun _ _ found => absurd found (nobody _ _),
      nofun, .nil, fun _ _ found => absurd found (nobody _ _), nofun, nofun, List.nodup_nil⟩⟩
  change (if keys key then some 0 else none) = some useCount at row
  split at row
  · exact (Option.some.inj row).symm
  · cases row

/-- Batches of ten keys that can be used once each. -/
def tenKeys : Config Nat Nat where
  batchKey key := key / 10
  batchDict _ := some { totalUseCount := 1, startTs := 0, endTs := 100 }
  connOf key := key % 4

/-- A key is used and saved before the reply arrives. -/
def savedRun : List (Label Nat Nat) :=
  [.redeem 0 1 11, .arrive 0 5, .execute 0, .loadReturn 0, .save 2, .execute 0, .reply 0]

/-- A role uses two keys of a batch, the second one before the world has answered the first. -/
def hastyRun : List (Label Nat Nat) :=
  [.redeem 0 1 11, .redeem 1 1 12, .arrive 0 5, .arrive 1 5, .execute 0, .execute 0,
    .loadReturn 0, .loadReturn 1, .reply 0, .reply 1]

end UEServer.GiftKey
