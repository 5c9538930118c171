import Mathlib
import UEServer.OfflineDb.Manager

/-!
# When the write-behind cache is coherent

One invariant for each key ties the cached object, its mark, its row and the load under way to the
last value.  It breaks when an object is set or loaded while its deletion is marked, when a load
meets a `set` or a `delete`, and when an object is saved that has no row or lacks a column of it.
-/

namespace UEServer.OfflineDb

variable {κ χ γ : Type} [DecidableEq κ] {newObj : κ → Obj χ γ}

/-- What holds of one key: its cached object, its mark, its row, the load under way and the last
value. -/
structure KeyCoherent (cached : Option (Obj χ γ)) (mark : Option Op) (row : Option (Row χ γ))
    (load : Option (Option (Row χ γ))) (last : Option (Option (Row χ γ))) : Prop where
  insert : mark = some .insert → row = none ∧ ∃ obj, cached = some obj
  /-- What is to be saved is cached and has a row that it covers. -/
  save : mark = some .save → ∃ obj before, cached = some obj ∧ row = some before ∧
    obj.Covers before
  delete : mark = some .delete → cached = none
  clean : mark = none → ∀ obj, cached = some obj → row = some obj.row
  /-- A key that is being loaded is neither marked nor cached, and its row does not change. -/
  load : ∀ found, load = some found → found = row ∧ mark = none ∧ cached = none
  value : ∀ value, last = some (some value) →
    (∃ obj, cached = some obj ∧ obj.row = value) ∨
      cached = none ∧ mark = none ∧ row = some value
  /-- A deleted key is not cached, and its deletion is marked or made. -/
  deleted : last = some none → cached = none ∧ (mark = some .delete ∨ mark = none ∧ row = none)

section
variable {cached : Option (Obj χ γ)} {mark : Option Op} {row : Option (Row χ γ)}
  {load last : Option (Option (Row χ γ))}

section
variable (coherent : KeyCoherent cached mark row load last)
include coherent

/-- A key that is not cached may be loaded if its deletion is not marked. -/
theorem KeyCoherent.startLoad (missing : cached = none) (undeleted : mark ≠ some .delete) :
    KeyCoherent cached mark row (some row) last := by
  have unmarked : mark = none := by
    cases mark with
    | none => rfl
    | some op =>
        cases op with
        | insert =>
            obtain ⟨obj, found⟩ := (coherent.insert rfl).2
            rw [missing] at found
            cases found
        | save =>
            obtain ⟨obj, before, found, -⟩ := coherent.save rfl
            rw [missing] at found
            cases found
        | delete => exact absurd rfl undeleted
  refine { coherent with load := fun found same => ?_ }
  cases same
  exact ⟨rfl, unmarked, missing⟩

theorem KeyCoherent.obtained {obj : Obj χ γ} (found : cached = some obj) :
    KeyCoherent cached mark row load (some (some obj.row)) := by
  refine { coherent with value := fun value same => ?_, deleted := fun same => by cases same }
  cases Option.some.inj same
  exact .inl ⟨obj, found, rfl⟩

theorem KeyCoherent.loaded_row {found : Row χ γ} (loaded : load = some (some found)) :
    KeyCoherent (some (Obj.ofRow found)) mark row none (some (some found)) := by
  obtain ⟨rfl, rfl, rfl⟩ := coherent.load _ loaded
  refine ⟨by simp, by simp, by simp, fun _ obj same => ?_, by simp, fun value same => ?_, by simp⟩
  · cases same
    rfl
  · cases Option.some.inj same
    exact .inl ⟨_, rfl, rfl⟩

theorem KeyCoherent.loaded_new (loaded : load = some none) (obj : Obj χ γ) :
    KeyCoherent (some obj) (some .insert) row none (some (some obj.row)) := by
  obtain ⟨rfl, rfl, rfl⟩ := coherent.load _ loaded
  refine ⟨by simp, by simp, by simp, by simp, by simp, fun value same => ?_, by simp⟩
  cases Option.some.inj same
  exact .inl ⟨_, rfl, rfl⟩

end

theorem KeyCoherent.set_insert (coherent : KeyCoherent cached (some .insert) row none last)
    (obj : Obj χ γ) : KeyCoherent (some obj) (some .insert) row none (some (some obj.row)) := by
  refine ⟨fun _ => ⟨(coherent.insert rfl).1, obj, rfl⟩, by simp, by simp, by simp, by simp,
    fun value same => ?_, by simp⟩
  cases Option.some.inj same
  exact .inl ⟨_, rfl, rfl⟩

theorem keyCoherent_set_save {obj : Obj χ γ} {before : Row χ γ} (covers : obj.Covers before) :
    KeyCoherent (some obj) (some .save) (some before) none (some (some obj.row)) := by
  refine ⟨by simp, fun _ => ⟨obj, before, rfl, rfl, covers⟩, by simp, by simp, by simp,
    fun value same => ?_, by simp⟩
  cases Option.some.inj same
  exact .inl ⟨_, rfl, rfl⟩

theorem KeyCoherent.delete_insert (coherent : KeyCoherent cached (some .insert) row none last) :
    KeyCoherent none none row none (some none) := by
  obtain ⟨rfl, -⟩ := coherent.insert rfl
  refine ⟨by simp, by simp, by simp, by simp, by simp, by simp, by simp⟩

theorem keyCoherent_delete (row : Option (Row χ γ)) :
    KeyCoherent none (some .delete) row none (some none) := by
  refine ⟨by simp, by simp, by simp, by simp, by simp, by simp, by simp⟩

theorem KeyCoherent.written {op : Op} (coherent : KeyCoherent cached (some op) row load last) :
    KeyCoherent cached none (write op cached row) load last := by
  have unloaded : load = none := by
    cases loading : load with
    | none => rfl
    | some found => cases (coherent.load found loading).2.1
  subst unloaded
  cases op with
  | insert =>
      obtain ⟨rfl, obj, rfl⟩ := coherent.insert rfl
      refine ⟨by simp, by simp, by simp, fun _ other same => ?_, by simp, fun value same => ?_,
        fun same => ?_⟩
      · cases same
        rfl
      · rcases coherent.value value same with cached | ⟨none, -⟩
        · exact .inl cached
        · cases none
      · cases (coherent.deleted same).1
  | save =>
      obtain ⟨obj, before, rfl, rfl, covers⟩ := coherent.save rfl
      refine ⟨by simp, by simp, by simp, fun _ other same => ?_, by simp, fun value same => ?_,
        fun same => ?_⟩
      · cases same
        exact congrArg some (Obj.save_eq_row covers)
      · rcases coherent.value value same with cached | ⟨none, -⟩
        · exact .inl cached
        · cases none
      · cases (coherent.deleted same).1
  | delete =>
      obtain rfl := coherent.delete rfl
      refine ⟨by simp, by simp, by simp, by simp, by simp, fun value same => ?_,
        fun _ => ⟨rfl, .inr ⟨rfl, rfl⟩⟩⟩
      rcases coherent.value value same with ⟨obj, none, -⟩ | ⟨-, none, -⟩
      · cases none
      · cases none

theorem KeyCoherent.dropped (coherent : KeyCoherent cached none row load last) :
    KeyCoherent none none row load last := by
  refine ⟨by simp, by simp, by simp, by simp, fun found same => ?_, fun value same => ?_,
    fun same => ⟨rfl, ?_⟩⟩
  · exact ⟨(coherent.load found same).1, rfl, rfl⟩
  · rcases coherent.value value same with ⟨obj, cached, rfl⟩ | ⟨-, -, stored⟩
    · exact .inr ⟨rfl, rfl, coherent.clean rfl obj cached⟩
    · exact .inr ⟨rfl, rfl, stored⟩
  · exact (coherent.deleted same).2

end

/-- What holds if the operations are orderly. -/
structure Consistent (newObj : κ → Obj χ γ) (state : State κ χ γ) : Prop where
  keys : ∀ key, KeyCoherent (state.mgr.dbLru.get key) (state.mgr.saveLru.get key)
    (state.rows key) (state.loadLock key) (state.last key)
  /-- A `get` returned the last value. -/
  value : ∀ key row before, (key, row, some (some before)) ∈ state.returned → row = before
  /-- After a deletion, a `get` returned a new object. -/
  deleted : ∀ key row, (key, row, some none) ∈ state.returned → row = (newObj key).row

section
variable {state : State κ χ γ}

theorem Consistent.coherent (consistent : Consistent newObj state) : Coherent newObj state := by
  refine ⟨fun quiet key value same => ?_, consistent.value, consistent.deleted⟩
  have coherent := consistent.keys key
  rw [quiet.1 key] at coherent
  cases value with
  | none =>
      rcases (coherent.deleted same).2 with marked | ⟨-, missing⟩
      · cases marked
      · exact missing
  | some value =>
      rcases coherent.value value same with ⟨obj, cached, rfl⟩ | ⟨-, -, stored⟩
      · exact coherent.clean rfl obj cached
      · exact stored

variable {key : κ}

section
variable (consistent : Consistent newObj state)
include consistent

theorem respond_consistent {obj : Obj χ γ} {mgr : Mgr κ χ γ}
    {loadLock : κ → Option (Option (Row χ γ))}
    (keys : ∀ other, other ≠ key → KeyCoherent (mgr.dbLru.get other) (mgr.saveLru.get other) (state.rows other) (loadLock other) (state.last other))
    (self : KeyCoherent (mgr.dbLru.get key) (mgr.saveLru.get key) (state.rows key) (loadLock key) (some (some obj.row)))
    (value : ∀ before, state.last key = some (some before) → obj.row = before)
    (deleted : state.last key = some none → obj.row = (newObj key).row) :
    Consistent newObj ({ state with mgr := mgr, loadLock := loadLock }.respond key obj) := by
  refine ⟨fun other => ?_, fun other row before returned => ?_, fun other row returned => ?_⟩
  · simp only [State.respond, Function.update_apply]
    split
    · rename_i same
      rw [same]
      exact self
    · rename_i different
      exact keys other different
  · rcases List.mem_append.mp returned with old | new
    · exact consistent.value other row before old
    · obtain ⟨rfl, rfl, last⟩ : other = key ∧ row = obj.row ∧
          some (some before) = state.last key := by
        simpa using List.mem_singleton.mp new
      exact value before last.symm
  · rcases List.mem_append.mp returned with old | new
    · exact consistent.deleted other row old
    · obtain ⟨rfl, rfl, last⟩ : other = key ∧ row = obj.row ∧ some none = state.last key := by
        simpa using List.mem_singleton.mp new
      exact deleted last.symm

theorem get_consistent (allowed : Orderly state (.get key)) :
    Consistent newObj (state.get key) := by
  have coherent := consistent.keys key
  unfold State.get
  cases cached : state.mgr.dbLru.get key with
  | some obj =>
      have self := coherent.obtained cached
      refine respond_consistent consistent (fun other _ => consistent.keys other) self
        (fun before last => ?_) (fun last => ?_)
      · rcases coherent.value before last with ⟨other, found, rfl⟩ | ⟨none, -⟩
        · rw [cached] at found
          rw [Option.some.inj found]
        · rw [cached] at none
          cases none
      · have none := (coherent.deleted last).1
        rw [cached] at none
        cases none
  | none =>
      cases locked : state.loadLock key with
      | some found => exact ⟨consistent.keys, consistent.value, consistent.deleted⟩
      | none =>
          refine ⟨fun other => ?_, consistent.value, consistent.deleted⟩
          simp only [Function.update_apply]
          split
          · rename_i same
            rw [same]
            exact coherent.startLoad cached (allowed (by simp [cached]) (by simp [locked]))
          · exact consistent.keys other

theorem loaded_consistent {row : Option (Row χ γ)} (locked : state.loadLock key = some row) :
    Consistent newObj ({ state with
      mgr := state.mgr.loaded newObj key row state.time
      loadLock := Function.update state.loadLock key none }.respond key
        (Mgr.loadedObj newObj key row)) := by
  have coherent := consistent.keys key
  obtain ⟨stored, unmarked, uncached⟩ := coherent.load row locked
  have last_row : ∀ before, state.last key = some (some before) → row = some before := by
    intro before last
    rcases coherent.value before last with ⟨obj, cached, -⟩ | ⟨-, -, found⟩
    · rw [uncached] at cached
      cases cached
    · exact stored.trans found
  have last_none : state.last key = some none → row = none := by
    intro last
    rcases (coherent.deleted last).2 with marked | ⟨-, missing⟩
    · rw [unmarked] at marked
      cases marked
    · exact stored.trans missing
  cases row with
  | none =>
      refine respond_consistent consistent (fun other different => ?_) ?_ (fun before last => ?_)
        (fun _ => rfl)
      · simpa [Mgr.loaded, Lru.get_put, different] using consistent.keys other
      · simpa [Mgr.loaded, Mgr.loadedObj, Lru.get_put] using
          coherent.loaded_new locked (newObj key)
      · cases last_row before last
  | some row =>
      refine respond_consistent consistent (fun other different => ?_) ?_ (fun before last => ?_)
        (fun last => ?_)
      · simpa [Mgr.loaded, Lru.get_put, different] using consistent.keys other
      · simp only [Mgr.loaded, Lru.get_put, Function.update_self, if_pos]
        exact coherent.loaded_row locked
      · exact Option.some.inj (last_row before last)
      · cases last_none last

theorem checkSave_consistent (key : κ) :
    Consistent newObj (state.checkSave key (state.mgr.dbLru.get key)) := by
  unfold State.checkSave
  cases marked : state.mgr.saveLru.get key with
  | none => exact consistent
  | some op =>
      refine ⟨fun other => ?_, consistent.value, consistent.deleted⟩
      have coherent := consistent.keys other
      simp only [Lru.get_erase, Function.update_apply]
      split
      · rename_i same
        subst same
        rw [marked] at coherent
        exact coherent.written
      · exact coherent

theorem evict_consistent {value : Obj χ γ} {time : Nat}
    (first : state.mgr.dbLru.peek = some (key, value, time)) :
    Consistent newObj (state.evict key value) := by
  have cached := Lru.get_of_peek first
  have saved := checkSave_consistent consistent key
  rw [cached] at saved
  have unmarked : ((state.checkSave key (some value)).mgr.saveLru.get key) = none := by
    unfold State.checkSave
    cases marked : state.mgr.saveLru.get key with
    | none => exact marked
    | some op => simp [Lru.get_erase]
  have evicted : state.evict key value = { state.checkSave key (some value) with
      mgr := { (state.checkSave key (some value)).mgr with
        dbLru := (state.checkSave key (some value)).mgr.dbLru.pop } } := by
    unfold State.evict State.checkSave
    cases state.mgr.saveLru.get key <;> rfl
  have kept : (state.checkSave key (some value)).mgr.dbLru = state.mgr.dbLru := by
    unfold State.checkSave
    cases state.mgr.saveLru.get key <;> rfl
  rw [evicted]
  refine ⟨fun other => ?_, saved.value, saved.deleted⟩
  have coherent := saved.keys other
  rw [kept] at coherent
  simp only [kept, Lru.get_pop first]
  split
  · rename_i same
    subst same
    rw [unmarked] at coherent ⊢
    exact coherent.dropped
  · exact coherent

theorem saveOnceNext_consistent (phase : Phase) : Consistent newObj (state.saveOnceNext phase) := by
  have same : ∀ saveOnces, Consistent newObj { state with saveOnces := saveOnces } :=
    fun _ => ⟨consistent.keys, consistent.value, consistent.deleted⟩
  cases phase with
  | overflow =>
      simp only [State.saveOnceNext]
      split
      · rename_i first
        split
        · exact evict_consistent consistent first
        · exact same _
      · exact same _
  | expired =>
      simp only [State.saveOnceNext]
      split
      · rename_i first
        split
        · exact same _
        · exact evict_consistent consistent first
      · exact same _
  | delayed =>
      simp only [State.saveOnceNext]
      split
      · exact same _
      · split
        · exact same _
        · exact checkSave_consistent consistent _

theorem set_consistent {value : Obj χ γ} (allowed : Orderly state (.set key value)) :
    Consistent newObj { state with
      mgr := state.mgr.set key value state.time
      last := Function.update state.last key (some (some value.row)) } := by
  refine ⟨fun other => ?_, consistent.value, consistent.deleted⟩
  have coherent := consistent.keys other
  obtain ⟨unlocked, writable⟩ := allowed
  rw [Option.isNone_iff_eq_none] at unlocked
  simp only [Mgr.set, Function.update_apply, Lru.get_put]
  by_cases same : other = key
  · subst same
    rw [if_pos rfl, if_pos rfl]
    cases marked : state.mgr.saveLru.get other with
    | none =>
        rw [marked] at writable
        cases stored : state.rows other with
        | none => simp [stored] at writable
        | some before =>
            rw [stored] at writable
            rw [Lru.get_put, if_pos rfl, unlocked]
            exact keyCoherent_set_save writable
    | some op =>
        rw [marked] at writable coherent
        rw [unlocked] at coherent ⊢
        cases op with
        | insert =>
            rw [marked]
            exact coherent.set_insert value
        | save =>
            cases stored : state.rows other with
            | none => simp [stored] at writable
            | some before =>
                rw [stored] at writable
                rw [marked]
                exact keyCoherent_set_save writable
        | delete => exact writable.elim
  · rw [if_neg same, if_neg same]
    cases marked : state.mgr.saveLru.get key with
    | none =>
        rw [Lru.get_put, if_neg same]
        exact coherent
    | some op => exact coherent

theorem delete_consistent (allowed : Orderly state (.delete key)) :
    Consistent newObj { state with
      mgr := state.mgr.delete key state.time
      last := Function.update state.last key (some none) } := by
  refine ⟨fun other => ?_, consistent.value, consistent.deleted⟩
  have coherent := consistent.keys other
  have unlocked : state.loadLock key = none := Option.isNone_iff_eq_none.mp allowed
  simp only [Mgr.delete, Function.update_apply, Lru.get_erase]
  by_cases same : other = key
  · subst same
    rw [if_pos rfl, if_pos rfl, unlocked]
    cases marked : state.mgr.saveLru.get other with
    | none =>
        rw [Lru.get_put, if_pos rfl]
        exact keyCoherent_delete _
    | some op =>
        cases op with
        | insert =>
            rw [Lru.get_erase, if_pos rfl]
            rw [marked, unlocked] at coherent
            exact coherent.delete_insert
        | save =>
            rw [Lru.get_put, if_pos rfl]
            exact keyCoherent_delete _
        | delete =>
            rw [Lru.get_put, if_pos rfl]
            exact keyCoherent_delete _
  · rw [if_neg same, if_neg same]
    cases marked : state.mgr.saveLru.get key with
    | none =>
        rw [Lru.get_put, if_neg same]
        exact coherent
    | some op =>
        cases op with
        | insert =>
            rw [Lru.get_erase, if_neg same]
            exact coherent
        | save =>
            rw [Lru.get_put, if_neg same]
            exact coherent
        | delete =>
            rw [Lru.get_put, if_neg same]
            exact coherent

end

theorem step_consistent {after : State κ χ γ} {label : Label κ χ γ}
    (consistent : Consistent newObj state) (allowed : Orderly state label)
    (taken : step newObj state label = some after) : Consistent newObj after := by
  cases label with
  | get key =>
      cases taken
      exact get_consistent consistent allowed
  | retry key =>
      simp only [step] at taken
      split at taken
      · cases taken
        have woken : Consistent newObj { state with sleeping := state.sleeping.erase key } :=
          ⟨consistent.keys, consistent.value, consistent.deleted⟩
        exact get_consistent woken allowed
      · cases taken
  | loaded key =>
      simp only [step] at taken
      split at taken
      · cases taken
      · rename_i row locked
        cases taken
        exact loaded_consistent consistent locked
  | set key value =>
      cases taken
      exact set_consistent consistent allowed
  | delete key =>
      cases taken
      exact delete_consistent consistent allowed
  | saveAll =>
      cases taken
      exact ⟨consistent.keys, consistent.value, consistent.deleted⟩
  | saveAllNext =>
      simp only [step] at taken
      split at taken
      · cases taken
        unfold State.saveAllNext
        split
        · exact ⟨consistent.keys, consistent.value, consistent.deleted⟩
        · exact checkSave_consistent consistent _
      · cases taken
  | saveOnce =>
      cases taken
      exact ⟨consistent.keys, consistent.value, consistent.deleted⟩
  | saveOnceNext phase =>
      simp only [step] at taken
      split at taken
      · cases taken
        exact saveOnceNext_consistent consistent phase
      · cases taken
  | tick =>
      cases taken
      exact ⟨consistent.keys, consistent.value, consistent.deleted⟩

end

theorem initial_consistent (newObj : κ → Obj χ γ) (maxSize duration : Option Nat)
    (rows : κ → Option (Row χ γ)) : Consistent newObj (initial maxSize duration rows) := by
  refine ⟨fun key => ?_, by simp [initial], by simp [initial]⟩
  refine ⟨by simp [initial], by simp [initial], by simp [initial], by simp [initial],
    by simp [initial], by simp [initial], by simp [initial]⟩

/-- If the operations are orderly, the cache is coherent throughout the execution. -/
theorem cache_coherent {maxSize duration : Option Nat} {rows : κ → Option (Row χ γ)}
    {labels : List (Label κ χ γ)}
    (guarded : Execution.Guarded (step newObj) Orderly (initial maxSize duration rows) labels) :
    Execution.Always (step newObj) (Coherent newObj) (initial maxSize duration rows) labels := by
  have always := Execution.always_of_guarded step_consistent guarded
    (initial_consistent newObj maxSize duration rows)
  exact always.mono fun state consistent => consistent.coherent

instance [Fintype χ] (state : State κ χ γ) :
    (label : Label κ χ γ) → Decidable (Orderly state label)
  | .get key | .retry key => inferInstanceAs (Decidable
      ((state.mgr.dbLru.get key).isNone → (state.loadLock key).isNone →
        state.mgr.saveLru.get key ≠ some .delete))
  | .set key value =>
      have : Decidable (match state.mgr.saveLru.get key, state.rows key with
          | some .insert, _ => True
          | some .delete, _ => False
          | _, some row => value.Covers row
          | _, none => False) :=
        match state.mgr.saveLru.get key, state.rows key with
        | some .insert, _ => isTrue trivial
        | some .delete, _ => isFalse False.elim
        | some .save, some row | none, some row => inferInstanceAs (Decidable (value.Covers row))
        | some .save, none | none, none => isFalse False.elim
      (inferInstance : Decidable ((state.loadLock key).isNone ∧ _))
  | .delete key => (inferInstance : Decidable ((state.loadLock key).isNone))
  | .loaded _ | .saveAll | .saveAllNext | .saveOnce | .saveOnceNext _ | .tick => isTrue trivial

def single (value : Nat) : Obj Unit Nat := ⟨fun _ => some value, fun _ => false⟩

/-- A new object is made, changed and saved, and then deleted, and the deletion is saved. -/
def orderlyRun : List (Label Unit Unit Nat) :=
  [.get (), .loaded (), .set () (single 5), .saveAll, .saveAllNext, .saveAllNext, .delete (),
    .saveAll, .saveAllNext, .saveAllNext, .get (), .loaded ()]

theorem cache_coherent_orderlyRun :
    Execution.Always (step fun _ => single 0) (Coherent fun _ => single 0)
      (initial none none fun _ => none) orderlyRun :=
  cache_coherent (by decide)

/-- An object is deleted and set again before the deletion is saved. -/
def resetRun : List (Label Unit Unit Nat) :=
  [.get (), .loaded (), .delete (), .set () (single 5), .saveAll, .saveAllNext, .saveAllNext]

/-- The value that was set is not saved. -/
theorem resetRun_not_coherent :
    ¬ ∀ (rows : Unit → Option (Row Unit Nat)) (labels : List (Label Unit Unit Nat))
      (state : State Unit Unit Nat),
      Execution.run (step fun _ => single 0) (initial none none rows) labels = some state →
        Coherent (fun _ => single 0) state := by
  intro claim
  have ends : ∃ state, Execution.run (step fun _ => single 0)
      (initial none none fun _ => some (single 3).row) resetRun = some state ∧ Quiet state ∧
      state.last () = some (some (single 5).row) ∧ state.rows () = none := by
    refine ⟨_, rfl, ⟨fun key => rfl, fun key => rfl, rfl, rfl, rfl⟩, rfl, rfl⟩
  obtain ⟨state, execution, quiet, last, row⟩ := ends
  have settled := (claim _ resetRun state execution).settled quiet () _ last
  rw [row] at settled
  cases settled

end UEServer.OfflineDb
