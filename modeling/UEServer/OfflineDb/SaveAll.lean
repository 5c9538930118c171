import UEServer.OfflineDb.Manager

/-!
# Saving when database operations raise

`save_all` and `save_once` of `lualib/db/offline_db.lua`, where some database operations raise.  An entry
is unmarked before its operation, and what is raised ends the loop.
-/

namespace UEServer.OfflineDb

variable {κ χ γ : Type} [DecidableEq κ]

inductive Call (κ χ γ : Type) where
  | delete (key : κ)
  | insert (key : κ) (value : Obj χ γ)
  | save (key : κ) (value : Obj χ γ)

namespace Call

def key : Call κ χ γ → κ
  | delete key | insert key _ | save key _ => key

end Call

/-- The database operation of an entry.  Without an object only a row can be deleted. -/
def call (key : κ) (value : Option (Obj χ γ)) : Op → Option (Call κ χ γ)
  | .delete => some (.delete key)
  | .insert => value.map (.insert key)
  | .save => value.map (.save key)

/-- The database operation of a pending entry. -/
def Mgr.operation (mgr : Mgr κ χ γ) (key : κ) : Option (Call κ χ γ) :=
  (mgr.saveLru.get key).bind (call key (mgr.dbLru.get key))

structure Saving (κ χ γ : Type) where
  mgr : Mgr κ χ γ
  /-- The database operations that were attempted. -/
  calls : List (Call κ χ γ)
  raised : Bool

namespace Saving

/-- The database operations that were attempted for a key. -/
def callsOf (saving : Saving κ χ γ) (key : κ) : List (Call κ χ γ) :=
  saving.calls.filter fun call => call.key = key

variable (raises : Call κ χ γ → Bool)

def checkSave (saving : Saving κ χ γ) (key : κ) (value : Option (Obj χ γ)) : Saving κ χ γ :=
  match saving.mgr.saveLru.get key with
  | none => saving
  | some op =>
      let saving : Saving κ χ γ :=
        { saving with mgr := { saving.mgr with saveLru := saving.mgr.saveLru.erase key } }
      match call key value op with
      | none => saving
      | some call => { saving with calls := saving.calls ++ [call], raised := raises call }

/-- The loop of `save_all`, unless it takes too many rounds. -/
def saveAllLoop : ℕ → Saving κ χ γ → Option (Saving κ χ γ)
  | 0, _ => none
  | fuel + 1, saving =>
      if saving.raised then some saving
      else
        match saving.mgr.saveLru.peek with
        | none => some saving
        | some (key, _, _) =>
            saveAllLoop fuel (saving.checkSave raises key (saving.mgr.dbLru.get key))

/-- An object is dropped from the cache and saved. -/
def evict (saving : Saving κ χ γ) (key : κ) (value : Obj χ γ) : Saving κ χ γ :=
  checkSave raises { saving with mgr := { saving.mgr with dbLru := saving.mgr.dbLru.pop } } key
    (some value)

/-- The first loop of `save_once`: there are too many objects. -/
def overflowLoop : ℕ → Saving κ χ γ → Option (Saving κ χ γ)
  | 0, _ => none
  | fuel + 1, saving =>
      if saving.raised then some saving
      else
        match saving.mgr.maxSize, saving.mgr.dbLru.peek with
        | some maxSize, some (key, value, _) =>
            if maxSize < saving.mgr.dbLru.size then overflowLoop fuel (saving.evict raises key value)
            else some saving
        | _, _ => some saving

/-- The second loop: objects have not been used for long. -/
def expiredLoop (now : ℕ) : ℕ → Saving κ χ γ → Option (Saving κ χ γ)
  | 0, _ => none
  | fuel + 1, saving =>
      if saving.raised then some saving
      else
        match saving.mgr.duration, saving.mgr.dbLru.peek with
        | some duration, some (key, value, time) =>
            if now < time + duration then some saving
            else expiredLoop now fuel (saving.evict raises key value)
        | _, _ => some saving

/-- The last loop: entries have been pending for long. -/
def delayedLoop (now : ℕ) : ℕ → Saving κ χ γ → Option (Saving κ χ γ)
  | 0, _ => none
  | fuel + 1, saving =>
      if saving.raised then some saving
      else
        match saving.mgr.saveLru.peek with
        | none => some saving
        | some (key, _, time) =>
            if now < time + saveDelay then some saving
            else delayedLoop now fuel (saving.checkSave raises key (saving.mgr.dbLru.get key))

end Saving

namespace Mgr

/-- `save_all`, whose loop has at most one round for each entry. -/
def saveAll (mgr : Mgr κ χ γ) (raises : Call κ χ γ → Bool) : Option (Saving κ χ γ) :=
  Saving.saveAllLoop raises (mgr.saveLru.size + 1) ⟨mgr, [], false⟩

/-- `save_once`, whose loops have at most one round for each object or entry. -/
def saveOnce (mgr : Mgr κ χ γ) (raises : Call κ χ γ → Bool) (now : ℕ) : Option (Saving κ χ γ) :=
  (Saving.overflowLoop raises (mgr.dbLru.size + 1) ⟨mgr, [], false⟩).bind fun saving =>
    (Saving.expiredLoop raises now (mgr.dbLru.size + 1) saving).bind fun saving =>
      Saving.delayedLoop raises now (mgr.saveLru.size + 1) saving

def surplus (mgr : Mgr κ χ γ) : ℕ :=
  match mgr.maxSize with
  | none => 0
  | some maxSize => mgr.dbLru.size - maxSize

def stale (mgr : Mgr κ χ γ) (now : ℕ) (entry : κ × Obj χ γ × ℕ) : Bool :=
  match mgr.duration with
  | none => false
  | some duration => entry.2.2 + duration ≤ now

/-- The objects that `save_once` has to drop. -/
def evicted (mgr : Mgr κ χ γ) (now : ℕ) : List (κ × Obj χ γ × ℕ) :=
  mgr.dbLru.entries.take mgr.surplus ++ (mgr.dbLru.entries.drop mgr.surplus).takeWhile (mgr.stale now)

def waited (now : ℕ) (entry : κ × Op × ℕ) : Bool := entry.2.2 + saveDelay ≤ now

/-- The entries whose objects stay and which have been pending for long. -/
def delayed (mgr : Mgr κ χ γ) (now : ℕ) : List (κ × Op × ℕ) :=
  (mgr.saveLru.entries.filter fun entry => entry.1 ∉ (mgr.evicted now).map Prod.fst).takeWhile
    (waited now)

/-- The entries that `save_once` has to save. -/
def Due (mgr : Mgr κ χ γ) (now : ℕ) (key : κ) : Prop :=
  key ∈ (mgr.evicted now).map Prod.fst ∨ key ∈ (mgr.delayed now).map Prod.fst

end Mgr

/-- The operation of each pending entry that is due has been attempted once, and the entry is still
pending if it has raised. -/
structure Attempts (raises : Call κ χ γ → Bool) (mgr : Mgr κ χ γ) (due : κ → Prop)
    (after : Saving κ χ γ) : Prop where
  once : ∀ key, due key → (mgr.saveLru.get key).isSome →
    after.callsOf key = (mgr.operation key).toList
  retried : ∀ key call, due key → mgr.operation key = some call → raises call = true →
    (after.mgr.saveLru.get key).isSome

/-- What saving has done so far: it has attempted the operations of the entries that are no longer
marked, and it has ended if one of them has raised. -/
structure Saved (raises : Call κ χ γ → Bool) (mgr : Mgr κ χ γ) (due : κ → Prop)
    (saving : Saving κ χ γ) : Prop where
  /-- An entry is as before, or is due and its operation has been attempted. -/
  entry : ∀ key,
    saving.mgr.saveLru.get key = mgr.saveLru.get key ∧ saving.callsOf key = [] ∨
      due key ∧ saving.mgr.saveLru.get key = none ∧
        saving.callsOf key = (mgr.operation key).toList ∧
          (saving.raised = false → ∀ call, mgr.operation key = some call → raises call = false)
  raised : saving.raised = true → ∃ key call, due key ∧ mgr.operation key = some call ∧
    raises call = true ∧ saving.mgr.saveLru.get key = none

variable {raises : Call κ χ γ → Bool} {mgr : Mgr κ χ γ} {due : κ → Prop} {saving : Saving κ χ γ}
  {key : κ} {value : Option (Obj χ γ)}

omit [DecidableEq κ] in
theorem call_key {op : Op} {made : Call κ χ γ} (calls : call key value op = some made) :
    made.key = key := by
  cases op with
  | delete =>
      obtain rfl := Option.some.inj calls
      rfl
  | insert =>
      obtain ⟨obj, -, rfl⟩ := Option.map_eq_some_iff.mp calls
      rfl
  | save =>
      obtain ⟨obj, -, rfl⟩ := Option.map_eq_some_iff.mp calls
      rfl

namespace Saving

theorem checkSave_mgr (raises : Call κ χ γ → Bool) (saving : Saving κ χ γ) (key : κ) (value : Option (Obj χ γ)) :
    (saving.checkSave raises key value).mgr =
      { saving.mgr with saveLru := saving.mgr.saveLru.erase key } := by
  unfold checkSave
  cases marked : saving.mgr.saveLru.get key with
  | none =>
      rw [Lru.erase_of_absent marked]
  | some op =>
      dsimp only
      cases call key value op with
      | none => rfl
      | some call => rfl

end Saving

theorem Saved.checkSave (saved : Saved raises mgr due saving) (running : saving.raised = false)
    (is_due : due key) (same : value = mgr.dbLru.get key) :
    Saved raises mgr due (saving.checkSave raises key value) := by
  unfold Saving.checkSave
  cases marked : saving.mgr.saveLru.get key with
  | none => exact saved
  | some op =>
      dsimp only
      obtain ⟨⟨kept, none_called⟩⟩ | ⟨-, unmarked, -⟩ := saved.entry key
      · have operation : mgr.operation key = call key value op := by
          rw [Mgr.operation, ← kept, marked, same]
          rfl
        cases calls : call key value op with
        | none =>
            rw [calls] at operation
            refine ⟨fun other => ?_, fun raised => ?_⟩
            · rw [Lru.get_erase]
              by_cases here : other = key
              · subst here
                rw [if_pos rfl, operation]
                exact .inr ⟨is_due, rfl, none_called, fun _ => nofun⟩
              · rw [if_neg here]
                exact saved.entry other
            · cases running.symm.trans raised
        | some made =>
            rw [calls] at operation
            have made_key := call_key calls
            refine ⟨fun other => ?_, fun raised => ?_⟩
            · have appended : List.filter (fun call => call.key = other) (saving.calls ++ [made]) =
                  saving.callsOf other ++ if other = key then [made] else [] := by
                rw [List.filter_append, List.filter_singleton, made_key]
                by_cases here : key = other
                · simp [here, Saving.callsOf]
                · simp [here, Ne.symm here, Saving.callsOf]
              change (Lru.erase _ key).get other = _ ∧
                  List.filter (fun call => call.key = other) (saving.calls ++ [made]) = [] ∨
                due other ∧ (Lru.erase _ key).get other = none ∧
                  List.filter (fun call => call.key = other) (saving.calls ++ [made]) = _ ∧ _
              rw [Lru.get_erase, appended]
              by_cases here : other = key
              · subst here
                rw [if_pos rfl, if_pos rfl, operation, none_called]
                refine .inr ⟨is_due, rfl, rfl, fun quiet call same => ?_⟩
                cases same
                exact quiet
              · rw [if_neg here, if_neg here, List.append_nil]
                exact (saved.entry other).imp id fun ⟨due, unmarked, called, quiet⟩ =>
                  ⟨due, unmarked, called, fun _ => quiet running⟩
            · refine ⟨key, made, is_due, operation, raised, ?_⟩
              rw [Lru.get_erase, if_pos rfl]
      · cases marked.symm.trans unmarked

/-- When the loops have ended, the entries that are due have been saved exactly if none of their
operations raises. -/
theorem Saved.missed_none_iff (saved : Saved raises mgr due saving)
    (finished : saving.raised = false → ∀ key, due key → saving.mgr.saveLru.get key = none) :
    Attempts raises mgr due saving ↔
      ∀ key call, due key → mgr.operation key = some call → raises call = false := by
  constructor
  · intro attempts key call is_due operation
    cases raised : saving.raised with
    | true =>
        obtain ⟨other, made, other_due, made_operation, raising, unmarked⟩ := saved.raised raised
        have marked := attempts.retried other made other_due made_operation raising
        rw [unmarked] at marked
        cases marked
    | false =>
        obtain ⟨op, marked, -⟩ := Option.bind_eq_some_iff.mp operation
        rcases saved.entry key with ⟨kept, -⟩ | ⟨-, -, -, quiet⟩
        · rw [finished raised key is_due, marked] at kept
          cases kept
        · exact quiet raised call operation
  · intro quiet
    have running : saving.raised = false := by
      cases raised : saving.raised with
      | false => rfl
      | true =>
          obtain ⟨key, call, is_due, operation, raising, -⟩ := saved.raised raised
          cases (quiet key call is_due operation).symm.trans raising
    refine ⟨fun key is_due marked => ?_, fun key call is_due operation raising => ?_⟩
    · rcases saved.entry key with ⟨kept, -⟩ | ⟨-, -, called, -⟩
      · rw [← kept, finished running key is_due] at marked
        cases marked
      · exact called
    · cases (quiet key call is_due operation).symm.trans raising

theorem saved_start : Saved raises mgr due ⟨mgr, [], false⟩ :=
  ⟨fun _ => .inl ⟨rfl, rfl⟩, nofun⟩

theorem saveAllLoop_spec {fuel : ℕ} (saved : Saved raises mgr (fun _ => True) saving)
    (cached : saving.mgr.dbLru = mgr.dbLru) (enough : saving.mgr.saveLru.size < fuel) :
    ∃ after, saving.saveAllLoop raises fuel = some after ∧ Saved raises mgr (fun _ => True) after ∧
      (after.raised = false → ∀ key, after.mgr.saveLru.get key = none) := by
  induction fuel generalizing saving with
  | zero => exact absurd enough (Nat.not_lt_zero _)
  | succ fuel ih =>
      rw [Saving.saveAllLoop]
      cases raised : saving.raised with
      | true =>
          exact ⟨saving, rfl, saved, fun running => absurd (raised.symm.trans running) nofun⟩
      | false =>
          cases first : saving.mgr.saveLru.peek with
          | none =>
              exact ⟨saving, rfl, saved, fun _ key => Lru.get_of_peek_none first key⟩
          | some entry =>
              obtain ⟨key, op, time⟩ := entry
              have same : saving.mgr.dbLru.get key = mgr.dbLru.get key := by
                rw [cached]
              have next := saved.checkSave raised trivial same
              have mgr_eq := saving.checkSave_mgr raises key (saving.mgr.dbLru.get key)
              have smaller := Lru.size_erase_of_get (Lru.get_of_peek first)
              refine ih next ?_ ?_
              · rw [mgr_eq]
                exact cached
              · rw [mgr_eq]
                dsimp only
                omega

/-- Some objects have been dropped from the cache, and their entries are not marked any longer. -/
structure Dropping (mgr : Mgr κ χ γ) (gone : List (κ × Obj χ γ × ℕ)) (saving : Saving κ χ γ) :
    Prop where
  entries : mgr.dbLru.entries = gone ++ saving.mgr.dbLru.entries
  marks : saving.mgr.saveLru.entries =
    mgr.saveLru.entries.filter fun entry => entry.1 ∉ gone.map Prod.fst
  maxSize : saving.mgr.maxSize = mgr.maxSize
  duration : saving.mgr.duration = mgr.duration

variable {gone : List (κ × Obj χ γ × ℕ)} {now fuel : ℕ}

theorem Dropping.evict {obj : Obj χ γ} {time : ℕ} (dropping : Dropping mgr gone saving)
    (saved : Saved raises mgr due saving) (running : saving.raised = false)
    (first : saving.mgr.dbLru.peek = some (key, obj, time)) (is_due : due key) :
    Saved raises mgr due (saving.evict raises key obj) ∧
      Dropping mgr (gone ++ [(key, obj, time)]) (saving.evict raises key obj) := by
  obtain ⟨rest, entries⟩ := List.head?_eq_some_iff.mp first
  have popped : saving.mgr.dbLru.pop.entries = rest := by
    rw [Lru.pop_of_peek first]
    exact @Lru.entries_erase _ _ _ _ [] rest (key, obj, time) entries
  have cached : some obj = mgr.dbLru.get key := by
    refine (Lru.get_eq_some.mpr ⟨time, ?_⟩).symm
    rw [dropping.entries, entries]
    exact List.mem_append_cons_self
  have before : Saved raises mgr due
      { saving with mgr := { saving.mgr with dbLru := saving.mgr.dbLru.pop } } :=
    ⟨saved.entry, saved.raised⟩
  refine ⟨before.checkSave running is_due cached, ?_⟩
  unfold Saving.evict
  refine ⟨?_, ?_, ?_, ?_⟩
  · rw [Saving.checkSave_mgr]
    rw [popped, dropping.entries, entries]
    exact List.append_cons ..
  · rw [Saving.checkSave_mgr]
    change saving.mgr.saveLru.entries.filter _ = _
    rw [dropping.marks, List.filter_filter]
    refine List.filter_congr fun entry _ => ?_
    rw [Bool.eq_iff_iff]
    simp only [List.map_append, List.mem_append, List.map_cons, List.map_nil, List.mem_singleton,
      Bool.and_eq_true, decide_eq_true_eq, not_or]
    exact and_comm
  · rw [Saving.checkSave_mgr]
    exact dropping.maxSize
  · rw [Saving.checkSave_mgr]
    exact dropping.duration

theorem overflowLoop_spec (dropping : Dropping mgr gone saving)
    (saved : Saved raises mgr (mgr.Due now) saving) (few : gone.length ≤ mgr.surplus)
    (enough : saving.mgr.dbLru.size < fuel) :
    ∃ after gone, saving.overflowLoop raises fuel = some after ∧
      Saved raises mgr (mgr.Due now) after ∧ Dropping mgr gone after ∧
        (after.raised = false → gone = mgr.dbLru.entries.take mgr.surplus) := by
  induction fuel generalizing saving gone with
  | zero => exact absurd enough (Nat.not_lt_zero _)
  | succ fuel ih =>
      have total : mgr.dbLru.size = gone.length + saving.mgr.dbLru.size := by
        rw [Lru.size, dropping.entries, List.length_append, Lru.size]
      have ended : mgr.surplus ≤ gone.length → gone = mgr.dbLru.entries.take mgr.surplus := by
        intro all
        rw [dropping.entries, Nat.le_antisymm all few, List.take_left]
      rw [Saving.overflowLoop]
      cases raised : saving.raised with
      | true =>
          exact ⟨saving, gone, rfl, saved, dropping, fun running => Bool.noConfusion (raised.symm.trans running)⟩
      | false =>
          cases limit : saving.mgr.maxSize with
          | none =>
              refine ⟨saving, gone, rfl, saved, dropping, fun _ => ended ?_⟩
              rw [Mgr.surplus, ← dropping.maxSize, limit]
              exact Nat.zero_le _
          | some maxSize =>
              have surplus : mgr.surplus = mgr.dbLru.size - maxSize := by
                rw [Mgr.surplus, ← dropping.maxSize, limit]
              cases first : saving.mgr.dbLru.peek with
              | none =>
                  refine ⟨saving, gone, rfl, saved, dropping, fun _ => ended ?_⟩
                  have empty : saving.mgr.dbLru.size = 0 :=
                    congrArg List.length (List.head?_eq_none_iff.mp first)
                  omega
              | some entry =>
                  obtain ⟨key, obj, time⟩ := entry
                  dsimp only
                  by_cases full : maxSize < saving.mgr.dbLru.size
                  · rw [if_pos full]
                    obtain ⟨rest, entries⟩ := List.head?_eq_some_iff.mp first
                    have is_due : mgr.Due now key := by
                      refine .inl (List.mem_map.mpr ⟨(key, obj, time), ?_, rfl⟩)
                      refine List.mem_append_left _ ?_
                      have room : mgr.surplus - gone.length ≠ 0 := by omega
                      obtain ⟨left, more⟩ := Nat.exists_eq_succ_of_ne_zero room
                      rw [dropping.entries, entries, List.take_append, more]
                      exact List.mem_append_right _ List.mem_cons_self
                    obtain ⟨next, later⟩ := dropping.evict saved raised first is_due
                    have left : (saving.evict raises key obj).mgr.dbLru.size =
                        saving.mgr.dbLru.size - 1 := by
                      unfold Saving.evict
                      rw [Saving.checkSave_mgr]
                      exact saving.mgr.dbLru.size_pop
                    refine ih later next ?_ ?_
                    · rw [List.length_append, List.length_singleton]
                      omega
                    · omega
                  · rw [if_neg full]
                    exact ⟨saving, gone, rfl, saved, dropping, fun _ => ended (by omega)⟩

theorem expiredLoop_spec {mid : List (κ × Obj χ γ × ℕ)}
    (dropping : Dropping mgr (mgr.dbLru.entries.take mgr.surplus ++ mid) saving)
    (stale : ∀ entry ∈ mid, mgr.stale now entry = true)
    (saved : Saved raises mgr (mgr.Due now) saving) (enough : saving.mgr.dbLru.size < fuel) :
    ∃ after gone, saving.expiredLoop raises now fuel = some after ∧
      Saved raises mgr (mgr.Due now) after ∧ Dropping mgr gone after ∧
        (after.raised = false → gone = mgr.evicted now) := by
  induction fuel generalizing saving mid with
  | zero => exact absurd enough (Nat.not_lt_zero _)
  | succ fuel ih =>
      have split : mgr.dbLru.entries.drop mgr.surplus = mid ++ saving.mgr.dbLru.entries := by
        have all := (List.take_append_drop mgr.surplus mgr.dbLru.entries).trans dropping.entries
        rw [List.append_assoc] at all
        exact List.append_cancel_left all
      have evicted : mgr.evicted now = mgr.dbLru.entries.take mgr.surplus ++
          (mid ++ saving.mgr.dbLru.entries.takeWhile (mgr.stale now)) := by
        rw [Mgr.evicted, split, List.takeWhile_append_of_pos stale]
      have ended : saving.mgr.dbLru.entries.takeWhile (mgr.stale now) = [] →
          mgr.dbLru.entries.take mgr.surplus ++ mid = mgr.evicted now := by
        intro none
        rw [evicted, none, List.append_nil]
      rw [Saving.expiredLoop]
      cases raised : saving.raised with
      | true =>
          exact ⟨saving, _, rfl, saved, dropping, fun running => absurd (raised.symm.trans running) nofun⟩
      | false =>
          cases limit : saving.mgr.duration with
          | none =>
              refine ⟨saving, _, rfl, saved, dropping, fun _ => ended ?_⟩
              have never : mgr.stale now = fun _ => false := by
                funext entry
                rw [Mgr.stale, ← dropping.duration, limit]
              rw [never]
              cases saving.mgr.dbLru.entries <;> rfl
          | some duration =>
              have test : ∀ entry : κ × Obj χ γ × ℕ,
                  mgr.stale now entry = decide (entry.2.2 + duration ≤ now) := by
                intro entry
                rw [Mgr.stale, ← dropping.duration, limit]
              cases first : saving.mgr.dbLru.peek with
              | none =>
                  refine ⟨saving, _, rfl, saved, dropping, fun _ => ended ?_⟩
                  rw [List.head?_eq_none_iff.mp first]
                  rfl
              | some entry =>
                  obtain ⟨key, obj, time⟩ := entry
                  obtain ⟨rest, entries⟩ := List.head?_eq_some_iff.mp first
                  dsimp only
                  by_cases young : now < time + duration
                  · rw [if_pos young]
                    refine ⟨saving, _, rfl, saved, dropping, fun _ => ended ?_⟩
                    rw [entries, List.takeWhile_cons_of_neg]
                    rw [test]
                    simpa using young
                  · rw [if_neg young]
                    have old : mgr.stale now (key, obj, time) = true := by
                      rw [test]
                      exact decide_eq_true (Nat.not_lt.mp young)
                    have is_due : mgr.Due now key := by
                      refine .inl (List.mem_map.mpr ⟨(key, obj, time), ?_, rfl⟩)
                      rw [evicted, entries, List.takeWhile_cons_of_pos old]
                      exact List.mem_append_right _ List.mem_append_cons_self
                    obtain ⟨next, later⟩ := dropping.evict saved raised first is_due
                    rw [List.append_assoc] at later
                    have left : (saving.evict raises key obj).mgr.dbLru.size =
                        saving.mgr.dbLru.size - 1 := by
                      unfold Saving.evict
                      rw [Saving.checkSave_mgr]
                      exact saving.mgr.dbLru.size_pop
                    have some : 0 < saving.mgr.dbLru.size := by
                      rw [Lru.size, entries]
                      exact Nat.zero_lt_succ _
                    refine ih later ?_ next (by omega)
                    intro entry mem
                    rcases List.mem_append.mp mem with mem | mem
                    · exact stale entry mem
                    · cases List.mem_singleton.mp mem
                      exact old

theorem get_eq_none_of {lru : Lru κ Op} (absent : key ∉ lru.entries.map Prod.fst) :
    lru.get key = none := by
  cases found : lru.get key with
  | none => rfl
  | some op =>
      obtain ⟨time, mem⟩ := Lru.get_eq_some.mp found
      exact absurd (List.mem_map_of_mem mem) absent

theorem delayedLoop_spec {past : List (κ × Op × ℕ)}
    (cached : mgr.dbLru.entries = mgr.evicted now ++ saving.mgr.dbLru.entries)
    (marks : (mgr.saveLru.entries.filter fun entry => entry.1 ∉ (mgr.evicted now).map Prod.fst) =
      past ++ saving.mgr.saveLru.entries)
    (old : ∀ entry ∈ past, Mgr.waited now entry = true)
    (saved : Saved raises mgr (mgr.Due now) saving) (enough : saving.mgr.saveLru.size < fuel) :
    ∃ after, saving.delayedLoop raises now fuel = some after ∧
      Saved raises mgr (mgr.Due now) after ∧
        (after.raised = false → ∀ key, mgr.Due now key → after.mgr.saveLru.get key = none) := by
  induction fuel generalizing saving past with
  | zero => exact absurd enough (Nat.not_lt_zero _)
  | succ fuel ih =>
      have delayed : mgr.delayed now =
          past ++ saving.mgr.saveLru.entries.takeWhile (Mgr.waited now) := by
        rw [Mgr.delayed, marks, List.takeWhile_append_of_pos old]
      have nodup : ((past ++ saving.mgr.saveLru.entries).map Prod.fst).Nodup := by
        rw [← marks]
        exact mgr.saveLru.nodup.sublist (List.filter_sublist.map Prod.fst)
      have ended : saving.mgr.saveLru.entries.takeWhile (Mgr.waited now) = [] →
          ∀ key, mgr.Due now key → saving.mgr.saveLru.get key = none := by
        intro none key is_due
        refine get_eq_none_of fun mem => ?_
        rcases is_due with dropped | waited
        · obtain ⟨entry, inside, rfl⟩ := List.mem_map.mp mem
          have kept := List.mem_append_right past inside
          rw [← marks] at kept
          exact of_decide_eq_true (List.mem_filter.mp kept).2 dropped
        · rw [delayed, none, List.append_nil] at waited
          rw [List.map_append, List.nodup_append] at nodup
          exact nodup.2.2 key waited key mem rfl
      rw [Saving.delayedLoop]
      cases raised : saving.raised with
      | true =>
          exact ⟨saving, rfl, saved, fun running => absurd (raised.symm.trans running) nofun⟩
      | false =>
          cases first : saving.mgr.saveLru.peek with
          | none =>
              refine ⟨saving, rfl, saved, fun _ => ended ?_⟩
              rw [List.head?_eq_none_iff.mp first]
              rfl
          | some entry =>
              obtain ⟨key, op, time⟩ := entry
              obtain ⟨rest, entries⟩ := List.head?_eq_some_iff.mp first
              dsimp only
              by_cases young : now < time + saveDelay
              · rw [if_pos young]
                refine ⟨saving, rfl, saved, fun _ => ended ?_⟩
                rw [entries, List.takeWhile_cons_of_neg]
                simpa [Mgr.waited] using young
              · rw [if_neg young]
                have waited : Mgr.waited now (key, op, time) = true :=
                  decide_eq_true (Nat.not_lt.mp young)
                have is_due : mgr.Due now key := by
                  refine .inr (List.mem_map.mpr ⟨(key, op, time), ?_, rfl⟩)
                  rw [delayed, entries, List.takeWhile_cons_of_pos waited]
                  exact List.mem_append_cons_self
                have stays : key ∉ (mgr.evicted now).map Prod.fst := by
                  have kept : (key, op, time) ∈ past ++ saving.mgr.saveLru.entries := by
                    rw [entries]
                    exact List.mem_append_cons_self
                  rw [← marks] at kept
                  exact of_decide_eq_true (List.mem_filter.mp kept).2
                have same : saving.mgr.dbLru.get key = mgr.dbLru.get key := by
                  ext value
                  rw [Lru.get_eq_some, Lru.get_eq_some, cached]
                  refine exists_congr fun time => ?_
                  rw [List.mem_append]
                  refine ⟨.inr, fun either => either.resolve_left fun dropped => ?_⟩
                  exact stays (List.mem_map_of_mem dropped)
                have next := saved.checkSave raised is_due same
                have mgr_eq := saving.checkSave_mgr raises key (saving.mgr.dbLru.get key)
                have erased := @Lru.entries_erase _ _ _ saving.mgr.saveLru [] rest (key, op, time)
                  entries
                refine @ih _ (past ++ [(key, op, time)]) ?_ ?_ ?_ next ?_
                · rw [mgr_eq]
                  exact cached
                · rw [mgr_eq, marks, entries]
                  rw [erased]
                  exact List.append_cons ..
                · intro entry mem
                  rcases List.mem_append.mp mem with mem | mem
                  · exact old entry mem
                  · cases List.mem_singleton.mp mem
                    exact waited
                · rw [mgr_eq]
                  have smaller := Lru.size_erase_of_get (Lru.get_of_peek first)
                  dsimp only
                  omega

theorem delayedLoop_raised (raised : saving.raised = true) :
    saving.delayedLoop raises now (fuel + 1) = some saving := by
  rw [Saving.delayedLoop, if_pos raised]

theorem expiredLoop_raised (raised : saving.raised = true) :
    saving.expiredLoop raises now (fuel + 1) = some saving := by
  rw [Saving.expiredLoop, if_pos raised]

theorem saveAll_spec (mgr : Mgr κ χ γ) (raises : Call κ χ γ → Bool) :
    ∃ after, mgr.saveAll raises = some after ∧ Saved raises mgr (fun _ => True) after ∧
      (after.raised = false → ∀ key, True → after.mgr.saveLru.get key = none) := by
  obtain ⟨after, ended, saved, finished⟩ :=
    saveAllLoop_spec (@saved_start _ _ _ _ raises _ _) rfl (Nat.lt_succ_self mgr.saveLru.size)
  exact ⟨after, ended, saved, fun running key _ => finished running key⟩

theorem saveOnce_spec (mgr : Mgr κ χ γ) (raises : Call κ χ γ → Bool) (now : ℕ) :
    ∃ after, mgr.saveOnce raises now = some after ∧ Saved raises mgr (mgr.Due now) after ∧
      (after.raised = false → ∀ key, mgr.Due now key → after.mgr.saveLru.get key = none) := by
  have start : Dropping mgr [] ⟨mgr, [], false⟩ :=
    ⟨rfl, (List.filter_eq_self.mpr fun _ _ => rfl).symm, rfl, rfl⟩
  obtain ⟨first, dropped, first_ended, first_saved, first_dropping, full⟩ :=
    overflowLoop_spec start (@saved_start _ _ _ _ raises _ _) (Nat.zero_le _)
      (Nat.lt_succ_self mgr.dbLru.size)
  rw [Mgr.saveOnce, first_ended, Option.bind_some]
  cases first_raised : first.raised with
  | true =>
      rw [expiredLoop_raised first_raised, Option.bind_some, delayedLoop_raised first_raised]
      exact ⟨first, rfl, first_saved, fun running => Bool.noConfusion (first_raised.symm.trans running)⟩
  | false =>
      obtain rfl := full first_raised
      rw [← List.append_nil (mgr.dbLru.entries.take mgr.surplus)] at first_dropping
      have fewer : first.mgr.dbLru.size < mgr.dbLru.size + 1 := by
        have total := congrArg List.length first_dropping.entries
        rw [List.length_append] at total
        unfold Lru.size
        omega
      obtain ⟨second, gone, second_ended, second_saved, second_dropping, stale⟩ :=
        expiredLoop_spec first_dropping (by rintro _ ⟨⟩) first_saved fewer
      rw [second_ended, Option.bind_some]
      cases second_raised : second.raised with
      | true =>
          rw [delayedLoop_raised second_raised]
          exact ⟨second, rfl, second_saved,
            fun running => Bool.noConfusion (second_raised.symm.trans running)⟩
      | false =>
          obtain rfl := stale second_raised
          have marks : second.mgr.saveLru.size < mgr.saveLru.size + 1 := by
            rw [Lru.size, second_dropping.marks]
            exact Nat.lt_succ_of_le (List.length_filter_le ..)
          exact delayedLoop_spec second_dropping.entries
            (second_dropping.marks.symm.trans (List.nil_append _).symm) (by rintro _ ⟨⟩) second_saved marks

/-- `save_all` attempts everything that is pending, and `save_once` everything that is due, exactly if
none of these operations raises. -/
theorem attempts_iff (mgr : Mgr κ χ γ) (raises : Call κ χ γ → Bool) (now : ℕ) :
    (∃ after, mgr.saveAll raises = some after ∧
      (Attempts raises mgr (fun _ => True) after ↔
        ∀ key call, mgr.operation key = some call → raises call = false)) ∧
    (∃ after, mgr.saveOnce raises now = some after ∧
      (Attempts raises mgr (mgr.Due now) after ↔
        ∀ key call, mgr.Due now key → mgr.operation key = some call → raises call = false)) := by
  obtain ⟨all, all_ended, all_saved, all_finished⟩ := saveAll_spec mgr raises
  obtain ⟨once, once_ended, once_saved, once_finished⟩ := saveOnce_spec mgr raises now
  refine ⟨⟨all, all_ended, ?_⟩, once, once_ended, once_saved.missed_none_iff once_finished⟩
  have iff := all_saved.missed_none_iff all_finished
  exact iff.trans ⟨fun quiet key call => quiet key call trivial, fun quiet key call _ => quiet key call⟩

def threeChanged : Mgr ℕ Unit ℕ :=
  (((⟨Lru.empty, Lru.empty, none, none⟩ : Mgr ℕ Unit ℕ).set 1 ⟨fun _ => some 10, fun _ => false⟩ 0).set
    2 ⟨fun _ => some 20, fun _ => false⟩ 0).set 3 ⟨fun _ => some 30, fun _ => false⟩ 0

/-- The second operation raises: it is not pending any longer, and the third one is not attempted. -/
theorem threeChanged_not_attempts :
    ¬ ∃ after, threeChanged.saveAll (fun call => call.key = 2) = some after ∧
      Attempts (fun call => call.key = 2) threeChanged (fun _ => True) after := by
  rintro ⟨after, ended, attempts⟩
  have calls : (threeChanged.saveAll fun call => call.key = 2).map (fun saving =>
      (saving.callsOf 3).length) = some 0 := by decide
  have once := congrArg List.length (attempts.once 3 trivial (by decide))
  rw [ended] at calls
  have none_called : (after.callsOf 3).length = 0 := Option.some.inj calls
  rw [none_called] at once
  revert once
  decide

end UEServer.OfflineDb
