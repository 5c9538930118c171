import UEServer.GlobalMail.Deliver

/-!
# Loading the global mails

A mail that is due when it is loaded gets its number at once, which assigns it anew: it becomes the
last one of the LRU that is being traversed, and the traversal ends.  The mails after it are neither
sent nor given a timer, and those that have been sent are not found by their numbers.
-/

namespace UEServer.GlobalMail

open RoleMail (Item MailData)

variable {κ ρ τ : Type*} [DecidableEq κ] {state after : State κ ρ τ} {mail : Mail κ τ}

/-- The mail has no number yet, and its time has come. -/
def Mail.Due (now : ℤ) (mail : Mail κ τ) : Prop :=
  mail.lastGlobalMailId = none ∧ mail.startTs ≤ now

instance (now : ℤ) (mail : Mail κ τ) : Decidable (mail.Due now) :=
  inferInstanceAs (Decidable (_ ∧ _))

/-- The mails up to the first one that is due. -/
def untilDue (now : ℤ) : List (κ × Mail κ τ × ℕ) → List κ
  | [] => []
  | (guid, mail, _) :: rest => if mail.Due now then [guid] else guid :: untilDue now rest

omit [DecidableEq κ] in
theorem untilDue_perm_iff (now : ℤ) (entries : List (κ × Mail κ τ × ℕ)) :
    (untilDue now entries).Perm (entries.map Prod.fst) ↔
      ∀ entry ∈ entries.dropLast, ¬ entry.2.1.Due now := by
  induction entries with
  | nil => simp [untilDue]
  | cons entry rest ih =>
      obtain ⟨guid, mail, time⟩ := entry
      cases rest with
      | nil => by_cases due : mail.Due now <;> simp [untilDue, due]
      | cons next rest =>
          rw [untilDue, List.dropLast_cons_cons, List.forall_mem_cons]
          by_cases due : mail.Due now
          · rw [if_pos due]
            refine iff_of_false (fun perm => ?_) fun all => all.1 due
            simpa using perm.length_eq
          · rw [if_neg due, List.map_cons, List.perm_cons, ih]
            exact (and_iff_right due).symm

theorem start_core (core : Core state) (found : state.mailDb.get mail.guid = some mail)
    (unsent : mail.lastGlobalMailId = none) (no_timer : state.mailTimer mail.guid = none) :
    Core (state.start mail) := by
  unfold State.start
  dsimp only
  split
  · exact addMailTimer_core core found unsent _
  · exact mailTakeEffect_core core found unsent no_timer

theorem process_core (core : Core state) (found : state.mailDb.get mail.guid = some mail)
    (no_timer : mail.lastGlobalMailId = none → state.mailTimer mail.guid = none) :
    Core (state.process mail) := by
  have noted : Core { state with processed := state.processed ++ [mail.guid] } := { core with }
  unfold State.process
  split
  · next unsent => exact start_core noted found unsent (no_timer unsent)
  · next number sent =>
      obtain ⟨keyed, attached, unchanged, numbered, unique, mapped, timed, reached, received, once,
        same⟩ := noted
      refine ⟨keyed, attached, unchanged, numbered, unique, ?_, timed, reached, received, once, same⟩
      intro other guid maps
      change Function.update state.mailGuidMapper number (some mail.guid) other = some guid at maps
      by_cases own : other = number
      · subst own
        rw [Function.update_self] at maps
        cases maps
        exact ⟨mail, found, sent⟩
      · rw [Function.update_of_ne own] at maps
        exact mapped other guid maps

/-- What the processing of a mail leaves alone: unless the mail is due, all the mails. -/
theorem process_parts (state : State κ ρ τ) (mail : Mail κ τ) :
    (state.process mail).rows = state.rows ∧ (state.process mail).added = state.added ∧
      (state.process mail).now = state.now ∧
      (state.process mail).processed = state.processed ++ [mail.guid] ∧
      (¬ mail.Due state.now → (state.process mail).mailDb = state.mailDb) ∧
      (mail.Due state.now → ∃ sent,
        (state.process mail).mailDb = state.mailDb.put mail.guid sent state.now.toNat) ∧
      ∀ guid, guid ≠ mail.guid → (state.process mail).mailTimer guid = state.mailTimer guid := by
  unfold State.process Mail.Due State.start
  cases sent : mail.lastGlobalMailId with
  | some number => simp
  | none =>
      by_cases later : 0 < mail.startTs - state.now
      · simp only [if_pos later]
        refine ⟨rfl, rfl, rfl, rfl, fun _ => rfl, fun due => ?_, fun guid other => ?_⟩
        · exact absurd due.2 (by omega)
        · exact Function.update_of_ne other ..
      · simp only [if_neg later]
        refine ⟨rfl, rfl, rfl, rfl, fun due => ?_, fun _ => ⟨_, rfl⟩, fun _ _ => rfl⟩
        exact absurd ⟨trivial, by omega⟩ due

theorem loadLoop_of_end {fuel : ℕ} {key : Option κ} (ends : state.mailDb.next key = none) :
    State.loadLoop fuel state key = state := by
  cases fuel with
  | zero => rfl
  | succ fuel => rw [State.loadLoop, ends]

/-- The loop processes the mails that follow, up to the first one that is due. -/
theorem loadLoop_spec {front rest : List (κ × Mail κ τ × ℕ)} {key : Option κ} {fuel : ℕ}
    (core : Core state) (entries : state.mailDb.entries = front ++ rest)
    (goes_on : state.mailDb.next key = rest.head?.map fun entry => (entry.1, entry.2.1))
    (timers : ∀ guid, (state.mailTimer guid).isSome → guid ∈ front.map Prod.fst)
    (enough : rest.length < fuel) :
    Core (State.loadLoop fuel state key) ∧
      (State.loadLoop fuel state key).processed = state.processed ++ untilDue state.now rest ∧
      (State.loadLoop fuel state key).rows = state.rows ∧
      (State.loadLoop fuel state key).added = state.added ∧
      ∀ guid, (state.mailDb.get guid).isSome →
        ((State.loadLoop fuel state key).mailDb.get guid).isSome := by
  induction rest generalizing state front key fuel with
  | nil =>
      rw [loadLoop_of_end goes_on, untilDue, List.append_nil]
      exact ⟨core, rfl, rfl, rfl, fun _ listed => listed⟩
  | cons entry rest ih =>
      obtain ⟨guid, mail, time⟩ := entry
      obtain ⟨fuel, rfl⟩ := Nat.exists_eq_succ_of_ne_zero (Nat.ne_zero_of_lt enough)
      have loop : State.loadLoop (fuel + 1) state key =
          State.loadLoop fuel (state.process mail) (some guid) := by
        rw [State.loadLoop, goes_on]
        rfl
      rw [loop]
      have found : state.mailDb.get guid = some mail :=
        Lru.get_eq_some.mpr ⟨time, by rw [entries]; exact List.mem_append_right _ List.mem_cons_self⟩
      obtain rfl := core.keyed guid mail found
      have nodup := state.mailDb.nodup
      rw [entries, List.map_append, List.nodup_append] at nodup
      have no_timer : state.mailTimer mail.guid = none := by
        by_contra timer
        have early := timers mail.guid (Option.isSome_iff_ne_none.mpr timer)
        exact nodup.2.2 _ early _ List.mem_cons_self rfl
      have processed := process_core core found fun _ => no_timer
      obtain ⟨rows, added, now, done, kept, sent, others⟩ := process_parts state mail
      rw [untilDue]
      by_cases due : mail.Due state.now
      · obtain ⟨last, put⟩ := sent due
        rw [loadLoop_of_end (by rw [put]; exact Lru.next_put ..), if_pos due]
        refine ⟨processed, done, rows, added, fun other listed => ?_⟩
        rw [put, Lru.get_put]
        split
        · rfl
        · exact listed
      · have same := kept due
        have later : ∀ other, ((state.process mail).mailTimer other).isSome →
            other ∈ (front ++ [(mail.guid, mail, time)]).map Prod.fst := by
          intro other timer
          rw [List.map_append, List.mem_append]
          by_cases own : other = mail.guid
          · exact .inr (List.mem_singleton.mpr own)
          · rw [others other own] at timer
            exact .inl (timers other timer)
        have split_entries : (state.process mail).mailDb.entries =
            (front ++ [(mail.guid, mail, time)]) ++ rest := by
          rw [same, entries, List.append_assoc]
          rfl
        have next : (state.process mail).mailDb.next (some mail.guid) =
            rest.head?.map fun entry => (entry.1, entry.2.1) := by
          rw [same]
          exact Lru.next_of_entries entries
        obtain ⟨final, all, final_rows, final_added, keeps⟩ :=
          ih processed split_entries next later (Nat.lt_of_succ_lt_succ enough)
        rw [if_neg due]
        refine ⟨final, ?_, final_rows.trans rows, final_added.trans added, fun other listed => ?_⟩
        · rw [all, done, now, List.append_assoc]
          rfl
        · exact keeps other (by rw [same]; exact listed)

/-- The mails that have been loaded so far are those of the old server, with tables of their own. -/
structure Loading (old state : State κ ρ τ) (done : List κ) : Prop where
  keys : state.mailDb.entries.map Prod.fst = done
  listed : ∀ guid mail, state.mailDb.get guid = some mail → ∃ before,
    old.mailDb.get guid = some before ∧ mail = { before with attach := mail.attach } ∧
      (∀ table ∈ mail.attach, table < state.tableCount) ∧
      state.items mail.attach = old.items before.attach
  tableCount : old.tableCount ≤ state.tableCount
  tables : ∀ table < old.tableCount, state.tables table = old.tables table
  mapper : state.mailGuidMapper = fun _ => none
  timers : state.mailTimer = fun _ => none
  processed : state.processed = []
  others : state.lastGlobalMailId = old.lastGlobalMailId ∧
    state.lastGlobalMail = old.lastGlobalMail ∧ state.now = old.now ∧
    state.receipts = old.receipts ∧ state.added = old.added

omit [DecidableEq κ] in
theorem items_of_tables {old state : State κ ρ τ} {itemList : Option ℕ}
    (tables : ∀ table < old.tableCount, state.tables table = old.tables table)
    (made : ∀ table ∈ itemList, table < old.tableCount) :
    state.items itemList = old.items itemList := by
  cases itemList with
  | none => rfl
  | some table => simp only [State.items, Option.map_some, tables table (made table rfl)]

omit [DecidableEq κ] in
theorem newItems_spec (state : State κ ρ τ) (items : Option (List Item)) :
    (∃ tables count, (state.newItems items).1 = { state with tables, tableCount := count } ∧
        state.tableCount ≤ count ∧ ∀ table < state.tableCount, tables table = state.tables table) ∧
      (∀ table ∈ (state.newItems items).2, table < (state.newItems items).1.tableCount) ∧
      (state.newItems items).1.items (state.newItems items).2 = items := by
  cases items with
  | none => exact ⟨⟨_, _, rfl, le_rfl, fun _ _ => rfl⟩, nofun, rfl⟩
  | some items =>
      refine ⟨⟨_, _, rfl, Nat.le_succ _, fun table old => ?_⟩, fun table mem => ?_, ?_⟩
      · exact Function.update_of_ne old.ne ..
      · obtain rfl := Option.some.inj mem
        exact Nat.lt_succ_self _
      · simp [State.newItems, State.newTable, State.items]

theorem loadRow_loading {old state : State κ ρ τ} {done : List κ} {guid : κ} {mail : Mail κ τ}
    (core : Core old) (loading : Loading old state done) (found : old.mailDb.get guid = some mail)
    (new : guid ∉ done) : Loading old (State.loadRow old.mailDb state guid) (done ++ [guid]) ∧
      (State.loadRow old.mailDb state guid).rows = state.rows := by
  obtain ⟨⟨tables, count, parts, more, kept⟩, made, items⟩ :=
    newItems_spec state (state.items mail.attach)
  have absent : state.mailDb.get guid = none := by
    by_contra listed
    obtain ⟨other, listed⟩ := Option.ne_none_iff_exists'.mp listed
    obtain ⟨time, mem⟩ := Lru.get_eq_some.mp listed
    exact new (loading.keys ▸ List.mem_map.mpr ⟨_, mem, rfl⟩)
  have same_items : state.items mail.attach = old.items mail.attach :=
    items_of_tables loading.tables (core.attached guid mail found)
  have row : State.loadRow old.mailDb state guid =
      { state with
        tables, tableCount := count
        mailDb := state.mailDb.put guid
          { mail with attach := (state.newItems (state.items mail.attach)).2 }
          state.now.toNat } := by
    rw [State.loadRow, found]
    dsimp only
    rw [parts]
  rw [parts] at made items
  rw [row]
  refine ⟨{ loading with keys := ?_, listed := ?_, tableCount := ?_, tables := ?_ }, rfl⟩
  · rw [Lru.entries_put _ _ absent, List.map_append, loading.keys]
    rfl
  · intro other last listed
    rw [Lru.get_put] at listed
    split at listed
    · next own =>
        subst own
        cases listed
        exact ⟨mail, found, rfl, made, items.trans same_items⟩
    · obtain ⟨before, known, same, attached, equal⟩ := loading.listed other last listed
      refine ⟨before, known, same, fun table mem => (attached table mem).trans_le more, ?_⟩
      rw [← equal]
      exact items_of_tables kept attached
  · exact loading.tableCount.trans more
  · intro table early
    exact (kept table (early.trans_le loading.tableCount)).trans (loading.tables table early)

theorem loadRows_loading {old state : State κ ρ τ} {done rows : List κ} (core : Core old)
    (loading : Loading old state done) (known : ∀ guid ∈ rows, (old.mailDb.get guid).isSome)
    (nodup : (done ++ rows).Nodup) :
    Loading old (rows.foldl (State.loadRow old.mailDb) state) (done ++ rows) ∧
      (rows.foldl (State.loadRow old.mailDb) state).rows = state.rows := by
  induction rows generalizing state done with
  | nil =>
      rw [List.append_nil]
      exact ⟨loading, rfl⟩
  | cons guid rows ih =>
      obtain ⟨mail, found⟩ := Option.isSome_iff_exists.mp (known guid List.mem_cons_self)
      have new : guid ∉ done := fun mem =>
        (List.nodup_append.mp nodup).2.2 guid mem guid List.mem_cons_self rfl
      obtain ⟨next, same⟩ := loadRow_loading core loading found new
      rw [List.append_cons] at nodup ⊢
      obtain ⟨all, all_same⟩ := ih next (fun other mem => known other (List.mem_cons_of_mem _ mem)) nodup
      exact ⟨all, all_same.trans same⟩

theorem Loading.core {old state : State κ ρ τ} {done : List κ} (loading : Loading old state done)
    (core : Core old) : Core state := by
  obtain ⟨number, reached, -, receipts, added⟩ := loading.others
  refine ⟨?_, ?_, ?_, ?_, ?_, ?_, ?_, ?_, ?_, ?_, ?_⟩
  · intro guid mail listed
    obtain ⟨before, known, same, -, -⟩ := loading.listed guid mail listed
    rw [same]
    exact core.keyed guid before known
  · intro guid mail listed
    obtain ⟨-, -, -, attached, -⟩ := loading.listed guid mail listed
    exact attached
  · intro guid mail listed
    obtain ⟨before, known, same, -, items⟩ := loading.listed guid mail listed
    rw [added, core.unchanged guid before known, State.content, State.content, items, same]
  · intro guid mail sent listed numbered
    obtain ⟨before, known, same, -, -⟩ := loading.listed guid mail listed
    rw [same] at numbered
    rw [number]
    exact core.numbered guid before sent known numbered
  · intro guid other mail last sent listed listed_last numbered numbered_last
    obtain ⟨before, known, same, -, -⟩ := loading.listed guid mail listed
    obtain ⟨last_before, last_known, last_same, -, -⟩ := loading.listed other last listed_last
    rw [same] at numbered
    rw [last_same] at numbered_last
    exact core.unique guid other before last_before sent known last_known numbered numbered_last
  · intro number guid maps
    rw [loading.mapper] at maps
    cases maps
  · intro guid timer
    rw [loading.timers] at timer
    cases timer
  · intro receipt mem mail listed
    obtain ⟨before, known, same, -, -⟩ := loading.listed receipt.guid mail listed
    rw [receipts] at mem
    rw [reached, same]
    exact core.reached receipt mem before known
  · intro receipt mem table listed
    rw [receipts] at mem
    exact (core.received receipt mem table listed).trans_le loading.tableCount
  · rw [receipts]
    exact core.once
  · intro receipt mem
    rw [receipts] at mem
    obtain ⟨mail, items, as_added, same⟩ := core.same receipt mem
    rw [added, items_of_tables loading.tables (core.received receipt mem)]
    exact ⟨mail, items, as_added, same⟩

theorem restart_spec {rows : List κ} (core : Core state)
    (perm : rows.Perm (state.mailDb.entries.map Prod.fst)) :
    Core (state.restart rows) ∧
      (state.restart rows).rows = rows ∧ (state.restart rows).added = state.added ∧
      (∀ guid, (state.mailDb.get guid).isSome → ((state.restart rows).mailDb.get guid).isSome) ∧
      ((state.restart rows).processed.Perm rows ↔
        ∀ guid ∈ rows.dropLast, ∀ mail ∈ state.mailDb.get guid, ¬ mail.Due state.now) := by
  have known : ∀ guid ∈ rows, (state.mailDb.get guid).isSome := by
    intro guid mem
    obtain ⟨⟨_, mail, time⟩, listed, rfl⟩ := List.mem_map.mp (perm.mem_iff.mp mem)
    exact Option.isSome_iff_exists.mpr ⟨mail, Lru.get_eq_some.mpr ⟨time, listed⟩⟩
  have nodup : rows.Nodup := perm.nodup_iff.mpr state.mailDb.nodup
  have emptied : Loading state { state with
      mailDb := .empty, mailGuidMapper := fun _ => none, mailTimer := fun _ => none, rows
      processed := [] } [] :=
    ⟨rfl, nofun, le_rfl, fun _ _ => rfl, rfl, rfl, rfl, rfl, rfl, rfl, rfl, rfl⟩
  obtain ⟨loading, same_rows⟩ := loadRows_loading core emptied known nodup
  unfold State.restart
  dsimp only
  generalize List.foldl .. = loaded at loading same_rows ⊢
  rw [List.nil_append] at loading
  have length : loaded.mailDb.entries.length = rows.length := by
    rw [← loading.keys, List.length_map]
  obtain ⟨-, -, now, -, added⟩ := loading.others
  obtain ⟨final, processed, final_rows, final_added, kept⟩ :=
    @loadLoop_spec _ _ _ _ loaded [] loaded.mailDb.entries none (rows.length + 1)
      (loading.core core) rfl rfl (by rw [loading.timers]; nofun) (Nat.lt_succ_of_le length.le)
  refine ⟨final, final_rows.trans same_rows, final_added.trans added, fun guid listed => ?_, ?_⟩
  · obtain ⟨mail, listed⟩ := Option.isSome_iff_exists.mp listed
    obtain ⟨time, mem⟩ := Lru.get_eq_some.mp listed
    have row : guid ∈ rows := perm.mem_iff.mpr (List.mem_map.mpr ⟨_, mem, rfl⟩)
    rw [← loading.keys] at row
    obtain ⟨⟨_, last, stamp⟩, entry, rfl⟩ := List.mem_map.mp row
    exact kept _ (Option.isSome_iff_exists.mpr ⟨last, Lru.get_eq_some.mpr ⟨stamp, entry⟩⟩)
  · rw [processed, loading.processed, List.nil_append, now, ← loading.keys, untilDue_perm_iff,
      ← List.map_dropLast, List.forall_mem_map]
    refine forall₂_congr fun entry mem => ?_
    have listed : loaded.mailDb.get entry.1 = some entry.2.1 :=
      Lru.get_eq_some.mpr ⟨entry.2.2, List.dropLast_subset _ mem⟩
    obtain ⟨before, found, same, -, -⟩ := loading.listed _ _ listed
    simp only [found, Option.mem_some_iff, forall_eq']
    rw [same]
    rfl

end UEServer.GlobalMail
