import UEServer.GlobalMail.Load

/-!
# Every mail once

Whatever happens, a role receives a mail at most once, with the attachments that were added with it, and
the mail stays as it was added.  Every mail is processed at every start exactly if none but the last
one of those that are found is due then.
-/

namespace UEServer.GlobalMail

open Execution
open RoleMail (Item MailData)

variable {κ ρ τ : Type*} [DecidableEq κ] {state after : State κ ρ τ} {mail : Mail κ τ}

theorem put_core (inv : Inv state) (absent : state.mailDb.get mail.guid = none)
    (unsent : mail.lastGlobalMailId = none) {items : Option (List Item)} {tables : ℕ → Table}
    {count : ℕ} (more : state.tableCount ≤ count)
    (kept : ∀ table < state.tableCount, tables table = state.tables table)
    (made : ∀ table ∈ mail.attach, table < count)
    (filled : (mail.attach.map fun table => (tables table).items) = items) :
    Core { state with
      tables, tableCount := count
      mailDb := state.mailDb.put mail.guid mail state.now.toNat
      added := Function.update state.added mail.guid (some ({ mail with attach := none }, items)) } := by
  obtain ⟨⟨keyed, attached, unchanged, numbered, unique, mapped, timed, reached, received, once, same⟩,
    stored⟩ := inv
  have split : ∀ other last, (state.mailDb.put mail.guid mail state.now.toNat).get other = some last →
      (other = mail.guid ∧ last = mail) ∨ other ≠ mail.guid ∧ state.mailDb.get other = some last := by
    intro other last listed
    rw [Lru.get_put] at listed
    split at listed
    · next own => exact .inl ⟨own, (Option.some.inj listed).symm⟩
    · next different => exact .inr ⟨different, listed⟩
  have get : ∀ other last, state.mailDb.get other = some last →
      (state.mailDb.put mail.guid mail state.now.toNat).get other = some last := by
    intro other last listed
    have different : other ≠ mail.guid := by
      rintro rfl
      rw [absent] at listed
      cases listed
    rw [Lru.get_put, if_neg different, listed]
  have unknown : ∀ receipt ∈ state.receipts, receipt.guid ≠ mail.guid := by
    intro receipt mem own
    obtain ⟨_, _, as_added, -⟩ := same receipt mem
    have listed := stored receipt.guid (Option.isSome_of_eq_some as_added)
    rw [own, absent] at listed
    cases listed
  refine ⟨?_, ?_, ?_, ?_, ?_, ?_, ?_, ?_, ?_, once, ?_⟩
  · intro other last listed
    obtain ⟨rfl, rfl⟩ | ⟨-, listed⟩ := split other last listed
    · rfl
    · exact keyed other last listed
  · intro other last listed table mem
    obtain ⟨rfl, rfl⟩ | ⟨-, listed⟩ := split other last listed
    · exact made table mem
    · exact (attached other last listed table mem).trans_le more
  · intro other last listed
    dsimp only
    obtain ⟨rfl, rfl⟩ | ⟨different, listed⟩ := split other last listed
    · rw [Function.update_self, State.content, State.items, filled, ← unsent]
    · rw [Function.update_of_ne different, unchanged other last listed, State.content, State.content]
      exact congrArg (fun items => some (_, items))
        (items_of_tables kept (attached other last listed)).symm
  · intro other last number listed sent
    obtain ⟨rfl, rfl⟩ | ⟨-, listed⟩ := split other last listed
    · rw [unsent] at sent
      cases sent
    · exact numbered other last number listed sent
  · intro other another last next number listed listed_next sent sent_next
    obtain ⟨rfl, rfl⟩ | ⟨-, listed⟩ := split other last listed
    · rw [unsent] at sent
      cases sent
    obtain ⟨rfl, rfl⟩ | ⟨-, listed_next⟩ := split another next listed_next
    · rw [unsent] at sent_next
      cases sent_next
    · exact unique other another last next number listed listed_next sent sent_next
  · intro number other maps
    obtain ⟨last, listed, sent⟩ := mapped number other maps
    exact ⟨last, get other last listed, sent⟩
  · intro other timer
    obtain ⟨last, listed, waits⟩ := timed other timer
    exact ⟨last, get other last listed, waits⟩
  · intro receipt mem last listed
    obtain ⟨own, -⟩ | ⟨-, listed⟩ := split receipt.guid last listed
    · exact absurd own (unknown receipt mem)
    · exact reached receipt mem last listed
  · intro receipt mem table listed
    exact (received receipt mem table listed).trans_le more
  · intro receipt mem
    obtain ⟨last, items, as_added, equal⟩ := same receipt mem
    refine ⟨last, items, ?_, ?_⟩
    · exact (Function.update_of_ne (unknown receipt mem) ..).trans as_added
    · rw [← equal]
      exact items_of_tables kept (received receipt mem)

theorem start_parts (state : State κ ρ τ) (mail : Mail κ τ) :
    (state.start mail).rows = state.rows ∧ (state.start mail).processed = state.processed ∧
      (state.start mail).added = state.added ∧
      ∀ guid, (state.mailDb.get guid).isSome → ((state.start mail).mailDb.get guid).isSome := by
  unfold State.start
  dsimp only
  split
  · exact ⟨rfl, rfl, rfl, fun _ listed => listed⟩
  · refine ⟨rfl, rfl, rfl, fun guid listed => ?_⟩
    change ((state.mailDb.put _ _ _).get guid).isSome
    rw [Lru.get_put]
    split
    · rfl
    · exact listed

theorem addGlobalMail_inv (inv : Inv state) (absent : state.mailDb.get mail.guid = none)
    (items : Option (List Item)) :
    Inv (state.addGlobalMail mail items) ∧
      (state.addGlobalMail mail items).rows = state.rows ∧
      (state.addGlobalMail mail items).processed = state.processed := by
  obtain ⟨⟨tables, count, parts, more, kept⟩, made, filled⟩ := newItems_spec state items
  unfold State.addGlobalMail
  dsimp only
  rw [parts] at made filled ⊢
  have no_timer : state.mailTimer mail.guid = none := by
    by_contra timer
    obtain ⟨last, listed, -⟩ := inv.timed mail.guid (Option.isSome_iff_ne_none.mpr timer)
    rw [absent] at listed
    cases listed
  have put := @put_core _ _ _ _ state { mail with
    attach := (state.newItems items).2, lastGlobalMailId := none } inv absent rfl items tables count
      more kept made filled
  have started := start_core put ((Lru.get_put ..).trans (if_pos rfl)) rfl no_timer
  obtain ⟨rows, processed, added, keeps⟩ := start_parts { state with
      tables, tableCount := count
      mailDb := state.mailDb.put mail.guid { mail with
        attach := (state.newItems items).2, lastGlobalMailId := none } state.now.toNat
      added := Function.update state.added mail.guid
        (some ({ mail with attach := none, lastGlobalMailId := none }, items)) }
    { mail with attach := (state.newItems items).2, lastGlobalMailId := none }
  refine ⟨⟨started, fun guid known => keeps guid ?_⟩, rows, processed⟩
  rw [added] at known
  rw [Lru.get_put]
  by_cases own : guid = mail.guid
  · rw [if_pos own]
    rfl
  · rw [if_neg own]
    refine inv.stored guid ?_
    rw [← known]
    exact congrArg Option.isSome (Function.update_of_ne own ..).symm

section
variable [DecidableEq ρ]

omit [DecidableEq ρ] in
theorem sendGlobalMail_parts (state : State κ ρ τ) (number : ℕ) (role : ρ) (info : RoleInfo) :
    (state.sendGlobalMail number role info).rows = state.rows ∧
      (state.sendGlobalMail number role info).processed = state.processed ∧
      (state.sendGlobalMail number role info).added = state.added ∧
      (state.sendGlobalMail number role info).mailDb = state.mailDb := by
  unfold State.sendGlobalMail
  split
  · exact ⟨rfl, rfl, rfl, rfl⟩
  · next guid _ =>
      split
      · exact ⟨rfl, rfl, rfl, rfl⟩
      · next mail _ =>
          split
          · unfold State.addMail
            rw [addItems_gm]
            cases mail.attach with
            | none => exact ⟨rfl, rfl, rfl, rfl⟩
            | some table => exact ⟨rfl, rfl, rfl, rfl⟩
          · exact ⟨rfl, rfl, rfl, rfl⟩

theorem sendFrom_parts (state : State κ ρ τ) (role : ρ) (info : RoleInfo) (left : ℕ) :
    (State.sendFrom role info left state).rows = state.rows ∧
      (State.sendFrom role info left state).processed = state.processed ∧
      (State.sendFrom role info left state).added = state.added ∧
      (State.sendFrom role info left state).mailDb = state.mailDb := by
  induction left generalizing state with
  | zero => exact ⟨rfl, rfl, rfl, rfl⟩
  | succ left ih =>
      obtain ⟨rows, processed, added, mails⟩ := ih (State.sendGlobalMail
        { state with
          lastGlobalMail :=
            Function.update state.lastGlobalMail role (state.lastGlobalMail role + 1) }
        (state.lastGlobalMail role + 1) role info)
      obtain ⟨same_rows, same_processed, same_added, same_mails⟩ := sendGlobalMail_parts
        { state with
          lastGlobalMail :=
            Function.update state.lastGlobalMail role (state.lastGlobalMail role + 1) }
        (state.lastGlobalMail role + 1) role info
      exact ⟨rows.trans same_rows, processed.trans same_processed, added.trans same_added,
        mails.trans same_mails⟩

/-- A start finds no mail that is due, except perhaps as the last one. -/
def Permitted (state : State κ ρ τ) : Op κ ρ τ → Prop
  | .restart rows => ∀ guid ∈ rows.dropLast, ∀ mail ∈ state.mailDb.get guid, ¬ mail.Due state.now
  | _ => True

instance (state : State κ ρ τ) : (op : Op κ ρ τ) → Decidable (Permitted state op)
  | .restart rows => inferInstanceAs (Decidable
      (∀ guid ∈ rows.dropLast, ∀ mail ∈ state.mailDb.get guid, ¬ mail.Due state.now))
  | .add _ _ => isTrue trivial
  | .timer _ => isTrue trivial
  | .checkSend _ _ => isTrue trivial
  | .tick _ => isTrue trivial

omit [DecidableEq ρ] in
theorem timer_core (core : Core state) {guid : κ} (timer : (state.mailTimer guid).isSome)
    (found : state.mailDb.get guid = some mail) :
    Core { state.mailTakeEffect mail with
      mailTimer := Function.update state.mailTimer guid none } := by
  obtain ⟨known, listed, unsent⟩ := core.timed guid timer
  obtain rfl := Option.some.inj (listed.symm.trans found)
  obtain rfl := core.keyed guid known found
  exact mailTakeEffect_core (dropTimer_core core known.guid) found unsent
    (Function.update_self ..)

theorem step_spec {op : Op κ ρ τ} (inv : Inv state) (taken : step state op = some after) :
    Inv after ∧ (state.processed.Perm state.rows →
      (after.processed.Perm after.rows ↔ Permitted state op)) := by
  cases op with
  | restart rows =>
      obtain ⟨perm, taken⟩ := Option.ite_none_right_eq_some.mp taken
      cases taken
      obtain ⟨core, same, added, kept, exact_rows⟩ := restart_spec inv.toCore perm
      refine ⟨⟨core, fun guid known => kept guid (inv.stored guid (added ▸ known))⟩, fun _ => ?_⟩
      rw [same]
      exact exact_rows
  | add mail items =>
      obtain ⟨absent, taken⟩ := Option.ite_none_right_eq_some.mp taken
      cases taken
      obtain ⟨added, rows, processed⟩ := addGlobalMail_inv inv absent items
      rw [rows, processed]
      exact ⟨added, fun loaded => iff_of_true loaded trivial⟩
  | timer guid =>
      simp only [step] at taken
      split at taken
      · next due mail timer found =>
          obtain ⟨-, taken⟩ := Option.ite_none_right_eq_some.mp taken
          cases taken
          have core := timer_core inv.toCore (Option.isSome_of_eq_some timer) found
          refine ⟨⟨core, fun other known => ?_⟩, fun loaded => iff_of_true loaded trivial⟩
          change ((state.mailDb.put _ _ _).get other).isSome
          rw [Lru.get_put]
          split
          · rfl
          · exact inv.stored other known
      · cases taken
  | checkSend role info =>
      cases taken
      obtain ⟨rows, processed, added, mails⟩ := sendFrom_parts state role info
        (state.lastGlobalMailId - state.lastGlobalMail role)
      refine ⟨⟨sendFrom_core _ inv.toCore, fun guid known => ?_⟩, fun loaded => ?_⟩
      · unfold State.checkSendGlobalMail at known ⊢
        rw [added] at known
        rw [mails]
        exact inv.stored guid known
      · unfold State.checkSendGlobalMail
        rw [rows, processed]
        exact iff_of_true loaded trivial
  | tick passed =>
      cases taken
      exact ⟨{ inv with }, fun loaded => iff_of_true loaded trivial⟩

theorem step_good {before after : State κ ρ τ} {op : Op κ ρ τ} (inv : Inv before)
    (good : Good before) (taken : step before op = some after) :
    Good after ↔ Permitted before op := by
  obtain ⟨next, exact_step⟩ := step_spec inv taken
  rw [← exact_step good.loaded]
  exact ⟨Good.loaded, next.toCore.good⟩

theorem step_inv {before after : State κ ρ τ} {op : Op κ ρ τ} (inv : Inv before)
    (_permitted : Permitted before op) (taken : step before op = some after) : Inv after :=
  (step_spec inv taken).1

/-- A server without mails, which may have sent some before. -/
def initial (now : ℤ) (lastGlobalMailId : ℕ) (lastGlobalMail : ρ → ℕ) : State κ ρ τ where
  mailDb := .empty
  mailGuidMapper := fun _ => none
  mailTimer := fun _ => none
  lastGlobalMailId := lastGlobalMailId
  lastGlobalMail := lastGlobalMail
  tables := fun _ => ⟨false, []⟩
  tableCount := 0
  now := now
  receipts := []
  added := fun _ => none
  rows := []
  processed := []

variable {now : ℤ} {lastGlobalMailId : ℕ} {lastGlobalMail : ρ → ℕ}

omit [DecidableEq ρ] in
theorem initial_inv : Inv (initial now lastGlobalMailId lastGlobalMail : State κ ρ τ) := by
  refine ⟨⟨?_, ?_, ?_, ?_, ?_, ?_, ?_, ?_, ?_, List.nodup_nil, ?_⟩, ?_⟩ <;> simp [initial]

/-- In every run, every start processes every mail exactly once, no role receives a mail twice, what
it receives are the attachments that were added with the mail, and the mails stay as they were added,
exactly if no start finds a mail that is due, except perhaps as the last one. -/
theorem delivered_iff {final : State κ ρ τ} {ops : List (Op κ ρ τ)}
    (execution : run step (initial now lastGlobalMailId lastGlobalMail) ops = some final) :
    Always step Good (initial now lastGlobalMailId lastGlobalMail) ops ↔
      Guarded step Permitted (initial now lastGlobalMailId lastGlobalMail) ops :=
  always_iff_guarded step_inv step_good execution initial_inv (initial_inv.toCore.good (.refl _))

def mailFrom (guid : ℕ) (startTs : ℤ) : Mail ℕ Unit :=
  ⟨guid, none, startTs, 100, true, none, 0, 100, none, fun _ => (), 100⟩

/-- Two roles are sent a mail, one of them after a restart. -/
def deliveringRun : List (Op ℕ ℕ Unit) :=
  [.add (mailFrom 1 0) (some [⟨7, some 2⟩]), .checkSend 1 ⟨"a", 5, none⟩, .add (mailFrom 2 9) none,
    .restart [1, 2], .checkSend 2 ⟨"a", 5, none⟩, .checkSend 1 ⟨"a", 5, none⟩]

theorem delivered_iff_deliveringRun :
    Always step Good (initial 0 0 fun _ => 0) deliveringRun ∧
      ((run step (initial 0 0 fun _ => 0) deliveringRun).map fun state =>
        state.receipts.map fun receipt =>
          (receipt.role, receipt.guid, state.items receipt.itemList)) =
            some [(1, 1, some [⟨7, some 2⟩]), (2, 1, some [⟨7, some 2⟩])] := by
  obtain ⟨final, execution⟩ := Option.isSome_iff_exists.mp
    (show (run step (initial 0 0 fun _ => 0) deliveringRun).isSome by decide)
  exact ⟨(delivered_iff execution).mpr (by decide), by decide⟩

/-- The time of two mails has come while the server was down. -/
def dueRun : List (Op ℕ ℕ Unit) :=
  [.add (mailFrom 1 5) none, .add (mailFrom 2 5) none, .tick 10, .restart [1, 2]]

/-- The second one is not processed. -/
theorem dueRun_not_delivered :
    ¬ Always step Good (initial 0 0 fun _ => 0) dueRun := by
  intro always
  have ends : (run step (initial 0 0 fun _ => 0) dueRun).map
      (fun state => (state.processed, state.rows)) = some ([1], [1, 2]) := by decide
  obtain ⟨final, execution, found⟩ := Option.map_eq_some_iff.mp ends
  obtain ⟨processed, rows⟩ := Prod.mk.inj found
  have loaded := (always.last execution).loaded
  rw [processed, rows] at loaded
  cases loaded.length_eq

/-- Whatever is due when the server starts, roles receive a mail at most once, with the attachments that
were added with it. -/
theorem received_once (ops : List (Op κ ρ τ)) :
    Always step (fun state =>
        (state.receipts.map fun receipt => (receipt.role, receipt.guid)).Nodup ∧
        ∀ receipt ∈ state.receipts, ∃ mail items, state.added receipt.guid = some (mail, items) ∧
          state.items receipt.itemList = items)
      (initial now lastGlobalMailId lastGlobalMail) ops :=
  (always_invariant (fun inv taken => (step_spec inv taken).1) initial_inv).mono fun _ inv =>
    ⟨inv.once, inv.same⟩

end

end UEServer.GlobalMail
