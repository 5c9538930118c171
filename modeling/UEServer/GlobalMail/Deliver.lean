import UEServer.GlobalMail.Basic

/-!
# Deliveries

A mail has one number, and a role is given the mails with the numbers that it has not reached yet, so
it receives a mail at most once.  What is in a table does not change: all that is done to it is that
it is made a container.
-/

namespace UEServer.GlobalMail

open RoleMail (Item MailData)

variable {κ ρ τ : Type*}

/-- A mail and its attachments, without its number and without the table. -/
def State.content (state : State κ ρ τ) (mail : Mail κ τ) : Mail κ τ × Option (List Item) :=
  ({ mail with lastGlobalMailId := none, attach := none }, state.items mail.attach)

section
variable [DecidableEq κ]

/-- What holds of mails, roles and tables. -/
structure Core (state : State κ ρ τ) : Prop where
  keyed : ∀ guid mail, state.mailDb.get guid = some mail → mail.guid = guid
  attached : ∀ guid mail, state.mailDb.get guid = some mail →
    ∀ table ∈ mail.attach, table < state.tableCount
  unchanged : ∀ guid mail, state.mailDb.get guid = some mail →
    state.added guid = some (state.content mail)
  numbered : ∀ guid mail number, state.mailDb.get guid = some mail →
    mail.lastGlobalMailId = some number → number ≤ state.lastGlobalMailId
  unique : ∀ guid other mail last number, state.mailDb.get guid = some mail →
    state.mailDb.get other = some last → mail.lastGlobalMailId = some number →
      last.lastGlobalMailId = some number → guid = other
  mapped : ∀ number guid, state.mailGuidMapper number = some guid →
    ∃ mail, state.mailDb.get guid = some mail ∧ mail.lastGlobalMailId = some number
  timed : ∀ guid, (state.mailTimer guid).isSome →
    ∃ mail, state.mailDb.get guid = some mail ∧ mail.lastGlobalMailId = none
  reached : ∀ receipt ∈ state.receipts, ∀ mail, state.mailDb.get receipt.guid = some mail →
    ∃ number ≤ state.lastGlobalMail receipt.role, mail.lastGlobalMailId = some number
  received : ∀ receipt ∈ state.receipts, ∀ table ∈ receipt.itemList, table < state.tableCount
  once : (state.receipts.map fun receipt => (receipt.role, receipt.guid)).Nodup
  /-- What has been received are the attachments that were added with the mail. -/
  same : ∀ receipt ∈ state.receipts, ∃ mail items, state.added receipt.guid = some (mail, items) ∧
    state.items receipt.itemList = items

/-- What holds between two operations. -/
structure Inv (state : State κ ρ τ) : Prop extends Core state where
  stored : ∀ guid, (state.added guid).isSome → (state.mailDb.get guid).isSome

/-- Roles receive a mail at most once, with the attachments that were added with it, which are still
those of the mail, and the loading has processed every mail once. -/
structure Good (state : State κ ρ τ) : Prop where
  loaded : state.processed.Perm state.rows
  once : (state.receipts.map fun receipt => (receipt.role, receipt.guid)).Nodup
  /-- What has been received are the attachments that were added with the mail. -/
  same : ∀ receipt ∈ state.receipts, ∃ mail items, state.added receipt.guid = some (mail, items) ∧
    state.items receipt.itemList = items
  unchanged : ∀ guid mail, state.mailDb.get guid = some mail →
    state.added guid = some (state.content mail)

theorem Core.good {state : State κ ρ τ} (core : Core state)
    (loaded : state.processed.Perm state.rows) : Good state :=
  { core with loaded }

end

section
variable {state : State κ ρ τ} {mail : Mail κ τ}

theorem addItems_gm (itemList : Option ℕ) :
    state.addItems gmMailData itemList = (state, itemList) := rfl

theorem items_convert (itemList other : Option ℕ) :
    (state.convert itemList).items other = state.items other := by
  cases itemList with
  | none => rfl
  | some table =>
      cases other with
      | none => rfl
      | some other =>
          simp only [State.items, State.convert, Option.map_some, Function.update_apply]
          split <;> simp_all

end

section
variable [DecidableEq κ] {state after : State κ ρ τ} {mail : Mail κ τ} {guid : κ}

theorem convert_core (core : Core state) (itemList : Option ℕ) : Core (state.convert itemList) := by
  obtain ⟨keyed, attached, unchanged, numbered, unique, mapped, timed, reached, received, once, same⟩ :=
    core
  have items := fun other => @items_convert _ _ _ state itemList other
  have parts : ∃ tables, state.convert itemList = { state with tables } := by
    cases itemList with
    | none => exact ⟨_, rfl⟩
    | some table => exact ⟨_, rfl⟩
  obtain ⟨tables, parts⟩ := parts
  rw [parts] at items ⊢
  refine ⟨keyed, attached, fun guid mail found => ?_, numbered, unique, mapped, timed, reached,
    received, once, fun receipt mem => ?_⟩
  · rw [State.content, items]
    exact unchanged guid mail found
  · rw [items]
    exact same receipt mem

theorem addMail_core (core : Core state) {receipt : Receipt κ ρ τ} {number : ℕ}
    (found : state.mailDb.get receipt.guid = some mail)
    (numbered : mail.lastGlobalMailId = some number)
    (reaches : number ≤ state.lastGlobalMail receipt.role)
    (first : ∀ other ∈ state.receipts, other.role = receipt.role → other.guid ≠ receipt.guid)
    (attach : receipt.itemList = mail.attach) : Core (state.addMail receipt) := by
  have converted := convert_core core receipt.itemList
  have items := @items_convert _ _ _ state receipt.itemList
  have parts : ∃ tables, state.convert receipt.itemList = { state with tables } := by
    unfold State.convert
    split
    · exact ⟨_, rfl⟩
    · exact ⟨_, rfl⟩
  obtain ⟨tables, parts⟩ := parts
  rw [State.addMail, addItems_gm]
  dsimp only
  rw [parts] at converted items ⊢
  obtain ⟨keyed, attached, unchanged, bounded, unique, mapped, timed, reached, received, once, same⟩ :=
    converted
  refine ⟨keyed, attached, unchanged, bounded, unique, mapped, timed, ?_, ?_, ?_, ?_⟩
  · intro other mem last listed
    rcases List.mem_append.mp mem with mem | mem
    · exact reached other mem last listed
    · cases List.mem_singleton.mp mem
      cases found.symm.trans listed
      exact ⟨number, reaches, numbered⟩
  · intro other mem table listed
    rcases List.mem_append.mp mem with mem | mem
    · exact received other mem table listed
    · cases List.mem_singleton.mp mem
      exact attached receipt.guid mail found table (attach ▸ listed)
  · rw [List.map_append, List.map_singleton, List.nodup_append]
    refine ⟨once, List.nodup_singleton _, ?_⟩
    rintro _ mem _ last rfl
    obtain ⟨other, other_mem, pair⟩ := List.mem_map.mp mem
    rw [List.mem_singleton, Prod.mk.injEq] at last
    rw [Prod.mk.injEq] at pair
    exact first other other_mem (pair.1.trans last.1) (pair.2.trans last.2)
  · intro other mem
    rcases List.mem_append.mp mem with mem | mem
    · exact same other mem
    · cases List.mem_singleton.mp mem
      refine ⟨_, _, unchanged receipt.guid mail found, ?_⟩
      rw [attach]
      rfl

theorem addMailTimer_core (core : Core state) (found : state.mailDb.get guid = some mail)
    (unsent : mail.lastGlobalMailId = none) (delay : ℤ) : Core (state.addMailTimer guid delay) := by
  obtain ⟨keyed, attached, unchanged, numbered, unique, mapped, timed, reached, received, once, same⟩ :=
    core
  refine ⟨keyed, attached, unchanged, numbered, unique, mapped, ?_, reached, received, once, same⟩
  intro other timer
  by_cases own : other = guid
  · subst own
    exact ⟨mail, found, unsent⟩
  · refine timed other ?_
    rw [← timer]
    exact congrArg Option.isSome (Function.update_of_ne own ..).symm

theorem dropTimer_core (core : Core state) (guid : κ) :
    Core { state with mailTimer := Function.update state.mailTimer guid none } := by
  obtain ⟨keyed, attached, unchanged, numbered, unique, mapped, timed, reached, received, once, same⟩ :=
    core
  refine ⟨keyed, attached, unchanged, numbered, unique, mapped, ?_, reached, received, once, same⟩
  intro other timer
  by_cases own : other = guid
  · subst own
    change (Function.update state.mailTimer other none other).isSome at timer
    rw [Function.update_self] at timer
    cases timer
  · refine timed other ?_
    rw [← timer]
    exact congrArg Option.isSome (Function.update_of_ne own ..).symm

theorem mailTakeEffect_core (core : Core state) (found : state.mailDb.get mail.guid = some mail)
    (unsent : mail.lastGlobalMailId = none) (no_timer : state.mailTimer mail.guid = none) :
    Core (state.mailTakeEffect mail) := by
  obtain ⟨keyed, attached, unchanged, numbered, unique, mapped, timed, reached, received, once, same⟩ :=
    core
  have unread : ∀ receipt ∈ state.receipts, receipt.guid ≠ mail.guid := by
    intro receipt mem own
    obtain ⟨number, -, sent⟩ := reached receipt mem mail (own ▸ found)
    rw [unsent] at sent
    cases sent
  have numbers : ∀ other last number, state.mailDb.get other = some last →
      last.lastGlobalMailId = some number → number ≠ state.lastGlobalMailId + 1 := by
    intro other last number listed sent
    have := numbered other last number listed sent
    omega
  have get : ∀ other, (state.mailTakeEffect mail).mailDb.get other =
      if other = mail.guid then
        some { mail with lastGlobalMailId := some (state.lastGlobalMailId + 1) }
      else state.mailDb.get other :=
    fun other => Lru.get_put ..
  -- The one mail that changes has nothing but a new number.
  have split : ∀ other last, (state.mailTakeEffect mail).mailDb.get other = some last →
      (other = mail.guid ∧
        last = { mail with lastGlobalMailId := some (state.lastGlobalMailId + 1) }) ∨
      other ≠ mail.guid ∧ state.mailDb.get other = some last := by
    intro other last listed
    rw [get] at listed
    split at listed
    · next own => exact .inl ⟨own, (Option.some.inj listed).symm⟩
    · next different => exact .inr ⟨different, listed⟩
  refine ⟨?_, ?_, ?_, ?_, ?_, ?_, ?_, ?_, received, once, same⟩
  · intro other last listed
    obtain ⟨rfl, rfl⟩ | ⟨-, listed⟩ := split other last listed
    · rfl
    · exact keyed other last listed
  · intro other last listed
    obtain ⟨rfl, rfl⟩ | ⟨-, listed⟩ := split other last listed
    · exact attached mail.guid mail found
    · exact attached other last listed
  · intro other last listed
    obtain ⟨rfl, rfl⟩ | ⟨-, listed⟩ := split other last listed
    · exact unchanged mail.guid mail found
    · exact unchanged other last listed
  · intro other last number listed sent
    obtain ⟨rfl, rfl⟩ | ⟨-, listed⟩ := split other last listed
    · exact (Option.some.inj sent).ge
    · exact Nat.le_succ_of_le (numbered other last number listed sent)
  · intro other another last next number listed listed_next sent sent_next
    obtain ⟨rfl, rfl⟩ | ⟨-, listed⟩ := split other last listed
    · obtain ⟨rfl, rfl⟩ | ⟨-, listed_next⟩ := split another next listed_next
      · rfl
      · exact absurd (Option.some.inj sent).symm (numbers another next number listed_next sent_next)
    · obtain ⟨rfl, rfl⟩ | ⟨-, listed_next⟩ := split another next listed_next
      · exact absurd (Option.some.inj sent_next).symm (numbers other last number listed sent)
      · exact unique other another last next number listed listed_next sent sent_next
  · intro number other maps
    change Function.update state.mailGuidMapper (state.lastGlobalMailId + 1) (some mail.guid) number =
      some other at maps
    by_cases new : number = state.lastGlobalMailId + 1
    · subst new
      rw [Function.update_self] at maps
      cases maps
      exact ⟨_, (get mail.guid).trans (if_pos rfl), rfl⟩
    · rw [Function.update_of_ne new] at maps
      obtain ⟨last, listed, sent⟩ := mapped number other maps
      have different : other ≠ mail.guid := by
        rintro rfl
        cases found.symm.trans listed
        rw [unsent] at sent
        cases sent
      exact ⟨last, (get other).trans ((if_neg different).trans listed), sent⟩
  · intro other timer
    have different : other ≠ mail.guid := by
      rintro rfl
      change (state.mailTimer mail.guid).isSome at timer
      rw [no_timer] at timer
      cases timer
    obtain ⟨last, listed, waits⟩ := timed other timer
    exact ⟨last, (get other).trans ((if_neg different).trans listed), waits⟩
  · intro receipt mem last listed
    obtain ⟨own, -⟩ | ⟨-, listed⟩ := split receipt.guid last listed
    · exact absurd own (unread receipt mem)
    · exact reached receipt mem last listed

variable [DecidableEq ρ]

theorem sendNext_core {role : ρ} {info : RoleInfo} (core : Core state) :
    Core (State.sendGlobalMail
      { state with
        lastGlobalMail :=
          Function.update state.lastGlobalMail role (state.lastGlobalMail role + 1) }
      (state.lastGlobalMail role + 1) role info) := by
  have advanced : Core
      { state with
        lastGlobalMail :=
          Function.update state.lastGlobalMail role (state.lastGlobalMail role + 1) } := by
    obtain ⟨keyed, attached, unchanged, numbered, unique, mapped, timed, reached, received, once,
      same⟩ := core
    refine ⟨keyed, attached, unchanged, numbered, unique, mapped, timed, ?_, received, once, same⟩
    intro receipt mem mail listed
    obtain ⟨number, reaches, sent⟩ := reached receipt mem mail listed
    refine ⟨number, ?_, sent⟩
    dsimp only
    by_cases own : receipt.role = role
    · rw [own, Function.update_self, ← own]
      exact Nat.le_succ_of_le reaches
    · rwa [Function.update_of_ne own]
  unfold State.sendGlobalMail
  split
  · exact advanced
  · next guid maps =>
      split
      · exact advanced
      · next mail listed =>
          split
          · obtain ⟨known, known_listed, sent⟩ := core.mapped _ guid maps
            obtain rfl := Option.some.inj (known_listed.symm.trans listed)
            refine addMail_core advanced listed sent ?_ ?_ rfl
            · change _ ≤ Function.update state.lastGlobalMail role _ role
              rw [Function.update_self]
            · intro other mem own same
              obtain ⟨number, reaches, other_sent⟩ := core.reached other mem known (same ▸ listed)
              rw [show other.role = role from own] at reaches
              have := Option.some.inj (sent.symm.trans other_sent)
              omega
          · exact advanced

theorem sendFrom_core {role : ρ} {info : RoleInfo} (left : ℕ) (core : Core state) :
    Core (State.sendFrom role info left state) := by
  induction left generalizing state with
  | zero => exact core
  | succ left ih => exact ih (sendNext_core core)

end
end UEServer.GlobalMail
