import Mathlib.Data.List.Nodup

/-!
# Tickets

A ticket gives numbered units to the party that holds it, in order.  If no ticket has two holders and
each holder is ahead of what was given for its ticket, no unit is given twice.
-/

namespace Ticket

variable {κ : Type*} {holders rest : List (κ × Nat)} {log : List (κ × Nat)} {key : κ} {next : Nat}

/-- No ticket has two holders, no unit was given twice, and a holder will give units that were not
given.  A holder is a ticket with the unit that it gives next. -/
structure Valid (holders log : List (κ × Nat)) : Prop where
  distinct : (holders.map Prod.fst).Nodup
  nodup : log.Nodup
  ahead : ∀ key next, (key, next) ∈ holders → ∀ unit, (key, unit) ∈ log → unit < next

theorem valid_nil : Valid ([] : List (κ × Nat)) [] :=
  ⟨List.nodup_nil, List.nodup_nil, fun _ _ held => by cases held⟩

theorem Valid.sublist (valid : Valid holders log) (sublist : rest.Sublist holders) :
    Valid rest log := by
  refine ⟨valid.distinct.sublist (sublist.map Prod.fst), valid.nodup, ?_⟩
  exact fun key next held => valid.ahead key next (sublist.subset held)

theorem Valid.acquire (valid : Valid holders log) (idle : key ∉ holders.map Prod.fst)
    (ahead : ∀ unit, (key, unit) ∈ log → unit < next) : Valid ((key, next) :: holders) log := by
  refine ⟨List.nodup_cons.mpr ⟨idle, valid.distinct⟩, valid.nodup, ?_⟩
  intro other unit held
  rcases List.mem_cons.mp held with same | before
  · cases same
    exact ahead
  · exact valid.ahead other unit before

theorem Valid.give (valid : Valid holders log) (idle : key ∉ holders.map Prod.fst)
    (ahead : ∀ unit, (key, unit) ∈ log → unit < next) : Valid holders (log ++ [(key, next)]) := by
  refine ⟨valid.distinct, ?_, ?_⟩
  · refine List.nodup_append.mpr ⟨valid.nodup, List.nodup_singleton _, ?_⟩
    rintro given before _ now rfl
    cases List.mem_singleton.mp now
    exact absurd (ahead next before) (Nat.lt_irrefl next)
  · intro other unit held given mem
    rcases List.mem_append.mp mem with before | now
    · exact valid.ahead other unit held given before
    · cases List.mem_singleton.mp now
      exact absurd (List.mem_map_of_mem held) idle

theorem ahead_of_give (ahead : ∀ unit, (key, unit) ∈ log → unit < next) (unit : Nat)
    (given : (key, unit) ∈ log ++ [(key, next)]) : unit < next + 1 := by
  rcases List.mem_append.mp given with before | now
  · exact Nat.lt_succ_of_lt (ahead unit before)
  · obtain ⟨-, rfl⟩ := Prod.mk.inj (List.mem_singleton.mp now)
    exact Nat.lt_succ_self unit

section
variable {γ : Type*} [DecidableEq γ] {hold : γ → Option (κ × Nat)} {parties : List γ} {party : γ}

theorem Valid.leave (valid : Valid (parties.filterMap hold) log) (mem : party ∈ parties) :
    Valid ((parties.erase party).filterMap hold) log ∧
      ∀ key next, hold party = some (key, next) →
        key ∉ ((parties.erase party).filterMap hold).map Prod.fst ∧
          ∀ unit, (key, unit) ∈ log → unit < next := by
  refine ⟨valid.sublist ((List.erase_sublist).filterMap hold), fun key next holds => ?_⟩
  have holders := (List.perm_cons_erase mem).filterMap hold
  rw [List.filterMap_cons_some holds] at holders
  have held : (key, next) ∈ parties.filterMap hold := holders.mem_iff.mpr List.mem_cons_self
  refine ⟨?_, valid.ahead key next held⟩
  have distinct := (holders.map Prod.fst).nodup_iff.mp valid.distinct
  exact (List.nodup_cons.mp distinct).1

end

end Ticket
