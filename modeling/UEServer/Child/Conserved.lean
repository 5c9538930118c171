import UEServer.Child.Items

/-!
# The items of proposals are conserved

As long as no proposal or acceptance is paid for that then fails, and no child is confirmed to be married
while it has a proposal, the items of the role are accounted for by its deals.
-/

namespace UEServer.ChildItems

open Execution

section
variable {ρ : Type*} {config : Config} {role next : Role ρ} {ledger : Ledger ρ} {items : Table ℕ ℤ}

variable (amount : Deal → ℕ)

theorem total_cons (deal : Deal) (deals : List Deal) (itemId : ℕ) :
    total amount (deal :: deals) itemId =
      (if itemId = deal.itemId then (amount deal : ℤ) else 0) + total amount deals itemId := by
  rw [total, total, List.filter_cons]
  by_cases same : deal.itemId = itemId
  · simp [same]
  · simp [same, Ne.symm same]

theorem total_perm {deals others : List Deal} (perm : deals.Perm others)
    (itemId : ℕ) : total amount deals itemId = total amount others itemId := by
  rw [total, total, ((perm.filter _).map amount).sum_eq]

theorem total_concat (deals : List Deal) (deal : Deal) (itemId : ℕ) :
    total amount (deals ++ [deal]) itemId =
      (if itemId = deal.itemId then (amount deal : ℤ) else 0) + total amount deals itemId := by
  rw [total_perm amount (List.perm_append_singleton deal deals), total_cons]

variable {deal : Deal}

theorem total_erase {deals : List Deal} (mem : deal ∈ deals)
    (itemId : ℕ) : total amount deals itemId =
      (if itemId = deal.itemId then (amount deal : ℤ) else 0) + total amount (deals.erase deal) itemId := by
  rw [total_perm amount (List.perm_cons_erase mem), total_cons]

variable {applyType : ℤ}

section
variable {childGrade childId itemId : ℕ}
  (found : deal? config applyType childGrade childId itemId = some deal)
include found

theorem deal?_ids : deal.childId = childId ∧ deal.itemId = itemId := by
  obtain ⟨marryConfig, -, found⟩ := Option.bind_eq_some_iff.mp found
  obtain ⟨consumeItemInfo, -, found⟩ := Option.bind_eq_some_iff.mp found
  obtain ⟨count, -, rfl⟩ := Option.map_eq_some_iff.mp found
  exact ⟨rfl, rfl⟩

theorem modifyItemNum_subItem (items : Table ℕ ℤ) :
    modifyItemNum config items itemId .subItem applyType childGrade =
      if (deal.count : ℤ) ≤ items.read deal.itemId then
        some (items.increase deal.itemId (-deal.count))
      else none := by
  obtain ⟨marryConfig, known, found⟩ := Option.bind_eq_some_iff.mp found
  obtain ⟨consumeItemInfo, listed, found⟩ := Option.bind_eq_some_iff.mp found
  obtain ⟨count, counted, rfl⟩ := Option.map_eq_some_iff.mp found
  rw [modifyItemNum, known, Option.bind_some, listed, Option.bind_some, counted, Option.bind_some]

theorem modifyItemNum_addItem (items : Table ℕ ℤ) :
    modifyItemNum config items itemId .addItem applyType childGrade =
      some (items.increase deal.itemId deal.refund) := by
  obtain ⟨marryConfig, known, found⟩ := Option.bind_eq_some_iff.mp found
  obtain ⟨consumeItemInfo, listed, found⟩ := Option.bind_eq_some_iff.mp found
  obtain ⟨count, counted, rfl⟩ := Option.map_eq_some_iff.mp found
  rw [modifyItemNum, known, Option.bind_some, listed, Option.bind_some, counted, Option.bind_some]

end

theorem deal?_of_modifyItemNum {childGrade itemId : ℕ} (childId : ℕ)
    {paid : Table ℕ ℤ}
    (modified : modifyItemNum config items itemId .subItem applyType childGrade = some paid) :
    ∃ deal, deal? config applyType childGrade childId itemId = some deal ∧
      (deal.count : ℤ) ≤ items.read deal.itemId ∧ paid = items.increase deal.itemId (-deal.count) := by
  cases found : deal? config applyType childGrade childId itemId with
  | some deal =>
      rw [modifyItemNum_subItem found] at modified
      split at modified
      · rename_i affords
        exact ⟨deal, rfl, affords, (Option.some.inj modified).symm⟩
      · cases modified
  | none =>
      obtain ⟨marryConfig, known, modified⟩ := Option.bind_eq_some_iff.mp modified
      obtain ⟨consumeItemInfo, listed, modified⟩ := Option.bind_eq_some_iff.mp modified
      obtain ⟨count, counted, -⟩ := Option.bind_eq_some_iff.mp modified
      rw [deal?, known, Option.bind_some, listed, Option.bind_some, counted, Option.map_some] at found
      cases found

/-- The record of a child has a proposal for which this was paid. -/
structure Open (config : Config) (child : Child ρ) (deal : Deal) : Prop where
  adult : child.childStatus = .adult
  time : child.applyTime.isSome = true
  paid : ∃ applyType, child.applyType = some applyType ∧ child.consumeItemId = some deal.itemId ∧
    deal? config applyType child.grade deal.childId deal.itemId = some deal

/-- The deals of the role account for its items and its records. -/
structure Kept (config : Config) (items : Table ℕ ℤ) (ledger : Ledger ρ) : Prop where
  balanced : Balanced items ledger
  nodup : (ledger.pending.map Deal.childId).Nodup
  /-- A proposal that has not ended is in the record of its child. -/
  listed : ∀ deal ∈ ledger.pending, ∃ child, ledger.role.child deal.childId = some child ∧
    Open config child deal
  timed : ∀ childId, ∀ child ∈ ledger.role.child childId, child.applyTime.isSome = true →
    ∃ deal ∈ ledger.pending, deal.childId = childId
  /-- A child with `apply_type` has a proposal or is married. -/
  typed : ∀ childId, ∀ child ∈ ledger.role.child childId, child.applyType.isSome = true →
    child.applyTime.isSome = true ∨ child.marry.isSome = true

def Writes (role next : Role ρ) (childId : ℕ) (record : Child ρ) : Prop :=
  next.child = fun id => if id = childId then some record else role.child id

variable {childId : ℕ}

theorem Writes.here {record : Child ρ} (writes : Writes role next childId record) :
    next.child childId = some record := by
  rw [writes]
  exact if_pos rfl

theorem Writes.elsewhere {childId other : ℕ} {record : Child ρ}
    (writes : Writes role next childId record) (ne : other ≠ childId) :
    next.child other = role.child other := by
  rw [writes]
  exact if_neg ne

theorem of_pendingOf (owed : ledger.pendingOf childId = some deal) :
    deal ∈ ledger.pending ∧ deal.childId = childId := by
  refine ⟨List.mem_of_find?_eq_some owed, ?_⟩
  have here := @List.find?_some Deal (fun deal => deal.childId = childId) deal ledger.pending owed
  exact of_decide_eq_true here

theorem Kept.pendingOf (kept : Kept config items ledger) {child : Child ρ}
    (found : ledger.role.child childId = some child) (time : child.applyTime.isSome = true) :
    ∃ deal ∈ ledger.pending, deal.childId = childId ∧ ledger.pendingOf childId = some deal ∧
      Open config child deal := by
  obtain ⟨deal, mem, same⟩ := kept.timed childId child found time
  obtain ⟨first, owed⟩ : ∃ first, ledger.pendingOf childId = some first := by
    rw [← Option.isSome_iff_exists]
    exact List.find?_isSome.mpr ⟨deal, mem, decide_eq_true same⟩
  obtain ⟨mem', same'⟩ := of_pendingOf owed
  obtain ⟨child', found', opened⟩ := kept.listed first mem'
  rw [same'] at found'
  cases found.symm.trans found'
  exact ⟨first, mem', same', owed, opened⟩

theorem Kept.pendingOf_none (kept : Kept config items ledger) {child : Child ρ}
    (found : ledger.role.child childId = some child) (time : child.applyTime = none) :
    ∀ deal ∈ ledger.pending, deal.childId ≠ childId := by
  rintro deal mem rfl
  obtain ⟨child', found', opened⟩ := kept.listed deal mem
  cases found.symm.trans found'
  cases time ▸ opened.time

variable {child record : Child ρ}

section
variable (kept : Kept config items ledger)
include kept

theorem kept_open (found : ledger.role.child childId = some child) (fresh : child.applyTime = none)
    (owner : deal.childId = childId) (opened : Open config record deal)
    (writes : Writes ledger.role next childId record)
    (paid : next.items = ledger.role.items.increase deal.itemId (-deal.count)) :
    Kept config items { ledger with role := next, pending := ledger.pending ++ [deal] } where
  balanced := by
    intro itemId
    have balanced := kept.balanced itemId
    dsimp only
    rw [paid, Table.read_increase, total_concat]
    split <;> omega
  nodup := by
    rw [List.map_append, List.map_singleton]
    refine List.nodup_append.mpr ⟨kept.nodup, List.nodup_singleton _, ?_⟩
    rintro id listed _ last rfl
    obtain ⟨other, mem, rfl⟩ := List.mem_map.mp listed
    exact kept.pendingOf_none found fresh other mem ((List.mem_singleton.mp last).trans owner)
  listed := by
    intro other mem
    rcases List.mem_append.mp mem with mem | mem
    · have ne := kept.pendingOf_none found fresh other mem
      obtain ⟨child', found', opened'⟩ := kept.listed other mem
      exact ⟨child', (writes.elsewhere ne).trans found', opened'⟩
    · cases List.mem_singleton.mp mem
      exact ⟨record, owner ▸ writes.here, opened⟩
  timed := by
    intro id child' found' time
    by_cases same : id = childId
    · exact ⟨deal, List.mem_append_right _ List.mem_cons_self, owner.trans same.symm⟩
    · obtain ⟨other, mem, here⟩ := kept.timed id child' ((writes.elsewhere same).symm.trans found') time
      exact ⟨other, List.mem_append_left _ mem, here⟩
  typed := by
    intro id child' found' type
    by_cases same : id = childId
    · subst same
      cases writes.here.symm.trans found'
      exact .inl opened.time
    · exact kept.typed id child' ((writes.elsewhere same).symm.trans found') type

theorem kept_settle {record : Child ρ} {marriage : Bool}
    (owed : ledger.pendingOf childId = some deal) (writes : Writes ledger.role next childId record)
    (time : record.applyTime = none)
    (type : record.applyType.isSome = true → record.marry.isSome = true)
    (paid : next.items = if marriage then ledger.role.items else ledger.role.items.increase deal.itemId deal.refund)
    :
    Kept config items { ledger.settle childId marriage with role := next } := by
  obtain ⟨mem, same⟩ := of_pendingOf owed
  have perm := (List.perm_cons_erase mem).map Deal.childId
  have nodup := perm.nodup_iff.mp kept.nodup
  rw [List.map_cons, List.nodup_cons, same] at nodup
  have others : ∀ other ∈ ledger.pending.erase deal, other.childId ≠ childId ∧ other ∈ ledger.pending :=
    fun other mem => ⟨fun here => nodup.1 (here ▸ List.mem_map_of_mem mem), List.mem_of_mem_erase mem⟩
  have pending : (ledger.settle childId marriage).pending = ledger.pending.erase deal := by
    rw [Ledger.settle, owed]
    cases marriage <;> rfl
  refine ⟨?_, ?_, ?_, ?_, ?_⟩
  · intro itemId
    have balanced := kept.balanced itemId
    have erased := total_erase Deal.count mem itemId
    cases marriage with
    | true =>
        simp only [Ledger.settle, owed, if_true, paid, total_concat]
        omega
    | false =>
        simp only [Ledger.settle, owed, Bool.false_eq_true, if_false, paid, total_concat,
          Table.read_increase]
        split
        · omega
        · omega
  · rw [pending]
    exact nodup.2
  · rw [pending]
    intro other mem
    obtain ⟨ne, mem⟩ := others other mem
    obtain ⟨child', found', opened'⟩ := kept.listed other mem
    exact ⟨child', (writes.elsewhere ne).trans found', opened'⟩
  · rw [pending]
    intro id child' found' time'
    by_cases here : id = childId
    · subst here
      cases writes.here.symm.trans found'
      cases time ▸ time'
    · obtain ⟨other, mem, owner⟩ := kept.timed id child' ((writes.elsewhere here).symm.trans found') time'
      refine ⟨other, (List.mem_erase_of_ne ?_).mpr mem, owner⟩
      rintro rfl
      exact here (owner.symm.trans same)
  · intro id child' found' type'
    by_cases here : id = childId
    · subst here
      cases writes.here.symm.trans found'
      exact .inr (type type')
    · exact kept.typed id child' ((writes.elsewhere here).symm.trans found') type'

/-- Two records of a child that differ in nothing that concerns its proposal. -/
structure SameProposal (child record : Child ρ) : Prop where
  time : record.applyTime = child.applyTime
  type : record.applyType = child.applyType
  item : record.consumeItemId = child.consumeItemId
  grade : record.grade = child.grade
  adult : child.applyTime.isSome = true → record.childStatus = child.childStatus
  marry : child.marry.isSome = true → record.marry.isSome = true

theorem kept_write (found : ledger.role.child childId = some child)
    (same : SameProposal child record) (writes : Writes ledger.role next childId record)
    {married : List Deal}
    (balanced : Balanced items { ledger with role := next, married := married }) :
    Kept config items { ledger with role := next, married := married } where
  balanced := balanced
  nodup := kept.nodup
  listed := by
    intro deal mem
    obtain ⟨child', found', opened⟩ := kept.listed deal mem
    by_cases here : deal.childId = childId
    · rw [here] at found'
      cases found.symm.trans found'
      refine ⟨record, here ▸ writes.here, ?_⟩
      obtain ⟨applyType, type, item, paid⟩ := opened.paid
      exact ⟨(same.adult opened.time).trans opened.adult, same.time ▸ opened.time, applyType,
        same.type.trans type, same.item.trans item, same.grade ▸ paid⟩
    · exact ⟨child', (writes.elsewhere here).trans found', opened⟩
  timed := by
    intro id child' found' time
    by_cases here : id = childId
    · subst here
      cases writes.here.symm.trans found'
      exact kept.timed id child found (same.time ▸ time)
    · exact kept.timed id child' ((writes.elsewhere here).symm.trans found') time
  typed := by
    intro id child' found' type
    by_cases here : id = childId
    · subst here
      cases writes.here.symm.trans found'
      rcases kept.typed id child found (same.type ▸ type) with time | marry
      · exact .inl (same.time ▸ time)
      · exact .inr (same.marry marry)
    · exact kept.typed id child' ((writes.elsewhere here).symm.trans found') type

theorem kept_idle (sameItems : next.items = ledger.role.items)
    (sameChild : next.child = ledger.role.child) :
    Kept config items { ledger with role := next } where
  balanced := by
    intro itemId
    rw [sameItems]
    exact kept.balanced itemId
  nodup := kept.nodup
  listed := by
    rw [sameChild]
    exact kept.listed
  timed := by
    rw [sameChild]
    exact kept.timed
  typed := by
    rw [sameChild]
    exact kept.typed

end

structure Idle (role : Role ρ) (outcome : Outcome ρ) : Prop where
  ok : outcome.ok = false
  items : outcome.role.items = role.items
  child : outcome.role.child = role.child

theorem idle_refuses (role : Role ρ) : Idle role role.refuses := ⟨rfl, rfl, rfl⟩

/-- A proposal or an acceptance is paid. -/
structure Paid (config : Config) (role : Role ρ) (left : Table ℕ ℤ) (childId : ℕ) (applyType : Option ℤ)
    (itemId : Option ℕ) (deal : Deal) : Prop where
  dealt : role.dealOf config childId applyType itemId = some deal
  owner : deal.childId = childId
  items : left = role.items.increase deal.itemId (-deal.count)

/-- The items that `modify_item_num` leaves are those of the deal, and the role could pay. -/
theorem paid_of_modifyItemNum {childId itemId : ℕ} {child : Child ρ}
    {left : Table ℕ ℤ} (found : role.child childId = some child)
    (modified : modifyItemNum config role.items itemId .subItem applyType child.grade = some left) :
    ∃ deal, deal? config applyType child.grade deal.childId deal.itemId = some deal ∧
      deal.itemId = itemId ∧ Paid config role left childId (some applyType) (some itemId) deal ∧
        role.Affords config childId (some applyType) (some itemId) := by
  obtain ⟨deal, dealt, affords, left_eq⟩ := deal?_of_modifyItemNum childId modified
  obtain ⟨owner, same⟩ := deal?_ids dealt
  have dealOf : role.dealOf config childId (some applyType) (some itemId) = some deal := by
    rw [Role.dealOf, found]
    exact dealt
  refine ⟨deal, ?_, same, ⟨dealOf, owner, left_eq⟩, deal, dealOf, affords⟩
  rw [owner, same]
  exact dealt

/-- The proposal of a child ends with a refund. -/
structure Refunded (ledger : Ledger ρ) (childId : ℕ) (outcome : Outcome ρ) : Prop where
  ok : outcome.ok = true
  /-- The record is cleared, and the items of the deal are given back. -/
  back : ∃ record deal, ledger.pendingOf childId = some deal ∧
    Writes ledger.role outcome.role childId record ∧ record.applyTime = none ∧ record.applyType = none ∧
      outcome.role.items = ledger.role.items.increase deal.itemId deal.refund

section
variable (kept : Kept config items ledger)
include kept

theorem refunded_refund (found : ledger.role.child childId = some child)
    (time : child.applyTime.isSome = true) (type : record.applyType = child.applyType)
    (item : record.consumeItemId = child.consumeItemId) (grade : record.grade = child.grade) :
    Refunded ledger childId (ledger.role.refund config childId record).done := by
  obtain ⟨deal, -, -, owed, opened⟩ := kept.pendingOf found time
  obtain ⟨applyType, type', item', dealt⟩ := opened.paid
  refine ⟨rfl, _, deal, owed, rfl, rfl, rfl, ?_⟩
  rw [Role.refund]
  dsimp only [Role.done, Role.setTimer, Role.setChild]
  rw [item, item', Option.bind_some, type, type', Option.bind_some, grade, modifyItemNum_addItem dealt,
    Option.getD_some]

theorem cancel_cases (childId : ℕ) (answer : Bool) :
    Idle ledger.role (ledger.role.drivingCancelRequest config childId answer) ∨
      Refunded ledger childId (ledger.role.drivingCancelRequest config childId answer) := by
  rw [Role.drivingCancelRequest]
  split
  · exact .inl (idle_refuses _)
  · rename_i child found
    split
    · exact .inl (idle_refuses _)
    · rename_i pending
      have time : child.applyTime.isSome = true :=
        Option.isSome_iff_ne_none.mpr (not_or.mp (not_or.mp pending).2).2
      split
      · exact .inl (idle_refuses _)
      · split
        · exact .inr (refunded_refund kept found time rfl rfl rfl)
        · exact .inr (refunded_refund kept found time rfl rfl rfl)

theorem refused_cases (childId : ℕ) :
    Idle ledger.role (ledger.role.passiveRefuseRequest config childId) ∨
      Refunded ledger childId (ledger.role.passiveRefuseRequest config childId) := by
  rw [Role.passiveRefuseRequest]
  split
  · exact .inl (idle_refuses _)
  · rename_i child found
    split
    · exact .inl (idle_refuses _)
    · rename_i pending
      have time : child.applyTime.isSome = true :=
        Option.isSome_iff_ne_none.mpr (not_or.mp (not_or.mp pending).2).2
      exact .inr (refunded_refund kept found time rfl rfl rfl)

theorem online_cases (childId : ℕ) (requestTime now : ℤ) (answer : Bool) :
    Idle ledger.role (ledger.role.onlineChild config childId requestTime now answer) ∨
      Refunded ledger childId (ledger.role.onlineChild config childId requestTime now answer) := by
  rw [Role.onlineChild]
  split
  · exact .inl (idle_refuses _)
  · split
    · exact .inl ⟨rfl, rfl, rfl⟩
    · exact cancel_cases kept childId answer

/-- `passive_marriage` has no effect, or a proposal ends with a marriage. -/
theorem married_cases (childId : ℕ) (object : Object ρ) :
    Idle ledger.role (ledger.role.passiveMarriage childId object) ∨
      (ledger.role.passiveMarriage childId object).ok = true ∧
        ∃ record deal, ledger.pendingOf childId = some deal ∧
          Writes ledger.role (ledger.role.passiveMarriage childId object).role childId record ∧
          record.applyTime = none ∧ record.marry.isSome = true ∧
          (ledger.role.passiveMarriage childId object).role.items = ledger.role.items := by
  rw [Role.passiveMarriage]
  split
  · exact .inl (idle_refuses _)
  · rename_i child found
    split
    · exact .inl (idle_refuses _)
    · rename_i waits
      obtain ⟨single, typed⟩ := not_or.mp waits
      split
      · exact .inl (idle_refuses _)
      · have time := (kept.typed childId child found (Option.isSome_iff_ne_none.mpr typed)).resolve_right
          single
        obtain ⟨deal, -, -, owed, -⟩ := kept.pendingOf found time
        exact .inr ⟨rfl, _, deal, owed, rfl, rfl, rfl, rfl⟩

end

variable [DecidableEq ρ]

theorem sendRequest_cases {applyType : Option ℤ} {uuid : Option ρ} {itemId : Option ℕ}
    {now : ℤ} {name : Option String}
    (steady : Steady config ledger (.sendRequest childId applyType uuid itemId now name)) :
    Idle ledger.role (ledger.role.sendRequest config childId applyType uuid itemId now name) ∨
      (ledger.role.sendRequest config childId applyType uuid itemId now name).ok = true ∧
        ∃ child record deal, ledger.role.child childId = some child ∧ child.applyTime = none ∧
          Open config record deal ∧
          Paid config ledger.role (ledger.role.sendRequest config childId applyType uuid itemId now name).role.items
            childId applyType itemId deal ∧
          Writes ledger.role (ledger.role.sendRequest config childId applyType uuid itemId now name).role
            childId record := by
  rw [Role.sendRequest.eq_def]
  split
  · rename_i child applyType itemId found
    split
    · exact .inl (idle_refuses _)
    · rename_i adult
      split
      · exact .inl (idle_refuses _)
      · rename_i single
        obtain ⟨noType, single⟩ := not_or.mp single
        obtain ⟨noTime, noMarry⟩ := not_or.mp single
        rw [Bool.not_eq_true, Option.isSome_eq_false_iff, Option.isNone_iff_eq_none] at noType noTime
        split
        · exact .inl (idle_refuses _)
        · rename_i other
          split
          · exact .inl (idle_refuses _)
          · rename_i left modified
            obtain ⟨deal, dealt, rfl, paid, affords⟩ := paid_of_modifyItemNum found modified
            have opened : ∀ record : Child ρ, record.childStatus = child.childStatus →
                record.applyTime = some now → record.applyType = some applyType →
                record.consumeItemId = some deal.itemId → record.grade = child.grade →
                Open config record deal := by
              intro record status time type item grade
              refine ⟨status.trans (not_not.mp adult), time ▸ rfl, applyType, type, item, ?_⟩
              rw [grade]
              exact dealt
            right
            split
            · refine ⟨rfl, child, _, deal, found, noTime, ?_, paid, rfl⟩
              exact opened _ rfl rfl rfl rfl rfl
            · rename_i notService
              split
              · refine ⟨rfl, child, _, deal, found, noTime, ?_, paid, rfl⟩
                exact opened _ rfl rfl rfl rfl rfl
              · rename_i notAssign
                split
                · refine ⟨rfl, child, _, deal, found, noTime, ?_, paid, rfl⟩
                  exact opened _ rfl rfl rfl rfl rfl
                · rename_i notCross
                  have routed := steady ⟨child, found, not_not.mp adult, noType, noTime, by
                    simpa using noMarry⟩ other affords
                  rcases routed with route | ⟨route, some⟩ | route
                  · exact absurd (Option.some.inj route) notService
                  · exact absurd ⟨Option.some.inj route, some⟩ notAssign
                  · exact absurd (Option.some.inj route) notCross
  · exact .inl (idle_refuses _)

theorem marry_cases {applyType : Option ℤ} {objectUuid : ρ} {objectChildId : ℕ}
    {itemId : Option ℕ} {now : ℤ} {answer : Option (Object ρ)}
    (steady : Steady config ledger
      (.marry childId applyType objectUuid objectChildId itemId now answer)) :
    Idle ledger.role (ledger.role.drivingMarriage config childId applyType objectUuid objectChildId itemId
        now answer) ∨
      (ledger.role.drivingMarriage config childId applyType objectUuid objectChildId itemId now
        answer).ok = true ∧
        ∃ child record deal, ledger.role.child childId = some child ∧ SameProposal child record ∧
          Paid config ledger.role (ledger.role.drivingMarriage config childId applyType objectUuid
            objectChildId itemId now answer).role.items childId applyType itemId deal ∧
          Writes ledger.role (ledger.role.drivingMarriage config childId applyType objectUuid
            objectChildId itemId now answer).role childId record := by
  rw [Role.drivingMarriage.eq_def]
  split
  · rename_i child applyType itemId found
    split
    · exact .inl (idle_refuses _)
    · rename_i other
      split
      · exact .inl (idle_refuses _)
      · rename_i single
        split
        · exact .inl (idle_refuses _)
        · rename_i left modified
          split
          · rename_i nobody
            obtain ⟨-, -, -, -, affords⟩ := paid_of_modifyItemNum found modified
            obtain ⟨type, same, met⟩ := steady child found (by simpa using single) other affords
            cases same
            cases nobody ▸ met
          · rename_i bride left' met
            obtain ⟨deal, -, -, paid, -⟩ := paid_of_modifyItemNum found modified
            exact .inr ⟨rfl, child, { child with marry := some bride }, deal, found,
              ⟨rfl, rfl, rfl, rfl, fun _ => rfl, fun _ => rfl⟩, paid, rfl⟩
  · exact .inl (idle_refuses _)

/-- `marriage_confirm_status` has no effect, or a married child that has no proposal is confirmed. -/
theorem confirm_cases (steady : Steady config ledger (.confirm childId)) :
    Idle ledger.role (ledger.role.marriageConfirmStatus childId) ∨
      (ledger.role.marriageConfirmStatus childId).ok = true ∧
        ∃ child record, ledger.role.child childId = some child ∧ child.applyTime = none ∧
          SameProposal child record ∧
          Writes ledger.role (ledger.role.marriageConfirmStatus childId).role childId record ∧
          (ledger.role.marriageConfirmStatus childId).role.items = ledger.role.items := by
  rw [Role.marriageConfirmStatus]
  split
  · exact .inl (idle_refuses _)
  · rename_i child found
    split
    · exact .inl (idle_refuses _)
    · rename_i married
      split
      · exact .inl (idle_refuses _)
      · rename_i adult
        have time := steady child found (not_not.mp adult) (Option.isSome_iff_ne_none.mpr married)
        refine .inr ⟨rfl, child, { child with childStatus := .married }, found, time,
          ⟨rfl, rfl, rfl, rfl, fun some => ?_, id⟩, rfl, rfl⟩
        cases time ▸ some

variable {event : Event ρ} {after : Ledger ρ}

section
variable (kept : Kept config items ledger) (taken : step config ledger event = some after)
include kept taken

theorem step_of_idle (idle : Idle ledger.role (ledger.role.apply config event)) :
    Kept config items after := by
  cases taken
  rw [idle.ok, if_neg nofun]
  exact kept_idle kept idle.items idle.child

theorem step_of_same (recorded : ledger.record config event = ledger)
    (sameItems : (ledger.role.apply config event).role.items = ledger.role.items)
    (sameChild : (ledger.role.apply config event).role.child = ledger.role.child) :
    Kept config items after := by
  cases taken
  rw [recorded, ite_self]
  exact kept_idle kept sameItems sameChild

omit kept taken in
theorem passiveCancelRequest_same (role : Role ρ) (uuid : ρ) (childId : ℕ) :
    (role.passiveCancelRequest uuid childId).role.items = role.items ∧
      (role.passiveCancelRequest uuid childId).role.child = role.child := by
  rw [Role.passiveCancelRequest]
  split
  · exact ⟨rfl, rfl⟩
  · exact ⟨rfl, rfl⟩

omit kept taken in
theorem drivingRefuseRequest_same (role : Role ρ) (uuid : ρ) (childId : ℕ) :
    (role.drivingRefuseRequest uuid childId).role.items = role.items ∧
      (role.drivingRefuseRequest uuid childId).role.child = role.child := by
  rw [Role.drivingRefuseRequest]
  split
  · exact ⟨rfl, rfl⟩
  · exact passiveCancelRequest_same role uuid childId

theorem step_of_refunded (refunded : Refunded ledger childId (ledger.role.apply config event))
    (recorded : ledger.record config event = ledger.settle childId false) :
    Kept config items after := by
  cases taken
  obtain ⟨record, deal, owed, writes, time, type, paid⟩ := refunded.back
  rw [refunded.ok, if_pos rfl, recorded]
  refine kept_settle kept owed writes time ?_ paid
  rw [type]
  exact nofun

end

theorem step_kept (kept : Kept config items ledger)
    (steady : Steady config ledger event) (taken : step config ledger event = some after) :
    Kept config items after := by
  cases event with
  | sendRequest childId applyType uuid itemId now name =>
      rcases sendRequest_cases steady with idle | ⟨ok, child, record, deal, found, time, opened, paid, writes⟩
      · exact step_of_idle kept taken idle
      · cases taken
        rw [Role.apply, ok, if_pos rfl, Ledger.record, paid.dealt]
        exact kept_open kept found time paid.owner opened writes paid.items
  | cancel childId answer =>
      rcases cancel_cases kept childId answer with idle | refunded
      · exact step_of_idle kept taken idle
      · exact step_of_refunded kept taken refunded rfl
  | refused childId =>
      rcases refused_cases kept childId with idle | refunded
      · exact step_of_idle kept taken idle
      · exact step_of_refunded kept taken refunded rfl
  | marry childId applyType objectUuid objectChildId itemId now answer =>
      rcases marry_cases steady with idle | ⟨ok, child, record, deal, found, same, paid, writes⟩
      · exact step_of_idle kept taken idle
      · cases taken
        rw [Role.apply, ok, if_pos rfl, Ledger.record, paid.dealt]
        refine kept_write kept found same writes fun itemId => ?_
        have balanced := kept.balanced itemId
        dsimp only [Option.toList_some]
        rw [paid.items, Table.read_increase, total_concat]
        split <;> omega
  | married childId object =>
      rcases married_cases kept childId object with idle | ⟨ok, record, deal, owed, writes, time, marry, paid⟩
      · exact step_of_idle kept taken idle
      · cases taken
        rw [Role.apply, ok, if_pos rfl]
        exact kept_settle kept owed writes time (fun _ => marry) paid
  | confirm childId =>
      rcases confirm_cases steady with idle | ⟨ok, child, record, found, time, same, writes, paid⟩
      · exact step_of_idle kept taken idle
      · cases taken
        have nothing : ledger.pendingOf childId = none := by
          refine List.find?_eq_none.mpr fun deal mem => ?_
          simpa using kept.pendingOf_none found time deal mem
        rw [Role.apply, ok, if_pos rfl, Ledger.record, Ledger.settle, nothing]
        refine kept_write kept found same writes fun itemId => ?_
        rw [paid]
        exact kept.balanced itemId
  | online childId requestTime now answer =>
      rcases online_cases kept childId requestTime now answer with idle | refunded
      · exact step_of_idle kept taken idle
      · exact step_of_refunded kept taken refunded rfl
  | receive object => exact step_of_same kept taken rfl rfl rfl
  | passiveCancel uuid childId =>
      obtain ⟨sameItems, sameChild⟩ := passiveCancelRequest_same ledger.role uuid childId
      exact step_of_same kept taken rfl sameItems sameChild
  | refuse uuid childId =>
      obtain ⟨sameItems, sameChild⟩ := drivingRefuseRequest_same ledger.role uuid childId
      exact step_of_same kept taken rfl sameItems sameChild
  | refuseAll => exact step_of_same kept taken rfl rfl rfl

theorem untouched_of_kept (kept : Kept config items ledger)
    (steady : Steady config ledger event) : Untouched config ledger.role event := by
  have of_idle : ∀ {outcome : Outcome ρ}, Idle ledger.role outcome ∨ outcome.ok = true →
      outcome.ok = false →
        outcome.role.items = ledger.role.items ∧ outcome.role.child = ledger.role.child := by
    rintro outcome (idle | ok) refused
    · exact ⟨idle.items, idle.child⟩
    · cases ok.symm.trans refused
  cases event with
  | sendRequest childId applyType uuid itemId now name =>
      exact of_idle ((sendRequest_cases steady).imp_right And.left)
  | cancel childId answer => exact of_idle ((cancel_cases kept childId answer).imp_right Refunded.ok)
  | refused childId => exact of_idle ((refused_cases kept childId).imp_right Refunded.ok)
  | marry childId applyType objectUuid objectChildId itemId now answer =>
      exact of_idle ((marry_cases steady).imp_right And.left)
  | married childId object => exact of_idle ((married_cases kept childId object).imp_right And.left)
  | confirm childId => exact of_idle ((confirm_cases steady).imp_right And.left)
  | online childId requestTime now answer =>
      exact of_idle ((online_cases kept childId requestTime now answer).imp_right Refunded.ok)
  | receive object => exact fun _ => ⟨rfl, rfl⟩
  | passiveCancel uuid childId => exact fun _ => passiveCancelRequest_same ledger.role uuid childId
  | refuse uuid childId => exact fun _ => drivingRefuseRequest_same ledger.role uuid childId
  | refuseAll => exact fun _ => ⟨rfl, rfl⟩

omit [DecidableEq ρ] in
theorem kept_new (config : Config) (fresh : role.Fresh) : Kept config role.items (Ledger.new role) where
  balanced := by
    intro itemId
    simp [Ledger.new, total]
  nodup := List.nodup_nil
  listed := by rintro _ ⟨⟩
  timed := by
    intro childId child found time
    cases (fresh childId child found).2 ▸ time
  typed := by
    intro childId child found type
    cases (fresh childId child found).1 ▸ type

end

/-- `MarryExpendData` of the game. -/
def marryExpendData : Config := fun grade =>
  if 1 ≤ grade ∧ grade ≤ 7 then
    some
      { consume := fun applyType =>
          if applyType = service ∨ applyType = assign then
            some [(101005, 60 * 2 ^ (grade - 1)), (301037 + grade, 1)]
          else if applyType = cross then some [(101005, 120 * 2 ^ (grade - 1)), (301037 + grade, 2)]
          else none
        diamond := 101005 }
  else none

def adultChild : Child ℕ := ⟨.woman, 1, .adult, none, none, none, none, none, none⟩

def parent : Role ℕ where
  uuid := 7
  items := (Table.empty.increase 101005 1000).increase 301038 3
  child := fun childId => if childId = 1 ∨ childId = 2 then some adultChild else none
  proposeObjectList := []
  timer := fun _ => false

def groom : Object ℕ := ⟨9, 4, .man, 1, none⟩

/-- One child's proposals are cancelled, refused and accepted; the other one accepts a proposal. -/
def steadyEvents : List (Event ℕ) :=
  [.sendRequest 1 (some service) none (some 101005) 100 none, .cancel 1 false, .cancel 1 true,
    .sendRequest 1 (some assign) (some 9) (some 301038) 200 (some "Tom"), .refused 1,
    .sendRequest 1 (some cross) none (some 101005) 300 none, .married 1 groom, .confirm 1,
    .receive groom, .marry 2 (some assign) 9 4 (some 301038) 400 none]

/-- The market does not answer an acceptance. -/
def unansweredEvents : List (Event ℕ) := [.marry 1 (some service) 9 4 (some 101005) 100 none]

end UEServer.ChildItems
