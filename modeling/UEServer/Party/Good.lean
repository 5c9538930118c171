import UEServer.Party.Basic

/-!
# The life of a party

A party that is created lasts until it ends, and it ends once, by a timer that is due when its time is
over, or earlier when it is full.
-/

namespace UEServer.Party

variable {ι γ : Type*}

/-- What is known of a party that has been created, by the ends that there were. -/
structure Lasting (config : ι → Config) (now : ℕ) (ends : List (ℕ × ℕ)) (party : ℕ × ι × ℕ)
    (cls : PartyCls ι γ) : Prop where
  partyId : cls.partyInfo.partyId = party.1
  partyTypeId : cls.partyInfo.partyTypeId = party.2.1
  startTime : cls.partyInfo.startTime = party.2.2
  guests : cls.partyInfo.guestsList.length ≤ (config party.2.1).guestsMaxNum
  ended : party.1 ∈ ends.map Prod.fst → cls.partyInfo.endType.isSome = true
  /-- It has not, and its timer runs for the time that is left, or for less if it is full. -/
  running : party.1 ∉ ends.map Prod.fst → cls.partyInfo.endType = none ∧
    ∃ due, cls.timer = some due ∧ now ≤ due ∧ due ≤ party.2.2 + (config party.2.1).time ∧
      (due = party.2.2 + (config party.2.1).time ∨
        (config party.2.1).guestsMaxNum ≤ cls.partyInfo.guestsList.length)

/-- No two parties have one number, no party ends twice, and while the server runs every party is there
until it ends, in time; so is every party that is stored. -/
structure Good (config : ι → Config) (state : State ι γ) : Prop where
  distinct : (state.created.map Prod.fst).Nodup
  next : state.up = true → ∀ party ∈ state.created, party.1 < state.partyId
  once : (state.ends.map Prod.fst).Nodup
  lasting : state.up = true → ∀ party ∈ state.created,
    ∃ cls, state.partyClsDict.get party.1 = some cls ∧
      Lasting config state.now state.ends party cls
  stored : state.up = true → ∀ id, state.rows.get id ≠ none → state.partyClsDict.get id ≠ none

structure Row (config : ι → Config) (ends : List (ℕ × ℕ)) (party : ℕ × ι × ℕ)
    (partyInfo : PartyInfo ι γ) : Prop where
  partyId : partyInfo.partyId = party.1
  partyTypeId : partyInfo.partyTypeId = party.2.1
  startTime : partyInfo.startTime = party.2.2
  guests : partyInfo.guestsList.length ≤ (config party.2.1).guestsMaxNum
  ended : partyInfo.endType ≠ none → party.1 ∈ ends.map Prod.fst

/-- A party that waits for the database. -/
structure New (created : List (ℕ × ι × ℕ)) (next now : ℕ) (partyInfo : PartyInfo ι γ) : Prop where
  positive : 1 ≤ partyInfo.partyId
  next : partyInfo.partyId < next
  fresh : partyInfo.partyId ∉ created.map Prod.fst
  startTime : partyInfo.startTime ≤ now
  endType : partyInfo.endType = none
  guests : partyInfo.guestsList = []

/-- What else holds, as long as the parties last. -/
structure Inv (config : ι → Config) (state : State ι γ) : Prop where
  positive : 1 ≤ state.partyId ∧ 1 ≤ state.savedPartyId ∧ ∀ party ∈ state.created, 1 ≤ party.1
  startTime : ∀ party ∈ state.created, party.2.2 ≤ state.now
  known : ∀ id cls, state.partyClsDict.get id = some cls → id ∈ state.created.map Prod.fst
  cached : ∀ id cached, state.dbLru id = some cached →
    cached = .live ∧ state.partyClsDict.get id ≠ none
  replaced : ∀ id, state.replaced.get id = none
  creating : ∀ partyInfo ∈ state.creating, New state.created state.partyId state.now partyInfo
  creating_nodup : (state.creating.map PartyInfo.partyId).Nodup
  ends : ∀ id ∈ state.ends.map Prod.fst, id ∈ state.created.map Prod.fst
  rows : ∀ id partyInfo, state.rows.get id = some partyInfo →
    ∃ party ∈ state.created, party.1 = id ∧ Row config state.ends party partyInfo
  down : state.up = false → (∀ id, state.partyClsDict.get id = none) ∧
    (∀ id, state.dbLru id = none) ∧ state.creating = []

/-- The timer of a party that becomes full is not due after its time; and the server starts when every
party is stored, with its end, no number below it is missing, and its number is below the saved one. -/
def Permitted (config : ι → Config) (cd : ℕ) (state : State ι γ) : Label ι γ → Prop
  | .addGuests id _ => ∀ cls ∈ state.partyClsDict.get id, cls.partyInfo.endType = none →
      cls.partyInfo.guestsList.length < (config cls.partyInfo.partyTypeId).guestsMaxNum →
        State.shortens cd (config cls.partyInfo.partyTypeId) state.now cls.partyInfo →
          state.now + cd ≤
            cls.partyInfo.startTime + (config cls.partyInfo.partyTypeId).time
  | .start => ∀ party ∈ state.created, party.1 < state.savedPartyId ∧
      (∀ id ∈ List.range' 1 party.1, (state.rows.get id).isSome) ∧
        ∀ row ∈ state.rows.get party.1, row.endType = none → party.1 ∉ state.ends.map Prod.fst
  | _ => True

instance (config : ι → Config) (cd : ℕ) (state : State ι γ) :
    (label : Label ι γ) → Decidable (Permitted config cd state label)
  | .addGuests id _ => inferInstanceAs (Decidable
      (∀ cls ∈ state.partyClsDict.get id, cls.partyInfo.endType = none →
        cls.partyInfo.guestsList.length < (config cls.partyInfo.partyTypeId).guestsMaxNum →
          State.shortens cd (config cls.partyInfo.partyTypeId) state.now cls.partyInfo →
            state.now + cd ≤
              cls.partyInfo.startTime + (config cls.partyInfo.partyTypeId).time))
  | .start => inferInstanceAs (Decidable
      (∀ party ∈ state.created, party.1 < state.savedPartyId ∧
        (∀ id ∈ List.range' 1 party.1, (state.rows.get id).isSome) ∧
          ∀ row ∈ state.rows.get party.1, row.endType = none →
            party.1 ∉ state.ends.map Prod.fst))
  | .stop | .addParty _ | .loaded _ | .partyEnd _ _ | .receiveIntegral _ | .gamesScore _ _ _
  | .timer _ | .replacedTimer _ | .save _ | .evict _ | .saveParty | .tick => isTrue trivial

section
variable {config : ι → Config} {state : State ι γ}

theorem Inv.up {id : ℕ} {cls : PartyCls ι γ} (inv : Inv config state)
    (found : state.partyClsDict.get id = some cls) : state.up = true := by
  by_contra down
  rw [(inv.down (Bool.eq_false_iff.mpr down)).1 id] at found
  cases found

theorem lasting_of_get {id : ℕ} {cls : PartyCls ι γ} (inv : Inv config state)
    (good : Good config state) (found : state.partyClsDict.get id = some cls) :
    ∃ party ∈ state.created, party.1 = id ∧ Lasting config state.now state.ends party cls := by
  obtain ⟨party, mem, rfl⟩ := List.mem_map.mp (inv.known id cls found)
  obtain ⟨other, same, lasting⟩ := good.lasting (inv.up found) party mem
  cases same.symm.trans found
  exact ⟨party, mem, rfl, lasting⟩

theorem Good.unique (good : Good config state) {party other : ℕ × ι × ℕ}
    (mem : party ∈ state.created) (other_mem : other ∈ state.created) (same : party.1 = other.1) :
    party = other :=
  List.inj_on_of_nodup_map good.distinct mem other_mem same

variable (state) in
theorem put_spec {id : ℕ} {cls after : PartyCls ι γ} {dict : Table ℕ (PartyCls ι γ)}
    {dbLru : ℕ → Option (Cached ι γ)} {ends : List (ℕ × ℕ)} (saveLru : ℕ → Option Op)
    (inv : Inv config state) (good : Good config state)
    (found : state.partyClsDict.get id = some cls)
    (put : ∀ other, dict.get other = if other = id then some after else state.partyClsDict.get other)
    (cached : ∀ other cached, dbLru other = some cached →
      cached = .live ∧ other = id ∨ state.dbLru other = some cached)
    (ending : ends = state.ends ∨
      ends = state.ends ++ [(id, state.now)] ∧ id ∉ state.ends.map Prod.fst)
    (lasting : ∀ party ∈ state.created, party.1 = id →
      Lasting config state.now state.ends party cls → Lasting config state.now ends party after) :
    Inv config { state with partyClsDict := dict, dbLru := dbLru, saveLru := saveLru, ends := ends } ∧
      Good config
        { state with partyClsDict := dict, dbLru := dbLru, saveLru := saveLru, ends := ends } := by
  have up := inv.up found
  have known := inv.known id cls found
  have old_ends : ∀ other, other ∈ state.ends.map Prod.fst → other ∈ ends.map Prod.fst := by
    rintro other mem
    rcases ending with rfl | ⟨rfl, -⟩
    · exact mem
    · rw [List.map_append]
      exact List.mem_append_left _ mem
  have new_ends : ∀ other, other ∈ ends.map Prod.fst →
      other ∈ state.ends.map Prod.fst ∨ other = id := by
    rintro other mem
    rcases ending with rfl | ⟨rfl, -⟩
    · exact .inl mem
    · rw [List.map_append, List.mem_append] at mem
      exact mem.imp_right List.mem_singleton.mp
  have present : ∀ other, state.partyClsDict.get other ≠ none → dict.get other ≠ none := by
    intro other there
    rw [put]
    split
    · exact Option.some_ne_none _
    · exact there
  constructor
  · refine ⟨inv.positive, inv.startTime, fun other other_cls other_found => ?_, ?_, inv.replaced,
      inv.creating, inv.creating_nodup, fun other mem => ?_, fun other row row_found => ?_,
      fun down => ?_⟩
    · rw [put] at other_found
      split at other_found
      · next same => exact same ▸ known
      · exact inv.known other other_cls other_found
    · intro other found_cached other_cached
      rcases cached other found_cached other_cached with ⟨live, rfl⟩ | old
      · refine ⟨live, ?_⟩
        rw [put, if_pos rfl]
        exact Option.some_ne_none _
      · exact ⟨(inv.cached other found_cached old).1,
          present other (inv.cached other found_cached old).2⟩
    · rcases new_ends other mem with old | rfl
      · exact inv.ends other old
      · exact known
    · obtain ⟨party, mem, same, row⟩ := inv.rows other row row_found
      exact ⟨party, mem, same, row.partyId, row.partyTypeId, row.startTime, row.guests,
        fun ended => old_ends _ (row.ended ended)⟩
    · exact absurd (up.symm.trans down) (by decide)
  · refine ⟨good.distinct, good.next, ?_, fun _ party mem => ?_, fun _ other there => ?_⟩
    · rcases ending with rfl | ⟨rfl, fresh⟩
      · exact good.once
      · rw [List.map_append]
        refine List.nodup_append.mpr ⟨good.once, List.nodup_singleton _, ?_⟩
        rintro other old _ new rfl
        obtain rfl := List.mem_singleton.mp new
        exact fresh old
    · obtain ⟨other_cls, other_found, old⟩ := good.lasting up party mem
      by_cases same : party.1 = id
      · refine ⟨after, by rw [put, if_pos same], ?_⟩
        rw [same, found] at other_found
        obtain rfl := Option.some.inj other_found
        exact lasting party mem same old
      · refine ⟨other_cls, by rw [put, if_neg same]; exact other_found, ?_⟩
        refine ⟨old.partyId, old.partyTypeId, old.startTime, old.guests, fun ended => ?_,
          fun running => old.running fun ended => running (old_ends _ ended)⟩
        exact old.ended ((new_ends _ ended).resolve_right same)
    · exact present other (good.stored up other there)

end
end UEServer.Party
