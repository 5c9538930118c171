import UEServer.Child.Market

/-!
# The market follows what is stored

A proposal that is added goes to its place, and one that is deleted leaves the list; both keep the lists
right unless a child is added again where it does not fit, or the length that Lua gives for the proposals
of a role is 0 while there are some.
-/

namespace UEServer.ChildMarket

open ChildMarry (Sex)
open Execution

section
variable {ρ : Type*} {a b c : Object ρ}

theorem cmp_eq_true : cmp a b = true ↔
    b.attrValue < a.attrValue ∨ a.attrValue = b.attrValue ∧ a.applyTime < b.applyTime := by
  rw [cmp]
  split
  · rename_i same
    simp [same]
  · rename_i different
    simp [different]

theorem cmp_eq_false : cmp a b = false ↔
    a.attrValue < b.attrValue ∨ a.attrValue = b.attrValue ∧ b.applyTime ≤ a.applyTime := by
  rw [← Bool.not_eq_true, cmp_eq_true, not_or, not_lt, not_and, not_lt]
  constructor
  · rintro ⟨le, later⟩
    rcases lt_or_eq_of_le le with less | same
    · exact .inl less
    · exact .inr ⟨same, later same⟩
  · rintro (less | ⟨same, later⟩)
    · exact ⟨less.le, fun same => absurd same less.ne⟩
    · exact ⟨same.le, fun _ => later⟩

theorem cmp_asymm (before : cmp a b = true) : cmp b a = false := by
  rw [cmp_eq_false]
  rcases cmp_eq_true.mp before with less | ⟨same, earlier⟩
  · exact .inl less
  · exact .inr ⟨same.symm, earlier.le⟩

theorem cmp_trans (first : cmp b a = false) (second : cmp c b = false) : cmp c a = false := by
  rw [cmp_eq_false] at first second ⊢
  rcases first with less | ⟨same, later⟩
  · rcases second with less' | ⟨same', -⟩
    · exact .inl (less'.trans less)
    · exact .inl (same' ▸ less)
  · rcases second with less' | ⟨same', later'⟩
    · exact .inl (same ▸ less')
    · exact .inr ⟨same'.trans same, later.trans later'⟩

theorem sorted_sort [DecidableEq ρ] (entries : List (Object ρ)) : Bisect.Sorted cmp (sort entries) := by
  have total : Std.Total fun a b : Object ρ => cmp b a = false := ⟨fun a b => by
    rcases Bool.eq_false_or_eq_true (cmp b a) with before | after
    · exact .inr (cmp_asymm before)
    · exact .inl after⟩
  have trans : IsTrans (Object ρ) fun a b => cmp b a = false := ⟨fun _ _ _ first second =>
    cmp_trans first second⟩
  exact List.pairwise_insertionSort (fun a b : Object ρ => cmp b a = false) entries

variable [DecidableEq ρ] {market next : Market ρ} {object : Object ρ} {signList : List (Object ρ)}

omit [DecidableEq ρ] in
theorem signList_setSignList (market : Market ρ) (sex kind : Sex) (grade other : ℕ)
    (signList : List (Object ρ)) :
    (market.setSignList sex grade signList).signList kind other =
      if kind = sex ∧ other = grade then signList else market.signList kind other := by
  rw [Market.signList, Market.getSignList, Market.setSignList]
  dsimp only
  by_cases here : other = grade
  · by_cases same : kind = sex
    · simp [here, same]
    · simp [here, same]
  · simp [here, Market.signList, Market.getSignList]

theorem getObjectInfo_addObject (market : Market ρ) (object : Object ρ) (uuid : ρ) (childId : ℕ) :
    (market.addObject object).getObjectInfo uuid childId =
      if (uuid, childId) = object.key then some object.valued else market.getObjectInfo uuid childId := by
  have stored : (market.addObject object).propose = market.propose.set object.uuid
      (some (((market.propose.get object.uuid).getD Table.empty).set object.childId (some object.valued))) :=
    rfl
  rw [Market.getObjectInfo, stored, Table.get_set]
  by_cases here : uuid = object.uuid
  · subst here
    rw [if_pos rfl, Option.bind_some, Table.get_set]
    by_cases same : childId = object.childId
    · subst same
      rw [if_pos rfl]
      exact (if_pos rfl).symm
    · rw [if_neg same, if_neg fun eq : (object.uuid, childId) = object.key => same (congrArg Prod.snd eq),
        Market.getObjectInfo]
      cases market.propose.get object.uuid with
      | none => rfl
      | some info => rfl
  · rw [if_neg here, if_neg fun eq : (uuid, childId) = object.key => here (congrArg Prod.fst eq),
      Market.getObjectInfo]

omit [DecidableEq ρ] in
theorem key_eq_iff {other : Object ρ} :
    (other.uuid = object.uuid ∧ other.childId = object.childId) ↔ other.key = object.key := by
  rw [Object.key, Object.key, Prod.mk.injEq]

theorem findSignIndex_none : findSignIndex signList object = none ↔
    ∀ other ∈ signList, other.key ≠ object.key := by
  rw [findSignIndex, List.findIdx?_eq_none_iff]
  simp only [key_eq_iff, decide_eq_false_iff_not, ne_eq]

/-- The list around the entry of a child. -/
structure Found (signList : List (Object ρ)) (object : Object ρ) (index : ℕ)
    (front : List (Object ρ)) (old : Object ρ) (back : List (Object ρ)) : Prop where
  list : signList = front ++ old :: back
  index : index = front.length
  key : old.key = object.key
  first : ∀ other ∈ front, other.key ≠ object.key

theorem findSignIndex_some {index : ℕ} (found : findSignIndex signList object = some index) :
    ∃ front old back, Found signList object index front old back := by
  rw [findSignIndex, List.findIdx?_eq_some_iff_getElem] at found
  obtain ⟨inside, key, earlier⟩ := found
  refine ⟨signList.take index, signList[index], signList.drop (index + 1), ?_, ?_, ?_, ?_⟩
  · rw [← List.drop_eq_getElem_cons inside, List.take_append_drop]
  · rw [List.length_take, Nat.min_eq_left inside.le]
  · exact key_eq_iff.mp (of_decide_eq_true key)
  · intro other mem same
    obtain ⟨i, less, rfl⟩ := List.mem_take_iff_getElem.mp mem
    have before := earlier i (by omega)
    exact before (decide_eq_true (key_eq_iff.mpr same))

variable {front back : List (Object ρ)}

section
variable {index : ℕ} {old : Object ρ} (found : Found signList object index front old back)
include found

omit [DecidableEq ρ] in
theorem Found.set (value : Object ρ) : signList.set index value = front ++ value :: back := by
  rw [found.list, found.index]
  simp

omit [DecidableEq ρ] in
theorem Found.eraseIdx : signList.eraseIdx index = front ++ back := by
  rw [found.list, found.index, List.eraseIdx_append_of_length_le (Nat.le_refl _), Nat.sub_self,
    List.eraseIdx_cons_zero]

theorem Found.fits_iff (sorted : Bisect.Sorted cmp signList) :
    Fits signList object ↔ Bisect.Sorted cmp (front ++ object :: back) := by
  have take : signList.takeWhile (fun other => other.key ≠ object.key) = front := by
    rw [found.list, List.takeWhile_append_of_pos (by simpa using found.first),
      List.takeWhile_cons_of_neg (by simpa using found.key), List.append_nil]
  have drop : signList.dropWhile (fun other => other.key ≠ object.key) = old :: back := by
    rw [found.list, List.dropWhile_append_of_pos (by simpa using found.first),
      List.dropWhile_cons_of_neg (by simpa using found.key)]
  rw [found.list] at sorted
  obtain ⟨sortedFront, sortedRest, across⟩ := List.pairwise_append.mp sorted
  rw [Fits, take, drop, List.tail_cons]
  constructor
  · rintro ⟨low, high⟩
    refine List.pairwise_append.mpr ⟨sortedFront, List.pairwise_cons.mpr
      ⟨high, (List.pairwise_cons.mp sortedRest).2⟩, fun first mem second mem' => ?_⟩
    rcases List.mem_cons.mp mem' with rfl | mem'
    · exact low first mem
    · exact across first mem second (List.mem_cons_of_mem _ mem')
  · intro sorted'
    obtain ⟨-, rest, across'⟩ := List.pairwise_append.mp sorted'
    exact ⟨fun other mem => across' other mem object List.mem_cons_self, (List.pairwise_cons.mp rest).1⟩

end

theorem mem_objects : object ∈ market.objects ↔
    ∃ uuid childId, market.getObjectInfo uuid childId = some object := by
  rw [Market.objects, List.mem_flatMap]
  constructor
  · rintro ⟨uuid, -, mem⟩
    cases stored : market.propose.get uuid with
    | none =>
        rw [stored] at mem
        exact absurd mem List.not_mem_nil
    | some info =>
        rw [stored] at mem
        obtain ⟨childId, -, found⟩ := List.mem_filterMap.mp mem
        exact ⟨uuid, childId, Option.bind_eq_some_iff.mpr ⟨info, stored, found⟩⟩
  · rintro ⟨uuid, childId, found⟩
    obtain ⟨info, stored, found⟩ := Option.bind_eq_some_iff.mp found
    refine ⟨uuid, (Table.mem_keys _ _).mpr (by rw [stored]; exact nofun), ?_⟩
    rw [stored]
    exact List.mem_filterMap.mpr ⟨childId, (Table.mem_keys _ _).mpr (by rw [found]; exact nofun), found⟩

theorem Keyed.mem_objects (keyed : Keyed market) : object ∈ market.objects ↔
    market.getObjectInfo object.uuid object.childId = some object := by
  rw [ChildMarket.mem_objects]
  constructor
  · rintro ⟨uuid, childId, found⟩
    cases keyed uuid childId object found
    exact found
  · exact fun found => ⟨_, _, found⟩

theorem Keyed.nodup_objects (keyed : Keyed market) : (market.objects.map Object.key).Nodup := by
  have keys : ∀ uuid, ((((market.propose.get uuid).map fun info =>
      info.keys.filterMap info.get).getD []).map Object.key) =
      ((market.propose.get uuid).map fun info => info.keys.map (uuid, ·)).getD [] := by
    intro uuid
    cases stored : market.propose.get uuid with
    | none => rfl
    | some info =>
        have each : ∀ ids : List ℕ, (∀ id ∈ ids, id ∈ info.keys) →
            (ids.filterMap info.get).map Object.key = ids.map (uuid, ·) := by
          intro ids known
          induction ids with
          | nil => rfl
          | cons id ids ih =>
              have mem := (Table.mem_keys _ _).mp (known id List.mem_cons_self)
              obtain ⟨object, found⟩ := Option.ne_none_iff_exists'.mp mem
              have key := keyed uuid id object (Option.bind_eq_some_iff.mpr ⟨info, stored, found⟩)
              rw [List.filterMap_cons_some found, List.map_cons, List.map_cons, key,
                ih fun other mem => known other (List.mem_cons_of_mem _ mem)]
        exact each info.keys fun _ mem => mem
  rw [Market.objects, List.map_flatMap]
  simp only [keys]
  rw [List.nodup_flatMap]
  constructor
  · intro uuid _
    cases market.propose.get uuid with
    | none => exact List.nodup_nil
    | some info => exact info.keys_nodup.map fun _ _ same => congrArg Prod.snd same
  · refine (market.propose.keys_nodup).imp fun {first second} ne => ?_
    intro key mem mem'
    have fst : ∀ uuid, key ∈ ((market.propose.get uuid).map fun info =>
        info.keys.map (uuid, ·)).getD [] → key.1 = uuid := by
      intro uuid mem
      cases stored : market.propose.get uuid with
      | none =>
          rw [stored] at mem
          exact absurd mem List.not_mem_nil
      | some info =>
          rw [stored] at mem
          obtain ⟨id, -, rfl⟩ := List.mem_map.mp mem
          rfl
    exact ne ((fst first mem).symm.trans (fst second mem'))

omit [DecidableEq ρ] in
theorem signList_reset (propose : Table ρ (Table ℕ (Object ρ))) (entries : List (Object ρ)) (sex : Sex)
    (grade : ℕ) :
    (Market.mk propose (resetSignDict entries)).signList sex grade = sort (ofKind entries sex grade) := by
  dsimp only [Market.signList, Market.getSignList, resetSignDict]
  split
  · rfl
  · rename_i nobody
    have empty : ofKind entries sex grade = [] := by
      refine List.filter_eq_nil_iff.mpr fun object mem kind => nobody ?_
      exact List.any_eq_true.mpr ⟨object, mem, decide_eq_true (of_decide_eq_true kind).1⟩
    rw [empty]
    rfl

theorem good_reset (keyed : Keyed market) {entries : List (Object ρ)}
    (walked : entries.Perm market.objects) : Good { market with signDict := resetSignDict entries } := by
  intro sex grade
  rw [signList_reset]
  have perm : (sort (ofKind entries sex grade)).Perm (ofKind entries sex grade) :=
    List.perm_insertionSort _ _
  refine ⟨fun object => ?_, ?_, sorted_sort _⟩
  · have stored : ({ market with signDict := resetSignDict entries } : Market ρ).getObjectInfo
        object.uuid object.childId = market.getObjectInfo object.uuid object.childId := rfl
    rw [perm.mem_iff, ofKind, List.mem_filter, walked.mem_iff, keyed.mem_objects, stored,
      decide_eq_true_eq]
  · have nodup := ((walked.map Object.key).nodup_iff).mpr keyed.nodup_objects
    refine ((perm.map Object.key).nodup_iff).mpr (nodup.sublist ?_)
    exact List.filter_sublist.map _

theorem signList_addObject (market : Market ρ) (object : Object ρ) (sex : Sex) (grade : ℕ) :
    (market.addObject object).signList sex grade =
      if sex = object.sex ∧ grade = object.grade then
        signAdd (market.signList object.sex object.grade) object.valued
      else market.signList sex grade :=
  signList_setSignList market object.sex sex object.grade grade _

theorem Keyed.addObject (keyed : Keyed market) (object : Object ρ) : Keyed (market.addObject object) := by
  intro uuid childId other found
  rw [getObjectInfo_addObject] at found
  split at found
  · rename_i here
    cases found
    exact here.symm
  · exact keyed uuid childId other found

theorem listed_signAdd (good : Good market) (steady : Steady market (.add object)) :
    Listed (market.addObject object) object.sex object.grade
      (signAdd (market.signList object.sex object.grade) object.valued) := by
  have listed := good object.sex object.grade
  have stored : ∀ other : Object ρ, (market.addObject object).getObjectInfo other.uuid other.childId =
      if other.key = object.key then some object.valued
      else market.getObjectInfo other.uuid other.childId :=
    fun other => getObjectInfo_addObject market object other.uuid other.childId
  unfold signAdd
  cases index : findSignIndex (market.signList object.sex object.grade) object.valued with
  | none =>
      have absent := findSignIndex_none.mp index
      have perm := @Bisect.insert_perm _ cmp (market.signList object.sex object.grade) object.valued
      have sorted := @Bisect.sorted_insert _ cmp (fun _ _ => cmp_asymm) (fun _ _ _ => cmp_trans) _
        listed.sorted object.valued
      refine ⟨fun other => ?_, ?_, sorted⟩
      · rw [perm.mem_iff, List.mem_cons, stored]
        by_cases same : other.key = object.key
        · rw [if_pos same]
          constructor
          · rintro (rfl | mem)
            · exact ⟨rfl, rfl, rfl⟩
            · exact absurd same (absent other mem)
          · rintro ⟨found, -⟩
            exact .inl (Option.some.inj found).symm
        · rw [if_neg same, ← listed.stored other]
          refine or_iff_right ?_
          rintro rfl
          exact same rfl
      · rw [(perm.map Object.key).nodup_iff, List.map_cons, List.nodup_cons]
        refine ⟨fun mem => ?_, listed.once⟩
        obtain ⟨other, mem, same⟩ := List.mem_map.mp mem
        exact absent other mem same
  | some index =>
      obtain ⟨front, old, back, found⟩ := findSignIndex_some index
      have old_mem : old ∈ market.signList object.sex object.grade := by
        rw [found.list]
        simp
      obtain ⟨old_stored, -⟩ := (listed.stored old).mp old_mem
      have here : market.getObjectInfo object.uuid object.childId = some old := by
        obtain ⟨uuid, childId⟩ := key_eq_iff.mpr found.key
        exact uuid ▸ childId ▸ old_stored
      obtain ⟨-, -, fits⟩ := steady old here
      have keys : (front ++ object.valued :: back).map Object.key =
          (market.signList object.sex object.grade).map Object.key := by
        rw [found.list, List.map_append, List.map_append, List.map_cons, List.map_cons, found.key]
      dsimp only
      rw [found.set]
      have once := listed.once
      have members := listed.stored
      rw [found.list] at once members
      refine ⟨fun other => ?_, ?_, (found.fits_iff listed.sorted).mp fits⟩
      · have member := members other
        rw [List.map_append, List.map_cons, List.nodup_append, List.nodup_cons] at once
        rw [stored]
        simp only [List.mem_append, List.mem_cons] at member ⊢
        by_cases same : other.key = object.key
        · rw [if_pos same]
          constructor
          · rintro (mem | rfl | mem)
            · exact absurd same (found.first other mem)
            · exact ⟨rfl, rfl, rfl⟩
            · exact absurd (List.mem_map_of_mem mem) (same.trans found.key.symm ▸ once.2.1.1)
          · rintro ⟨found, -⟩
            exact .inr (.inl (Option.some.inj found).symm)
        · rw [if_neg same, ← member]
          have ne : other ≠ old := by
            rintro rfl
            exact same found.key
          have ne' : other ≠ object.valued := by
            rintro rfl
            exact same rfl
          simp only [ne, ne']
      · rw [keys]
        exact listed.once

theorem good_add (good : Good market) (steady : Steady market (.add object)) :
    Good (market.addObject object) := by
  intro sex grade
  rw [signList_addObject]
  split
  · rename_i here
    obtain ⟨rfl, rfl⟩ := here
    exact listed_signAdd good steady
  · rename_i elsewhere
    have listed := good sex grade
    refine ⟨fun other => ?_, listed.once, listed.sorted⟩
    have stored : (market.addObject object).getObjectInfo other.uuid other.childId =
        if other.key = object.key then some object.valued
        else market.getObjectInfo other.uuid other.childId :=
      getObjectInfo_addObject market object other.uuid other.childId
    rw [listed.stored, stored]
    by_cases same : other.key = object.key
    · rw [if_pos same]
      constructor
      · rintro ⟨found, rfl, rfl⟩
        obtain ⟨uuid, childId⟩ := key_eq_iff.mpr same
        rw [uuid, childId] at found
        obtain ⟨sex, grade, -⟩ := steady other found
        exact absurd ⟨sex, grade⟩ elsewhere
      · rintro ⟨found, rfl, rfl⟩
        cases found
        exact absurd ⟨rfl, rfl⟩ elsewhere
    · rw [if_neg same]

/-- A child that is added again with another kind, or where it does not fit, makes a list wrong. -/
theorem steady_of_good_add (keyed : Keyed market) (good : Good market)
    (good' : Good (market.addObject object)) : Steady market (.add object) := by
  intro old stored
  obtain ⟨uuid, childId⟩ := key_eq_iff.mpr (keyed _ _ old stored)
  have listed : old ∈ market.signList old.sex old.grade := by
    refine ((good old.sex old.grade).stored old).mpr ⟨?_, rfl, rfl⟩
    rw [uuid, childId]
    exact stored
  have kind : old.sex = object.sex ∧ old.grade = object.grade := by
    by_contra different
    have listed' : old ∈ (market.addObject object).signList old.sex old.grade := by
      rw [signList_addObject, if_neg different]
      exact listed
    obtain ⟨stored', -⟩ := ((good' old.sex old.grade).stored old).mp listed'
    rw [getObjectInfo_addObject,
      if_pos (show (old.uuid, old.childId) = object.key from congrArg₂ Prod.mk uuid childId)] at stored'
    cases stored'
    exact different ⟨rfl, rfl⟩
  obtain ⟨sex, grade⟩ := kind
  refine ⟨sex, grade, ?_⟩
  rw [sex, grade] at listed
  have sorted' := (good' object.sex object.grade).sorted
  rw [signList_addObject, if_pos ⟨rfl, rfl⟩, signAdd.eq_def] at sorted'
  cases index : findSignIndex (market.signList object.sex object.grade) object.valued with
  | none => exact absurd (key_eq_iff.mp ⟨uuid, childId⟩) (findSignIndex_none.mp index old listed)
  | some index' =>
      obtain ⟨front, former, back, found⟩ := findSignIndex_some index
      rw [index] at sorted'
      dsimp only at sorted'
      rw [found.set] at sorted'
      exact (found.fits_iff (good object.sex object.grade).sorted).mpr sorted'

section
variable {uuid : ρ} {childId border index : ℕ} {info : Table ℕ (Object ρ)}

section
variable (role : market.propose.get uuid = some info) (child : info.get childId = some object)
include role child

theorem deleteObject_eq
    (found : findSignIndex (market.signList object.sex object.grade) object = some index) :
    market.deleteObject uuid childId border =
      { market.setSignList object.sex object.grade
          ((market.signList object.sex object.grade).eraseIdx index) with
        propose := market.propose.set uuid
          (if border = 0 then none else some (info.set childId none)) } := by
  rw [Market.deleteObject, role]
  dsimp only
  rw [child]
  dsimp only
  rw [found]

omit role child in
theorem deleteObject_of_none (absent : market.getObjectInfo uuid childId = none) :
    market.deleteObject uuid childId border = market := by
  rw [Market.deleteObject.eq_def]
  cases role : market.propose.get uuid with
  | none => rfl
  | some info =>
      rw [Market.getObjectInfo, role, Option.bind_some] at absent
      dsimp only
      rw [absent]

theorem signList_deleteObject
    (found : findSignIndex (market.signList object.sex object.grade) object = some index)
    (sex : Sex) (grade : ℕ) :
    (market.deleteObject uuid childId border).signList sex grade =
      if sex = object.sex ∧ grade = object.grade then
        (market.signList object.sex object.grade).eraseIdx index
      else market.signList sex grade := by
  rw [deleteObject_eq role child found]
  exact signList_setSignList market object.sex sex object.grade grade _

theorem getObjectInfo_deleteObject
    (found : findSignIndex (market.signList object.sex object.grade) object = some index)
    (other : ρ) (otherId : ℕ) :
    (market.deleteObject uuid childId border).getObjectInfo other otherId =
      if other = uuid ∧ (border = 0 ∨ otherId = childId) then none
      else market.getObjectInfo other otherId := by
  rw [deleteObject_eq role child found, Market.getObjectInfo, Market.getObjectInfo]
  rw [Table.get_set]
  by_cases here : other = uuid
  · subst here
    rw [if_pos rfl, role]
    by_cases nothing : border = 0
    · rw [if_pos nothing, if_pos ⟨rfl, .inl nothing⟩, Option.bind_none]
    · rw [if_neg nothing, Option.bind_some, Option.bind_some, Table.get_set]
      by_cases same : otherId = childId
      · rw [if_pos same, if_pos ⟨rfl, .inr same⟩]
      · rw [if_neg same, if_neg fun both => same (both.2.resolve_left nothing)]
  · rw [if_neg here, if_neg fun both => here both.1]

end

section
variable (keyed : Keyed market) (good : Good market)
include keyed good

theorem Good.found (stored : market.getObjectInfo uuid childId = some object) :
    ∃ index front back,
      findSignIndex (market.signList object.sex object.grade) object = some index ∧
        Found (market.signList object.sex object.grade) object index front object back := by
  cases keyed uuid childId object stored
  have mem := ((good object.sex object.grade).stored object).mpr ⟨stored, rfl, rfl⟩
  cases index : findSignIndex (market.signList object.sex object.grade) object with
  | none => exact absurd rfl (findSignIndex_none.mp index object mem)
  | some index' =>
      obtain ⟨front, old, back, found⟩ := findSignIndex_some index
      obtain ⟨uuid, childId⟩ := key_eq_iff.mpr found.key
      have listed : old ∈ market.signList object.sex object.grade := by
        rw [found.list]
        exact List.mem_append_right _ List.mem_cons_self
      obtain ⟨stored', -⟩ := ((good object.sex object.grade).stored old).mp listed
      rw [uuid, childId, stored] at stored'
      cases stored'
      exact ⟨index', front, back, rfl, found⟩

theorem Keyed.deleteObject (uuid : ρ) (childId border : ℕ) :
    Keyed (market.deleteObject uuid childId border) := by
  intro other otherId object found
  cases stored : market.getObjectInfo uuid childId with
  | none =>
      rw [deleteObject_of_none stored] at found
      exact keyed other otherId object found
  | some old =>
      obtain ⟨index, -, -, position, -⟩ := Good.found keyed good stored
      obtain ⟨info, role, child⟩ := Option.bind_eq_some_iff.mp stored
      rw [getObjectInfo_deleteObject role child position] at found
      split at found
      · cases found
      · exact keyed other otherId object found

theorem good_delete (steady : Steady market (.delete uuid childId border)) :
    Good (market.deleteObject uuid childId border) := by
  cases stored : market.getObjectInfo uuid childId with
  | none =>
      rw [deleteObject_of_none stored]
      exact good
  | some old =>
      obtain ⟨index, front, back, position, found⟩ := Good.found keyed good stored
      obtain ⟨info, role, child⟩ := Option.bind_eq_some_iff.mp stored
      have key := keyed uuid childId old stored
      -- Nothing but the proposal that is deleted is no longer stored.
      have stored' : ∀ other : Object ρ,
          (market.deleteObject uuid childId border).getObjectInfo other.uuid other.childId =
            if other.key = old.key then none else market.getObjectInfo other.uuid other.childId := by
        intro other
        rw [getObjectInfo_deleteObject role child position, key]
        by_cases same : other.key = (uuid, childId)
        · obtain ⟨here, here'⟩ := Prod.mk.inj same
          rw [if_pos same, if_pos ⟨here, .inr here'⟩]
        · split
          · rename_i gone
            obtain ⟨here, nothing | here'⟩ := gone
            · have empty := steady info role (by rw [child]; rfl) nothing
              rw [Market.getObjectInfo, here, role, Option.bind_some]
              by_contra known
              have different : other.childId ≠ childId := fun here' => same (congrArg₂ Prod.mk here here')
              have mem := (Table.mem_keys (info.set childId none) other.childId).mpr (by
                rw [Table.get_set, if_neg different]
                exact fun gone => known gone.symm)
              rw [empty] at mem
              exact List.not_mem_nil mem
            · exact absurd (congrArg₂ Prod.mk here here') same
          · rfl
      intro sex grade
      rw [signList_deleteObject role child position]
      split
      · rename_i here
        obtain ⟨rfl, rfl⟩ := here
        have listed := good old.sex old.grade
        rw [found.eraseIdx]
        have sublist : (front ++ back).Sublist (market.signList old.sex old.grade) := by
          rw [found.list]
          exact (List.sublist_cons_self _ _).append_left _
        refine ⟨fun other => ?_, listed.once.sublist (sublist.map _), listed.sorted.sublist sublist⟩
        have members := listed.stored other
        have once := listed.once
        rw [found.list] at members once
        rw [List.map_append, List.map_cons, List.nodup_append, List.nodup_cons] at once
        rw [stored', List.mem_append]
        by_cases same : other.key = old.key
        · rw [if_pos same]
          refine ⟨?_, fun ⟨gone, _⟩ => absurd gone nofun⟩
          rintro (mem | mem)
          · exact absurd same (found.first other mem)
          · exact absurd (List.mem_map_of_mem mem) (same ▸ once.2.1.1)
        · rw [if_neg same, ← members, List.mem_append, List.mem_cons]
          have ne : other ≠ old := fun eq => same (congrArg Object.key eq)
          simp only [ne, false_or]
      · rename_i elsewhere
        have listed := good sex grade
        refine ⟨fun other => ?_, listed.once, listed.sorted⟩
        rw [listed.stored, stored']
        by_cases same : other.key = old.key
        · rw [if_pos same]
          refine ⟨?_, fun ⟨gone, _⟩ => absurd gone nofun⟩
          rintro ⟨found', rfl, rfl⟩
          obtain ⟨here, here'⟩ := Prod.mk.inj (same.trans key)
          rw [here, here', stored] at found'
          cases found'
          exact absurd ⟨rfl, rfl⟩ elsewhere
        · rw [if_neg same]

/-- If Lua gives the length 0 while other proposals of the role are left, one of them is no longer stored. -/
theorem steady_of_good_delete (good' : Good (market.deleteObject uuid childId border)) :
    Steady market (.delete uuid childId border) := by
  intro info role known nothing
  obtain ⟨old, child⟩ := Option.isSome_iff_exists.mp known
  have stored : market.getObjectInfo uuid childId = some old := Option.bind_eq_some_iff.mpr ⟨info, role, child⟩
  obtain ⟨index, front, back, position, found⟩ := Good.found keyed good stored
  refine List.eq_nil_iff_forall_not_mem.mpr fun otherId mem => ?_
  have left := (Table.mem_keys _ _).mp mem
  rw [Table.get_set] at left
  split at left
  · exact left rfl
  rename_i different
  obtain ⟨other, left⟩ := Option.ne_none_iff_exists'.mp left
  have stored' : market.getObjectInfo uuid otherId = some other :=
    Option.bind_eq_some_iff.mpr ⟨info, role, left⟩
  cases keyed uuid otherId other stored'
  have listed := ((good other.sex other.grade).stored other).mpr ⟨stored', rfl, rfl⟩
  have listed' : other ∈ (market.deleteObject other.uuid childId border).signList other.sex other.grade := by
    rw [signList_deleteObject role child position]
    split
    · rename_i kind
      rw [kind.1, kind.2, found.list, List.mem_append, List.mem_cons] at listed
      rw [found.eraseIdx, List.mem_append]
      rcases listed with mem | rfl | mem
      · exact .inl mem
      · exact absurd (congrArg Prod.snd (keyed _ _ other stored)) different
      · exact .inr mem
    · exact listed
  obtain ⟨stored'', -⟩ := ((good' other.sex other.grade).stored other).mp listed'
  rw [getObjectInfo_deleteObject role child position, if_pos ⟨rfl, .inl nothing⟩] at stored''
  cases stored''

end

end

end

end UEServer.ChildMarket
