import UEServer.Salon.Round

/-!
# The groups of a salon contest

Every role that has joined is drawn into one group; robots fill up the last one.  Each group has a right
record, and each role gets one result.
-/

namespace UEServer.Salon

variable {ν : Type*}

structure Joined (salon : SalonCls ν) (uuids : List String) : Prop where
  all : ∀ uuid, uuid ∈ salon.roleList.map RoleInfo.uuid ↔ uuid ∈ uuids
  once : (salon.roleList.map RoleInfo.uuid).Nodup
  /-- `role_dict` has the same roles. -/
  known : ∀ uuid, (salon.roleDict.get uuid).isSome = true ↔ uuid ∈ uuids
  long : ∀ info ∈ salon.roleList, 1 < info.uuid.length

theorem Joined.addRole {salon : SalonCls ν} {uuids : List String} (joined : Joined salon uuids)
    (role : Registered ν) : Joined (salon.addRole role) (uuids ++ [role.uuid]) := by
  have known := joined.known role.uuid
  rw [SalonCls.addRole.eq_def]
  cases found : salon.roleDict.get role.uuid with
  | some info =>
      rw [found] at known
      have already : role.uuid ∈ uuids := known.mp rfl
      have same : ∀ uuid, uuid ∈ uuids ++ [role.uuid] ↔ uuid ∈ uuids := by
        intro uuid
        rw [List.mem_append, List.mem_singleton]
        exact or_iff_left_of_imp fun eq => eq ▸ already
      exact ⟨fun uuid => (joined.all uuid).trans (same uuid).symm, joined.once,
        fun uuid => (joined.known uuid).trans (same uuid).symm, joined.long⟩
  | none =>
      rw [found] at known
      have absent : role.uuid ∉ salon.roleList.map RoleInfo.uuid := fun mem =>
        absurd (known.mpr ((joined.all _).mp mem)) nofun
      refine ⟨fun uuid => ?_, ?_, fun uuid => ?_, fun info mem => ?_⟩
      · rw [List.map_append, List.mem_append, List.mem_append, joined.all]
        rfl
      · rw [List.map_append]
        exact List.nodup_append.mpr ⟨joined.once, List.nodup_singleton _, fun first mem second mem' same =>
          absent (List.mem_singleton.mp mem' ▸ same ▸ mem)⟩
      · rw [Table.get_set, List.mem_append, List.mem_singleton, ← joined.known]
        split
        · rename_i here
          exact ⟨fun _ => .inr here, fun _ => rfl⟩
        · rename_i elsewhere
          exact (or_iff_left elsewhere).symm
      · rcases List.mem_append.mp mem with mem | mem
        · exact joined.long info mem
        · rw [List.mem_singleton.mp mem]
          exact role.long

theorem joined_foldl (roles : List (Registered ν)) {salon : SalonCls ν} {uuids : List String}
    (joined : Joined salon uuids) :
    Joined (roles.foldl SalonCls.addRole salon) (uuids ++ roles.map fun role => role.uuid) := by
  induction roles generalizing salon uuids with
  | nil =>
      rw [List.map_nil, List.append_nil]
      exact joined
  | cons role roles ih =>
      have later := ih (joined.addRole role)
      rwa [List.append_assoc] at later

theorem joined_new (roles : List (Registered ν)) :
    Joined (roles.foldl SalonCls.addRole SalonCls.new) (roles.map fun role => role.uuid) := by
  have start : Joined (SalonCls.new : SalonCls ν) [] :=
    ⟨fun _ => Iff.rfl, List.nodup_nil, fun uuid => by
      exact ⟨nofun, nofun⟩, nofun⟩
  exact joined_foldl roles start

/-- What `math.random` can give for the indices of all that are left. -/
def Possible : ℕ → List ℕ → Prop
  | 0, _ => True
  | _ + 1, [] => False
  | count + 1, index :: draws => 1 ≤ index ∧ index ≤ count + 1 ∧ Possible count draws

instance decidablePossible : (count : ℕ) → (draws : List ℕ) → Decidable (Possible count draws)
  | 0, _ => isTrue trivial
  | _ + 1, [] => isFalse id
  | count + 1, _ :: draws =>
      have := decidablePossible count draws
      inferInstanceAs (Decidable (_ ∧ _ ∧ Possible count draws))

/-- There are choices for some more members. -/
structure Filling.Enough (filling : Filling ν) (more : ℕ) : Prop where
  possible : Possible filling.salon.roleList.length filling.draws
  robots : more ≤ filling.salon.roleList.length + filling.robots.length

def Filling.names (filling : Filling ν) : List String :=
  filling.pvpTerm.map fun player => player.info.uuid

def isLong (uuid : String) : Bool := 1 < uuid.length

/-- What the inner loop keeps; the next index is given. -/
structure Filling.Right (start : List String) (next : ℕ) (filling : Filling ν) : Prop where
  count : filling.pvpTerm.length + 1 = next
  parts : (filling.names.filter isLong ++ filling.salon.roleList.map RoleInfo.uuid).Perm start
  once : filling.names.Nodup
  keys : filling.roleDict.keys.Perm filling.names
  fresh : ∀ player ∈ filling.pvpTerm, player.totalScore = none
  robots : ∀ uuid ∈ filling.names, isLong uuid = true ∨ ∃ index < next, uuid = toString index
  known : ∀ info ∈ filling.salon.roleList, (filling.salon.roleDict.get info.uuid).isSome = true
  long : ∀ info ∈ filling.salon.roleList, isLong info.uuid = true

theorem toString_short : ∀ index ∈ List.range 10, isLong (toString index) = false := by decide

theorem toString_apart : ∀ index ∈ List.range 10, ∀ other ∈ List.range 10,
    toString index = toString other → index = other := by decide

theorem keys_set_perm {κ ω : Type*} [DecidableEq κ] (table : Table κ ω) {key : κ} (absent : key ∉ table.keys)
    (value : ω) : (table.set key (some value)).keys.Perm (key :: table.keys) := by
  have keys : (table.set key (some value)).keys = key :: table.keys.erase key := AList.keys_insert table
  rw [keys, List.erase_of_not_mem absent]

theorem Filling.Right.extend {start : List String} {next : ℕ} {filling : Filling ν}
    (right : filling.Right start next) {after : Filling ν} (info : RoleInfo ν)
    (absent : info.uuid ∉ filling.names)
    (role : isLong info.uuid = true ∨ info.uuid = toString next)
    (term : after.pvpTerm = filling.pvpTerm ++ [⟨info, [], none⟩])
    (dict : after.roleDict = filling.roleDict.set info.uuid (some next))
    (parts : ((filling.names ++ [info.uuid]).filter isLong ++
      after.salon.roleList.map RoleInfo.uuid).Perm start)
    (known : ∀ info ∈ after.salon.roleList, (after.salon.roleDict.get info.uuid).isSome = true)
    (long : ∀ info ∈ after.salon.roleList, isLong info.uuid = true) :
    after.Right start (next + 1) := by
  have names : after.names = filling.names ++ [info.uuid] := by
    rw [Filling.names, term, List.map_append]
    rfl
  refine ⟨?_, ?_, ?_, ?_, fun player mem => ?_, fun uuid mem => ?_, known, long⟩
  · rw [term, List.length_append, List.length_singleton, right.count]
  · rw [names]
    exact parts
  · rw [names]
    exact List.nodup_append.mpr ⟨right.once, List.nodup_singleton _, fun first mem second mem' same =>
      absent (List.mem_singleton.mp mem' ▸ same ▸ mem)⟩
  · rw [names, dict]
    have new : info.uuid ∉ filling.roleDict.keys := fun mem => absent (right.keys.mem_iff.mp mem)
    exact (keys_set_perm filling.roleDict new next).trans
      ((right.keys.cons _).trans (List.perm_append_singleton _ _).symm)
  · rw [term] at mem
    rcases List.mem_append.mp mem with mem | mem
    · exact right.fresh player mem
    · rw [List.mem_singleton.mp mem]
  · rw [names] at mem
    rcases List.mem_append.mp mem with mem | mem
    · rcases right.robots uuid mem with role | ⟨index, less, robot⟩
      · exact .inl role
      · exact .inr ⟨index, Nat.lt_succ_of_lt less, robot⟩
    · rw [List.mem_singleton.mp mem]
      exact role.imp_right fun robot => ⟨next, Nat.lt_succ_self next, robot⟩

section
variable [Add ν] [Mul ν]

theorem takeMember_right (ratio : ν) {start : List String} (nodup : start.Nodup) {next more : ℕ}
    (small : next ≤ 9) {filling : Filling ν} (right : filling.Right start next)
    (enough : filling.Enough (more + 1)) :
    ∃ after, takeMember ratio filling next = some after ∧ after.Right start (next + 1) ∧
      after.Enough more ∧ after.salon.roleList.length = filling.salon.roleList.length - 1 := by
  cases roles : filling.salon.roleList with
  | nil =>
      have robots := enough.robots
      rw [roles, List.length_nil, Nat.zero_add] at robots
      cases streams : filling.robots with
      | nil =>
          rw [streams, List.length_nil] at robots
          omega
      | cons robot rest =>
          have short := toString_short next (List.mem_range.mpr (by omega))
          have taken : takeMember ratio filling next = some
              { filling with
                salon := { filling.salon with
                  roleDict := filling.salon.roleDict.set (toString next) (some (getRobot next robot)) }
                robots := rest
                pvpTerm := filling.pvpTerm ++ [⟨boost ratio (getRobot next robot), [], none⟩]
                roleDict := filling.roleDict.set (toString next) (some next) } := by
            rw [takeMember, nextInfo, roles, streams]
            dsimp only [Option.bind_some]
            rw [Table.get_set_self]
            rfl
          refine ⟨_, taken, right.extend (boost ratio (getRobot next robot)) ?_ (.inr rfl) rfl rfl ?_ ?_ ?_,
            ⟨?_, ?_⟩, ?_⟩
          · intro mem
            rcases right.robots _ mem with role | ⟨index, less, same⟩
            · cases role.symm.trans short
            · have eq := toString_apart next (List.mem_range.mpr (by omega)) index
                (List.mem_range.mpr (by omega)) same
              omega
          · have parts := right.parts
            have robot_short : ([(boost ratio (getRobot next robot)).uuid]).filter isLong = [] := by
              rw [List.filter_cons_of_neg (by
                change ¬ isLong (toString next) = true
                rw [short]
                exact nofun)]
              rfl
            rw [List.filter_append, robot_short, List.append_nil]
            exact parts
          · intro info mem
            rw [show filling.salon.roleList = [] from roles] at mem
            exact absurd mem List.not_mem_nil
          · intro info mem
            rw [show filling.salon.roleList = [] from roles] at mem
            exact absurd mem List.not_mem_nil
          · exact enough.possible
          · change more ≤ filling.salon.roleList.length + rest.length
            rw [streams, List.length_cons] at robots
            omega
          · rw [roles]
            rfl
  | cons first others =>
      have possible := enough.possible
      rw [roles, List.length_cons] at possible
      cases streams : filling.draws with
      | nil =>
          rw [streams] at possible
          exact possible.elim
      | cons index draws =>
          rw [streams] at possible
          obtain ⟨positive, inside, possible⟩ := possible
          obtain ⟨⟨info, rest⟩, drawn⟩ := @Draw.exists_draw _ (first :: others) index positive inside
          have perm := Draw.draw_perm drawn
          have known : info ∈ filling.salon.roleList := by
            rw [roles]
            exact perm.mem_iff.mp List.mem_cons_self
          have length := Draw.length_of_draw drawn
          rw [List.length_cons] at length
          obtain ⟨entry, found⟩ := Option.isSome_iff_exists.mp (right.known info known)
          have taken : takeMember ratio filling next = some
              { filling with
                salon := { filling.salon with roleList := rest }
                draws := draws
                pvpTerm := filling.pvpTerm ++ [⟨boost ratio info, [], none⟩]
                roleDict := filling.roleDict.set info.uuid (some next) } := by
            rw [takeMember, nextInfo, roles, streams]
            dsimp only
            rw [drawn]
            dsimp only [Option.map_some, Option.bind_some]
            rw [found]
            rfl
          have others_known : ∀ other ∈ rest, other ∈ filling.salon.roleList := by
            intro other mem
            rw [roles]
            exact perm.mem_iff.mp (List.mem_cons_of_mem _ mem)
          have parts : (filling.names.filter isLong ++ info.uuid :: rest.map RoleInfo.uuid).Perm start := by
            refine List.Perm.trans (List.Perm.append_left _ ?_) right.parts
            rw [roles]
            exact perm.map RoleInfo.uuid
          refine ⟨_, taken, right.extend (boost ratio info) ?_ (.inl (right.long info known)) rfl rfl ?_ ?_ ?_,
            ⟨?_, ?_⟩, ?_⟩
          · intro mem
            have twice := parts.nodup_iff.mpr nodup
            rw [List.nodup_append] at twice
            exact twice.2.2 info.uuid (List.mem_filter.mpr ⟨mem, right.long info known⟩) info.uuid
              List.mem_cons_self rfl
          · have role : ([(boost ratio info).uuid]).filter isLong = [info.uuid] :=
              List.filter_cons_of_pos (right.long info known)
            rw [List.filter_append, role, List.append_assoc]
            exact parts
          · exact fun other mem => right.known other (others_known other mem)
          · exact fun other mem => right.long other (others_known other mem)
          · rw [Nat.succ_injective length]
            exact possible
          · have robots := enough.robots
            change more ≤ rest.length + filling.robots.length
            rw [roles, List.length_cons] at robots
            omega
          · change rest.length = _
            rw [List.length_cons]
            omega

theorem fillTerm_right (ratio : ν) {start : List String} (nodup : start.Nodup) {count next more : ℕ}
    (small : next + count ≤ 10) {filling : Filling ν} (right : filling.Right start next)
    (enough : filling.Enough (count + more)) :
    ∃ after, fillTerm ratio (List.range' next count) filling = some after ∧
      after.Right start (next + count) ∧ after.Enough more ∧
      after.salon.roleList.length = filling.salon.roleList.length - count := by
  induction count generalizing next filling with
  | zero =>
      rw [Nat.zero_add] at enough
      exact ⟨filling, rfl, right, enough, rfl⟩
  | succ count ih =>
      obtain ⟨middle, taken, right', enough', length⟩ := takeMember_right ratio nodup (by omega) right
        (by rwa [Nat.succ_add] at enough : filling.Enough (count + more + 1))
      obtain ⟨after, filled, right'', enough'', length'⟩ := ih (by omega) right' enough'
      refine ⟨after, ?_, ?_, enough'', by omega⟩
      · rw [List.range'_succ, fillTerm, taken]
        exact filled
      · rwa [Nat.succ_add] at right''

variable [LinearOrder ν]

/-- What the outer loop makes of the roles that are left. -/
structure Parted (uuids : List String) (playersNum : ℕ) (pvpIds : List ℕ) (records : List Record)
    (final : Filling ν) : Prop where
  parts : ((records.flatMap fun record => record.roleDict.keys).filter isLong ++
    final.salon.roleList.map RoleInfo.uuid).Perm uuids
  right : ∀ record ∈ records, RightRecord playersNum record
  ids : records.map Record.pvpId = pvpIds

theorem termLoop_right (table : TableSort (Player ν)) (ratio : ν) {playersNum : ℕ} (low : 1 ≤ playersNum)
    (high : playersNum ≤ 9) (pvpIds : List ℕ) {filling : Filling ν} {more : ℕ}
    (once : (filling.salon.roleList.map RoleInfo.uuid).Nodup)
    (known : ∀ info ∈ filling.salon.roleList, (filling.salon.roleDict.get info.uuid).isSome = true)
    (long : ∀ info ∈ filling.salon.roleList, isLong info.uuid = true)
    (enough : filling.Enough (pvpIds.length * playersNum + more)) :
    ∃ records final, termLoop table ratio playersNum pvpIds filling = some (records, final) ∧
      Parted (filling.salon.roleList.map RoleInfo.uuid) playersNum pvpIds records final ∧
      final.salon.roleList.length = filling.salon.roleList.length - pvpIds.length * playersNum := by
  induction pvpIds generalizing filling with
  | nil => exact ⟨[], filling, rfl, ⟨List.Perm.refl _, nofun, rfl⟩, by rw [List.length_nil, Nat.zero_mul]; rfl⟩
  | cons pvpId pvpIds ih =>
      have begun : ({ filling with pvpTerm := [], roleDict := Table.empty } : Filling ν).Right
          (filling.salon.roleList.map RoleInfo.uuid) 1 :=
        ⟨rfl, List.Perm.refl _, List.nodup_nil, List.Perm.refl _, nofun, nofun, known, long⟩
      have total : (pvpId :: pvpIds).length * playersNum + more =
          playersNum + (pvpIds.length * playersNum + more) := by
        rw [List.length_cons, Nat.succ_mul]
        omega
      rw [total] at enough
      obtain ⟨filled, filled_eq, right, enough', length⟩ := fillTerm_right ratio once
        (by omega : 1 + playersNum ≤ 10) begun ⟨enough.possible, enough.robots⟩
      have parts := right.parts
      have nodup := parts.nodup_iff.mpr once
      obtain ⟨records, final, loop, parted, length'⟩ := ih (List.nodup_append.mp nodup).2.1 right.known
        right.long enough'
      refine ⟨pvpRun table pvpId filled.pvpTerm filled.roleDict :: records, final, ?_, ⟨?_, ?_, ?_⟩, ?_⟩
      · rw [termLoop, filled_eq, Option.bind_some, loop]
        rfl
      · rw [List.flatMap_cons, List.filter_append, List.append_assoc]
        refine List.Perm.trans ?_ parts
        exact (right.keys.filter isLong).append parted.parts
      · intro record mem
        rcases List.mem_cons.mp mem with rfl | mem
        · refine pvpRun_right table pvpId low right.keys.symm ?_ right.fresh
          have size : filled.roleDict.size = filled.names.length := right.keys.length_eq
          have count := right.count
          rw [size, Filling.names, List.length_map]
          omega
        · exact parted.right record mem
      · rw [List.map_cons, parted.ids]
        rfl
      · rw [length', length, List.length_cons, Nat.succ_mul]
        dsimp only
        omega

end

theorem results_eq (record : Record) : (pvpEnd record).map PvpInfo.uuid =
    (record.totalRank.map Prod.fst).filter isLong := by
  have from_ : ∀ (entries : List (String × ℤ)) (first : ℕ),
      (((entries.zipIdx first).filterMap fun entry => if 1 < entry.1.1.length then
        some (⟨entry.1.1, record.pvpId, entry.2⟩ : PvpInfo) else none).map PvpInfo.uuid) =
        (entries.map Prod.fst).filter isLong := by
    intro entries
    induction entries with
    | nil => exact fun _ => rfl
    | cons entry entries ih =>
        intro first
        rw [List.zipIdx_cons, List.map_cons, List.filterMap_cons]
        dsimp only
        by_cases role : 1 < entry.1.length
        · have long : isLong entry.1 = true := decide_eq_true role
          rw [if_pos role, List.filter_cons_of_pos long]
          exact congrArg (entry.1 :: ·) (ih (first + 1))
        · have short : ¬ isLong entry.1 = true := fun long => role (of_decide_eq_true long)
          rw [if_neg role, List.filter_cons_of_neg short]
          exact ih (first + 1)
  exact from_ record.totalRank 1

theorem results_perm {playersNum : ℕ} {records : List Record}
    (right : ∀ record ∈ records, RightRecord playersNum record) :
    ((records.flatMap pvpEnd).map PvpInfo.uuid).Perm
      ((records.flatMap fun record => record.roleDict.keys).filter isLong) := by
  induction records with
  | nil => exact List.Perm.refl _
  | cons record records ih =>
      rw [List.flatMap_cons, List.flatMap_cons, List.map_append, List.filter_append, results_eq]
      exact ((right record List.mem_cons_self).totalAll.filter isLong).append
        (ih fun other mem => right other (List.mem_cons_of_mem _ mem))

theorem termMaxCount_le {count playersNum : ℕ} (low : 1 ≤ playersNum) :
    termMaxCount count playersNum * playersNum ≤ count + playersNum := by
  have quotient := Nat.div_mul_le_self (count + playersNum - 1) playersNum
  rw [termMaxCount]
  omega

theorem le_termMaxCount {count playersNum : ℕ} (low : 1 ≤ playersNum) :
    count ≤ termMaxCount count playersNum * playersNum := by
  rw [termMaxCount]
  have rest := Nat.mod_add_div (count + playersNum - 1) playersNum
  have less := Nat.mod_lt (count + playersNum - 1) low
  rw [mul_comm] at rest
  omega

/-- Whatever roles have joined and whatever is drawn, the contest has a right record for each group, every
role is in one group, and every role gets one result. -/
theorem pvpStart_right {ν : Type*} [Add ν] [Mul ν] [LinearOrder ν] (table : TableSort (Player ν)) (ratio : ν)
    (playersNum : ℕ) (low : 2 ≤ playersNum) (high : playersNum ≤ 9) (roles : List (Registered ν))
    (draws : List ℕ) (robots : List (Robot ν))
    (possible : Possible (roles.foldl SalonCls.addRole SalonCls.new).roleList.length draws)
    (enough : playersNum ≤ robots.length) :
    ∃ records final,
      pvpStart table ratio playersNum (roles.foldl SalonCls.addRole SalonCls.new) draws robots =
        some (records, final) ∧
      (∀ record ∈ records, RightRecord playersNum record) ∧
      records.map Record.pvpId = List.range' 1 records.length ∧
      ((records.flatMap fun record => record.roleDict.keys).filter isLong).Perm
        (roles.map fun role => role.uuid).dedup ∧
      ((records.flatMap pvpEnd).map PvpInfo.uuid).Perm (roles.map fun role => role.uuid).dedup := by
  have joined := joined_new roles
  generalize roles.foldl SalonCls.addRole SalonCls.new = salon at possible joined ⊢
  have known : ∀ info ∈ salon.roleList, (salon.roleDict.get info.uuid).isSome = true := fun info mem =>
    (joined.known _).mpr ((joined.all _).mp (List.mem_map_of_mem mem))
  have low' : 1 ≤ playersNum := by omega
  have upper := @termMaxCount_le salon.roleList.length _ low'
  have lower := @le_termMaxCount salon.roleList.length _ low'
  have choices : (⟨salon, draws, robots, [], Table.empty⟩ : Filling ν).Enough
      ((List.range' 1 (termMaxCount salon.roleList.length playersNum)).length * playersNum + 0) := by
    refine ⟨possible, ?_⟩
    rw [List.length_range', Nat.add_zero]
    dsimp only
    omega
  obtain ⟨records, final, started, parted, length⟩ := termLoop_right table ratio low' high _ joined.once known
    (fun info mem => decide_eq_true (joined.long info mem)) choices
  have none_left : final.salon.roleList = [] := by
    rw [List.length_range'] at length
    dsimp only at length
    exact List.eq_nil_of_length_eq_zero (by omega)
  have parts := parted.parts
  rw [none_left, List.map_nil, List.append_nil] at parts
  have all : (salon.roleList.map RoleInfo.uuid).Perm (roles.map fun role => role.uuid).dedup :=
    (List.perm_ext_iff_of_nodup joined.once (List.nodup_dedup _)).mpr fun uuid =>
      (joined.all uuid).trans List.mem_dedup.symm
  refine ⟨records, final, started, parted.right, ?_, parts.trans all,
    (results_perm parted.right).trans (parts.trans all)⟩
  have ids := parted.ids
  have count := congrArg List.length ids
  rw [List.length_map, List.length_range'] at count
  rw [ids, count]

/-- A role with an `etiquette`. -/
def guest (uuid : String) (etiquette : ℤ) (long : 1 < uuid.length) : Registered ℤ :=
  ⟨⟨uuid, uuid, 3, ⟨21051, 2, 1, ⟨etiquette, 40, 45, 50⟩⟩, ⟨1, 0, 0, 0⟩⟩, long⟩

def plainRobot : Robot ℤ := ⟨"robot", 1, ⟨21051, 1, 1, ⟨25, 35, 45, 55⟩⟩, ⟨25, 35, 45, 0⟩⟩

/-- Three roles, one of which joins twice, and groups of two. -/
theorem pvpStart_right_guests :
    ∃ records final,
      pvpStart (TableSort.insertion (Player ℤ)) 1 2
        ([guest "aa" 30 (by decide), guest "bb" 20 (by decide), guest "aa" 30 (by decide),
          guest "cc" 20 (by decide)].foldl SalonCls.addRole SalonCls.new) [2, 1, 1] [plainRobot, plainRobot] =
        some (records, final) ∧
      ((records.flatMap pvpEnd).map PvpInfo.uuid).Perm ["bb", "aa", "cc"] := by
  obtain ⟨records, final, started, -, -, -, results⟩ :=
    pvpStart_right (TableSort.insertion (Player ℤ)) 1 2 (by decide) (by decide)
      [guest "aa" 30 (by decide), guest "bb" 20 (by decide), guest "aa" 30 (by decide),
        guest "cc" 20 (by decide)] [2, 1, 1] [plainRobot, plainRobot] (by decide) (by decide)
  exact ⟨records, final, started, results⟩

end UEServer.Salon
