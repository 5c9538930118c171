import UEServer.Dynasty.Effect

/-!
# One godfather

Every dynasty has one godfather and no more holders of a limited job than its limit, as long as no
daily refresh replaces an absent godfather: that promotes his successor and leaves him his job.
-/

namespace UEServer.DynastyUtils

variable {ι υ : Type} [DecidableEq ι] [DecidableEq υ]

omit [DecidableEq υ] in
/-- One member is godfather, and there are two second chiefs at most. -/
structure Titled (dynasty : Dynasty υ) : Prop where
  godfather : dynasty.holders .godFather = 1
  seconds : dynasty.holders .secondChief ≤ 2

theorem holders_set (members : Table υ RoleInfo) (uuid : υ) (value : Option RoleInfo) (job : Job) :
    (members.set uuid value).count (fun info => info.job = job) +
        Table.weighed (fun info : RoleInfo => if info.job = job then 1 else 0) (members.get uuid) =
      members.count (fun info => info.job = job) +
        Table.weighed (fun info : RoleInfo => if info.job = job then 1 else 0) value :=
  Table.total_set _ members uuid value

theorem Titled.kept_job {dynasty after : Dynasty υ} (titled : Titled dynasty) {uuid : υ}
    {info updated : RoleInfo} (found : dynasty.memberDict.get uuid = some info)
    (members : after.memberDict = dynasty.memberDict.set uuid (some updated))
    (job : updated.job = info.job) : Titled after := by
  have same : ∀ title, after.holders title = dynasty.holders title := by
    intro title
    have exchanged := holders_set dynasty.memberDict uuid (some updated) title
    rw [found] at exchanged
    simp only [Table.weighed_some, job] at exchanged
    unfold Dynasty.holders
    rw [members]
    omega
  exact ⟨(same _).trans titled.godfather, (same _).trans_le titled.seconds⟩

variable {dynasty : Dynasty υ}

theorem holders_modifyMemberJob {uuid : υ} {info : RoleInfo}
    (found : dynasty.memberDict.get uuid = some info) (job title : Job) :
    (dynasty.modifyMemberJob uuid job).holders title + (if info.job = title then 1 else 0) =
      dynasty.holders title + (if job = title then 1 else 0) := by
  have exchanged := holders_set dynasty.memberDict uuid (some { info with job }) title
  rw [found] at exchanged
  rw [modifyMemberJob_eq found]
  exact exchanged

theorem Titled.unique (titled : Titled dynasty) {uuid other : υ}
    {info second : RoleInfo} (found : dynasty.memberDict.get uuid = some info)
    (job : info.job = .godFather) (other_found : dynasty.memberDict.get other = some second)
    (other_job : second.job = .godFather) : other = uuid :=
  Table.unique_of_count_one titled.godfather found job other_found other_job

/-- An edit that lets no member become godfather beside another keeps the titles. -/
theorem Edit.titled {dynasty after : Dynasty υ} (edit : Edit False dynasty after)
    (titled : Titled dynasty) : Titled after := by
  cases edit with
  | other members count score grown bounded =>
      have same : ∀ title, after.holders title = dynasty.holders title := by
        intro title
        unfold Dynasty.holders
        rw [members]
      exact ⟨(same _).trans titled.godfather, (same _).trans_le titled.seconds⟩
  | presence found offlineTs => exact titled.kept_job found rfl rfl
  | info found dedicate fightScore => exact titled.kept_job found rfl rfl
  | @appoint uuid member own info job different own_found own_job found lower room =>
      have not_godfather : info.job ≠ .godFather := fun info_job =>
        different (titled.unique found info_job own_found own_job)
      have godfathers := holders_modifyMemberJob found job .godFather
      have seconds := holders_modifyMemberJob found job .secondChief
      have godfather := titled.godfather
      have limit := titled.seconds
      rw [if_neg not_godfather, if_neg lower] at godfathers
      refine ⟨by omega, ?_⟩
      by_cases second : job = .secondChief
      · subst second
        have less := room 2 rfl
        rw [if_pos (rfl : Job.secondChief = .secondChief)] at seconds
        omega
      · rw [if_neg second] at seconds
        omega
  | @transfer uuid member own info different own_found own_job found job =>
      have own_after : (dynasty.modifyMemberJob member .godFather).memberDict.get uuid =
          some own := by
        rw [modifyMemberJob_eq found]
        exact (Table.get_set_of_ne _ _ different).trans own_found
      have godfathers := holders_modifyMemberJob found .godFather .godFather
      have seconds := holders_modifyMemberJob found .godFather .secondChief
      have godfathers_after := holders_modifyMemberJob own_after .member .godFather
      have seconds_after := holders_modifyMemberJob own_after .member .secondChief
      have godfather := titled.godfather
      have limit := titled.seconds
      simp [job] at godfathers seconds
      simp [own_job] at godfathers_after seconds_after
      exact ⟨by omega, by omega⟩
  | succeed found allowed =>
      have job := allowed.resolve_left id
      exact titled.kept_job found
        (congrArg Dynasty.memberDict (modifyMemberJob_eq found .godFather)) job.symm

theorem Titled.addDynastyMember (titled : Titled dynasty) {uuid : υ}
    (missing : dynasty.memberDict.get uuid = none) (fightScore : Int) (now : Nat) :
    Titled (dynasty.addDynastyMember uuid fightScore now) := by
  have exchanged := holders_set dynasty.memberDict uuid
    (some { job := .member, fightScore, historyDedicate := 0, offlineTs := some now })
  rw [missing] at exchanged
  have godfathers := exchanged .godFather
  have seconds := exchanged .secondChief
  exact ⟨godfathers.trans titled.godfather, seconds.trans_le titled.seconds⟩

/-- When the godfather leaves, another member becomes godfather; when another one leaves, the
godfather stays. -/
theorem Titled.leave {dynasty after : Dynasty υ} (titled : Titled dynasty) {uuid : υ}
    {info : RoleInfo} (member : dynasty.memberDict.get uuid = some info)
    (followed : info.job ≠ .godFather ∧ after = dynasty.removeMember uuid info ∨
      info.job = .godFather ∧
        ∃ next, (dynasty.removeMember uuid info).setNextGodfather next = some after) :
    Titled after := by
  have removed : ∀ title, (dynasty.removeMember uuid info).holders title +
      (if info.job = title then 1 else 0) = dynasty.holders title := by
    intro title
    have exchanged := holders_set dynasty.memberDict uuid none title
    rw [member] at exchanged
    exact exchanged
  have godfathers := removed .godFather
  have seconds := removed .secondChief
  have godfather := titled.godfather
  have limit := titled.seconds
  rcases followed with ⟨other, rfl⟩ | ⟨leaving, next, chosen⟩
  · rw [if_neg other] at godfathers
    exact ⟨by omega, by omega⟩
  · rw [if_pos leaving] at godfathers
    obtain ⟨next_info, next_found, rfl⟩ := of_setNextGodfather chosen
    have next_job : next_info.job ≠ .godFather := by
      intro job
      have positive : 0 < (dynasty.removeMember uuid info).holders .godFather :=
        Table.count_pos next_found job
      omega
    have promoted := holders_modifyMemberJob next_found .godFather .godFather
    have remaining := holders_modifyMemberJob next_found .godFather .secondChief
    simp [next_job] at promoted
    simp at remaining
    exact ⟨by omega, by omega⟩

theorem titled_create (dynasty : Dynasty υ) (uuid : υ) (name : String) (fightScore : Int) :
    Titled (dynasty.create uuid name fightScore) := by
  have exchanged := holders_set Table.empty uuid
    (some { job := .godFather, fightScore, historyDedicate := 0, offlineTs := none })
  have nobody : ∀ title,
      (Table.empty : Table υ RoleInfo).count (fun info => info.job = title) = 0 := fun _ => rfl
  have godfathers := exchanged .godFather
  have seconds := exchanged .secondChief
  simp [nobody] at godfathers seconds
  exact ⟨godfathers, (Nat.le_of_eq seconds).trans (by omega)⟩

/-- Every dynasty has one godfather, whom `get_godfather_info` finds, and no more holders of a
limited job than its limit. -/
structure OneGodfather (state : State ι υ) : Prop where
  godfather : ∀ id dynasty, state.dynastyDict.get id = some dynasty →
    ∃ godfather, (∀ uuid, dynasty.isGodfather uuid ↔ uuid = godfather) ∧
      ∀ order : List υ, order.Perm dynasty.memberDict.keys →
        dynasty.getGodfatherInfo order = some godfather
  limits : ∀ id dynasty, state.dynastyDict.get id = some dynasty →
    ∀ job : Job, ∀ limit ∈ job.maxNum, dynasty.holders job ≤ limit

/-- What every effect but a succession keeps. -/
structure Ruled (state : State ι υ) : Prop where
  titled : ∀ id dynasty, state.dynastyDict.get id = some dynasty → Titled dynasty
  mapped : ∀ id dynasty uuid, state.dynastyDict.get id = some dynasty →
    (dynasty.memberDict.get uuid).isSome → state.roleDynastyDict uuid = some id
  created : ∀ id, (state.dynastyDict.get id).isSome → id ∈ state.created

theorem Titled.exists_godfather (titled : Titled dynasty) :
    ∃ godfather, (∀ uuid, dynasty.isGodfather uuid ↔ uuid = godfather) ∧
      ∀ order : List υ, order.Perm dynasty.memberDict.keys →
        dynasty.getGodfatherInfo order = some godfather := by
  have positive : 0 < dynasty.holders .godFather := by
    have one := titled.godfather
    omega
  obtain ⟨godfather, info, found, job⟩ := Table.exists_of_count_pos positive
  have unique : ∀ uuid, dynasty.isGodfather uuid ↔ uuid = godfather := by
    intro uuid
    refine ⟨fun is_godfather => ?_, ?_⟩
    · obtain ⟨other, other_found, other_job⟩ := of_isGodfather is_godfather
      exact titled.unique found job other_found other_job
    · rintro rfl
      unfold Dynasty.isGodfather
      rw [found]
      simpa using job
  refine ⟨godfather, unique, fun order perm => ?_⟩
  have mem : godfather ∈ order := by
    rw [perm.mem_iff, Table.mem_keys, found]
    simp
  have present : (order.find? dynasty.isGodfather).isSome :=
    List.find?_isSome.mpr ⟨godfather, mem, (unique godfather).mpr rfl⟩
  obtain ⟨recorded, recorded_found⟩ := Option.isSome_iff_exists.mp present
  have same := (unique recorded).mp (List.find?_some recorded_found)
  exact same ▸ recorded_found

theorem Ruled.oneGodfather {state : State ι υ} (ruled : Ruled state) : OneGodfather state := by
  refine ⟨fun id dynasty found => (ruled.titled id dynasty found).exists_godfather,
    fun id dynasty found job limit limited => ?_⟩
  have titled := ruled.titled id dynasty found
  cases job with
  | godFather =>
      cases limited
      exact titled.godfather.le
  | secondChief =>
      cases limited
      exact titled.seconds
  | member => cases limited

theorem initial_ruled : Ruled (initial : State ι υ) := by
  refine ⟨?_, ?_, ?_⟩ <;> simp [initial]

variable {state after : State ι υ}

theorem Ruled.assigned (ruled : Ruled state) {id : ι}
    {edited : Dynasty υ} (titled : Titled edited)
    (dynasties : ∀ other, after.dynastyDict.get other =
      if other = id then some edited else state.dynastyDict.get other)
    (mapped : ∀ uuid, (edited.memberDict.get uuid).isSome → after.roleDynastyDict uuid = some id)
    (others : ∀ uuid other, other ≠ id → state.roleDynastyDict uuid = some other →
      after.roleDynastyDict uuid = some other)
    (created : id ∈ after.created) (grown : ∀ other ∈ state.created, other ∈ after.created) :
    Ruled after := by
  refine ⟨fun other dynasty found => ?_, fun other dynasty uuid found member => ?_,
    fun other there => ?_⟩
  · rw [dynasties] at found
    split at found
    · cases found
      exact titled
    · exact ruled.titled other dynasty found
  · rw [dynasties] at found
    split at found
    · rename_i same
      cases found
      rw [same]
      exact mapped uuid member
    · rename_i different
      exact others uuid other different (ruled.mapped other dynasty uuid found member)
  · rw [dynasties] at there
    split at there
    · rename_i same
      rw [same]
      exact created
    · exact grown other (ruled.created other there)

theorem Ruled.removed (ruled : Ruled state) {id : ι}
    (dynasties : ∀ other, after.dynastyDict.get other =
      if other = id then none else state.dynastyDict.get other)
    (others : ∀ uuid other, other ≠ id → state.roleDynastyDict uuid = some other →
      after.roleDynastyDict uuid = some other)
    (created : after.created = state.created) : Ruled after := by
  have remaining : ∀ other dynasty, after.dynastyDict.get other = some dynasty →
      other ≠ id ∧ state.dynastyDict.get other = some dynasty := by
    intro other dynasty found
    rw [dynasties] at found
    split at found
    · cases found
    · rename_i different
      exact ⟨different, found⟩
  refine ⟨fun other dynasty found => ?_, fun other dynasty uuid found member => ?_,
    fun other there => ?_⟩
  · exact ruled.titled other dynasty (remaining other dynasty found).2
  · obtain ⟨different, before⟩ := remaining other dynasty found
    exact others uuid other different (ruled.mapped other dynasty uuid before member)
  · obtain ⟨dynasty, found⟩ := Option.isSome_iff_exists.mp there
    rw [created]
    exact ruled.created other (by simp [(remaining other dynasty found).2])

theorem Effect.ruled {expiry : Prop}
    (effect : Effect expiry False state after) (ruled : Ruled state) : Ruled after := by
  have member_role : ∀ {id dynasty uuid}, state.dynastyDict.get id = some dynasty →
      state.roleDynastyDict uuid = none → dynasty.memberDict.get uuid = none := by
    intro id dynasty uuid found free
    cases member : dynasty.memberDict.get uuid with
    | none => rfl
    | some info =>
        have mapped := ruled.mapped id dynasty uuid found (by simp [member])
        rw [free] at mapped
        cases mapped
  cases effect with
  | tick seconds => exact { ruled with }
  | save id =>
      unfold State.checkSave
      split
      · exact ruled
      · exact { ruled with }
  | rank ranked => exact { ruled with }
  | @change id dynasty edited _ found edit changed =>
      refine ruled.assigned (edit.titled (ruled.titled id dynasty found)) changed.dynasties
        (fun uuid member => ?_) (fun uuid other _ mapped => ?_) ?_ fun other used => ?_
      · rw [changed.roles]
        exact ruled.mapped id dynasty uuid found (edit.members uuid ▸ member)
      · rw [changed.roles]
        exact mapped
      · rw [changed.created]
        exact ruled.created id (by simp [found])
      · rw [changed.created]
        exact used
  | attempt id =>
      exact { ruled with
        created := fun other there => List.mem_cons_of_mem id (ruled.created other there) }
  | @establish uuid id unused free name fightScore =>
      obtain ⟨mgr, loaded⟩ := getDynasty_eq state id
      have dynasties : ∀ other, (state.establish uuid id name fightScore).dynastyDict.get other =
          if other = id then some ((state.getDynasty id).2.create uuid name fightScore)
          else state.dynastyDict.get other := by
        unfold State.establish
        rw [loaded]
        exact fun other => Table.get_set _ _ _ _
      have roles : (state.establish uuid id name fightScore).roleDynastyDict =
          Function.update state.roleDynastyDict uuid (some id) := by
        unfold State.establish
        rw [loaded]
        rfl
      refine ruled.assigned (titled_create _ uuid name fightScore) dynasties
        (fun other member => ?_) (fun other place _ mapped => ?_) List.mem_cons_self
        fun other used => List.mem_cons_of_mem id used
      · change ((Table.empty.set uuid (some _)).get other).isSome at member
        rw [Table.get_set] at member
        split at member
        · rename_i same
          rw [roles, same, Function.update_self]
        · cases member
      · have different : other ≠ uuid := by
          rintro rfl
          rw [free] at mapped
          cases mapped
        rw [roles, Function.update_of_ne different]
        exact mapped
  | @join id dynasty uuid found free room fightScore =>
      have changed := change_changed (state.setRole uuid (some id)) id
        (dynasty.addDynastyMember uuid fightScore state.now)
      have titled := (ruled.titled id dynasty found).addDynastyMember (member_role found free)
        fightScore state.now
      refine ruled.assigned titled changed.dynasties (fun other member => ?_)
        (fun other place _ mapped => ?_) (ruled.created id (by simp [found])) fun _ used => used
      · change ((dynasty.memberDict.set uuid (some _)).get other).isSome at member
        change Function.update state.roleDynastyDict uuid (some id) other = some id
        rw [Table.get_set] at member
        by_cases same : other = uuid
        · rw [same, Function.update_self]
        · rw [if_neg same] at member
          rw [Function.update_of_ne same]
          exact ruled.mapped id dynasty other found member
      · have different : other ≠ uuid := by
          rintro rfl
          rw [free] at mapped
          cases mapped
        change Function.update state.roleDynastyDict uuid (some id) other = some place
        rw [Function.update_of_ne different]
        exact mapped
  | @leave id dynasty edited uuid info found several member followed =>
      have changed := change_changed (state.setRole uuid none) id edited
      have own := ruled.mapped id dynasty uuid found (by simp [member])
      have members : ∀ other, (edited.memberDict.get other).isSome =
          ((dynasty.memberDict.set uuid none).get other).isSome := by
        rcases followed with ⟨-, rfl⟩ | ⟨-, next, chosen⟩
        · exact fun _ => rfl
        · obtain ⟨next_info, next_found, rfl⟩ := of_setNextGodfather chosen
          exact isSome_modifyMemberJob _ _ _
      refine ruled.assigned ((ruled.titled id dynasty found).leave member followed)
        changed.dynasties (fun other remaining => ?_) (fun other place elsewhere mapped => ?_)
        (ruled.created id (by simp [found])) fun _ used => used
      · rw [members, Table.get_set] at remaining
        change Function.update state.roleDynastyDict uuid none other = some id
        by_cases same : other = uuid
        · simp [same] at remaining
        · rw [if_neg same] at remaining
          rw [Function.update_of_ne same]
          exact ruled.mapped id dynasty other found remaining
      · have different : other ≠ uuid := by
          rintro rfl
          exact elsewhere (Option.some.inj (mapped.symm.trans own))
        change Function.update state.roleDynastyDict uuid none other = some place
        rw [Function.update_of_ne different]
        exact mapped
  | @forget id dynasty uuid found own missing =>
      refine { ruled with mapped := fun other second role other_found member => ?_ }
      have mapped := ruled.mapped other second role other_found member
      have different : role ≠ uuid := by
        rintro rfl
        cases own.symm.trans mapped
        cases found.symm.trans other_found
        simp [missing] at member
      change Function.update state.roleDynastyDict uuid none role = some other
      rw [Function.update_of_ne different]
      exact mapped
  | @dissolve id dynasty uuid found alone own =>
      have role : state.roleDynastyDict uuid = some id :=
        own.elim (fun mapped => mapped) (ruled.mapped id dynasty uuid found)
      refine ruled.removed (fun other => Table.get_set _ _ _ _)
        (fun other place elsewhere mapped => ?_) rfl
      have different : other ≠ uuid := by
        rintro rfl
        exact elsewhere (Option.some.inj (mapped.symm.trans role))
      change Function.update state.roleDynastyDict uuid none other = some place
      rw [Function.update_of_ne different]
      exact mapped
  | expire allowed id dynasty =>
      exact ruled.removed (fun other => Table.get_set _ _ _ _) (fun _ _ _ mapped => mapped) rfl

/-- As long as no daily refresh replaces a godfather, every dynasty has one godfather and keeps the
limits of the jobs. -/
theorem godfather_unique (labels : List (Label ι υ))
    (steady : Execution.Guarded step (fun state label => ¬ Succeeds state label) initial labels) :
    Execution.Always step OneGodfather initial labels := by
  refine (Execution.always_of_guarded (fun ruled steady taken => ?_) steady initial_ruled).mono
    fun _ ruled => ruled.oneGodfather
  have effects := step_effects taken
  rw [eq_false steady] at effects
  exact effects.invariant (fun ruled effect => effect.ruled ruled) ruled

/-- A dynasty gets a second member, who becomes second chief and then godfather in the place of the
first; both are online when the dynasty is refreshed; the second member kicks the first and quits. -/
def steadyRun : List (Label Nat Nat) :=
  [.create 1 10 "a" [] 100, .apply 2 10 50, .agree 1 2, .login 2, .appoint 1 2 .secondChief,
    .appoint 1 2 .godFather, .dailyRefresh 10 [1, 2] 1, .kick 2 1 1, .quit 2 2]

theorem godfather_unique_steadyRun : Execution.Always step OneGodfather initial steadyRun :=
  godfather_unique steadyRun (by decide)

/-- The godfather of two members goes offline for eight days, and the daily refresh replaces him. -/
def succeededRun : List (Label Nat Nat) :=
  [.create 1 10 "a" [] 100, .apply 2 10 50, .agree 1 2, .join 2 50, .updateRoleInfo 2 (some 1) none,
    .logout 1, .tick (8 * 86400), .dailyRefresh 10 [1, 2] 2]

/-- There are two godfathers. -/
theorem succeededRun_not_unique :
    ¬ ∀ (labels : List (Label Nat Nat)) (state : State Nat Nat),
      Execution.run step initial labels = some state → OneGodfather state := by
  intro claim
  have ends : ∃ state, Execution.run step initial succeededRun = some state ∧
      ∃ dynasty, state.dynastyDict.get 10 = some dynasty ∧
        dynasty.isGodfather 1 ∧ dynasty.isGodfather 2 := by
    exact ⟨_, rfl, _, rfl, rfl, rfl⟩
  obtain ⟨state, execution, dynasty, found, first, second⟩ := ends
  obtain ⟨godfather, unique, -⟩ := (claim succeededRun state execution).godfather 10 dynasty found
  have same := ((unique 1).mp first).trans ((unique 2).mp second).symm
  cases same

end UEServer.DynastyUtils
