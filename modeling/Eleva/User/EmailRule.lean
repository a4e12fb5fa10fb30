import Eleva.Foundation.Errors
import Eleva.User.SetReplacement

/-!
# User - Which emails are taken

The index on the emails of users leaves deleted users out.  The check before a creation or an
update does not: it reads every user of the tenant, and so an email that only deleted users hold
is refused.

Main results:

- Theorem {lit}`createUser_refuses_iff` and {lit}`updateUser_refuses_iff`: a call refuses an
  email exactly when some other user of the tenant holds it, deleted or not.
- Theorem {lit}`email_rule_iff`: the calls follow the index exactly when the email is held by a
  live user or by no deleted one.
- Theorem {lit}`deleted_email_refused`: the email of a deleted user is not given again.
-/

namespace Eleva
namespace UserService

open Foundation Database Auth TableOf

/-! ## Who holds an email -/

/-- The error of an email that is taken. -/
def emailTaken : AppError :=
  .conflict "An account with this email address already exists."

/-- A live user of the tenant, other than the excepted one, holds the email. -/
def HeldByLive (db : Db) (T : Id) (except : Option Id) (email : String) : Prop :=
  ∃ u ∈ db.users, u.tenantId = some T ∧ u.email = email ∧ except ≠ some u.id ∧
    u.deletedAt = none

/-- A deleted user of the tenant, other than the excepted one, holds the email. -/
def HeldByDeleted (db : Db) (T : Id) (except : Option Id) (email : String) : Prop :=
  ∃ u ∈ db.users, u.tenantId = some T ∧ u.email = email ∧ except ≠ some u.id ∧
    u.deletedAt ≠ none

/-- The unique indexes of users: the ids, and the emails of the live users of a tenant. -/
structure UserKeys (db : Db) : Prop where
  ids : (db.users.map (·.id)).Nodup
  emails : ∀ u ∈ db.users, ∀ v ∈ db.users, u.deletedAt = none → v.deletedAt = none →
    u.tenantId.isSome = true → u.tenantId = v.tenantId → u.email = v.email → u.id = v.id

/-- A call follows the rule of the index: it refuses the email exactly when a live user holds
it, and a call that answers keeps the index. -/
structure FollowsIndex (db : Db) (T : Id) (except : Option Id) (email : String)
    (outcome : Except AppError UserResponse × AppState) : Prop where
  refuses : outcome.1 = .error emailTaken ↔ HeldByLive db T except email
  accepts : ∀ r, outcome.1 = .ok r → UserKeys db → UserKeys outcome.2.world.db

/-! ## The check -/

/-- Some user of the tenant, other than the excepted one, holds the email. -/
def taken (db : Db) (T : Id) (except : Option Id) (email : String) : Bool :=
  db.users.any fun u =>
    u.tenantId == some T && (u.email == email && except.all fun id => u.id != id)

theorem taken_iff {db : Db} {T : Id} {except : Option Id} {email : String} :
    taken db T except email = true ↔
      HeldByLive db T except email ∨ HeldByDeleted db T except email := by
  have hexcept : ∀ u : User, (except.all fun id => u.id != id) = true ↔ except ≠ some u.id := by
    intro u
    cases except with
    | none => simp
    | some id =>
        rw [Option.all_some, bne_iff_ne, ne_comm, ne_eq, ne_eq, Option.some_inj]
  simp only [taken, List.any_eq_true, Bool.and_eq_true, beq_iff_eq, hexcept, HeldByLive,
    HeldByDeleted]
  constructor
  · rintro ⟨u, hu, htenant, hemail, hother⟩
    by_cases hlive : u.deletedAt = none
    · exact Or.inl ⟨u, hu, htenant, hemail, hother, hlive⟩
    · exact Or.inr ⟨u, hu, htenant, hemail, hother, hlive⟩
  · rintro (⟨u, hu, htenant, hemail, hother, _⟩ | ⟨u, hu, htenant, hemail, hother, _⟩)
    · exact ⟨u, hu, htenant, hemail, hother⟩
    · exact ⟨u, hu, htenant, hemail, hother⟩

/-- The users that the check of an email looks for. -/
def emailWhere (tenantId : ColumnKey (Option Id)) (except : Option Id) (email : String) :
    Where User where
  tenantId := tenantId
  rest u := u.email == email && except.all fun id => u.id != id

/-- The check reads every user of the tenant. -/
theorem assertEmailFree_apply {env : UserEnv} {S : Option Id} (hctx : env.context.Sees S)
    {tenantId : Id} {email : String} {except : Option Id} (w : World) :
    assertEmailFree env tenantId email except w =
      (if taken w.db (S.getD tenantId) except email then .error emailTaken else .ok (), w) := by
  have hrun := TableOf.run_client_findFirst (t := users) (m := prisma.user)
    (f := emailWhere (ofTenant tenantId) except email) hctx (by decide) rfl w
  rw [inScope_ofTenant S rfl] at hrun
  have hsame : ((users.get w.db).find?
      ((emailWhere (ofTenant (S.getD tenantId)) except email).admits prisma.user)).isSome =
        taken w.db (S.getD tenantId) except email := by
    rw [Bool.eq_iff_iff, List.find?_isSome]
    simp [taken, emailWhere, Where.admits, ofTenant, ColumnKey.admits, TenantRow.tenantId, users,
      prisma.user]
  have hcheck : assertEmailFree env tenantId email except w =
      Fallible.throwIf ((users.get w.db).find?
        ((emailWhere (ofTenant (S.getD tenantId)) except email).admits prisma.user)).isSome
          emailTaken w := Fallible.bind_of_ok hrun
  rw [hcheck, hsame, Fallible.throwIf]
  split <;> rfl

/-! ## The errors of the other statements -/

/-- An error other than a conflict. -/
def NoConflict (e : AppError) : Prop :=
  ∀ message, e ≠ .conflict message

theorem not_noConflict_emailTaken : ¬NoConflict emailTaken :=
  fun h => h _ rfl

section Errors

variable {α : Type}

/-- The errors of a statement are errors of the client. -/
theorem run_noConflict {Row : Type} [DecidableEq Row] (t : TableOf Row)
    (x : Fallible (Store Row) ClientError α) : Fallible.ThrowsOnly NoConflict (t.run x) := by
  intro w e h message
  rcases hrun : t.run x w with ⟨e' | a, w'⟩
  · rw [hrun] at h
    cases h
    unfold TableOf.run at hrun
    split at hrun
    · cases hrun
      rintro ⟨⟩
    · split at hrun
      · cases hrun
      · cases hrun
        rintro ⟨⟩
  · rw [hrun] at h
    cases h

theorem inDatabase_throwsOnlyAt {E : AppError → Prop} {x : Service α} {s : AppState}
    (hx : Fallible.ThrowsOnlyAt E x s.world) : Fallible.ThrowsOnlyAt E (inDatabase x) s :=
  fun e h => hx e h

theorem inTransaction_throwsOnlyAt {E : AppError → Prop} (env : UserEnv) {x : AppService α}
    {s : AppState} (hfailure : E .failure) (hx : Fallible.ThrowsOnlyAt E x s) :
    Fallible.ThrowsOnlyAt E (inTransaction env x) s := by
  intro e h
  unfold inTransaction at h
  rcases hrun : x s with ⟨e' | a, s'⟩
  · rw [hrun] at h
    cases h
    exact hx e (by rw [hrun])
  · rw [hrun] at h
    simp only at h
    split at h
    · cases h
      exact hfailure
    · cases h

theorem attempt_throwsOnly {E : AppError → Prop} (fails : Bool) {x : Service α}
    (hfailure : E .failure) (hx : Fallible.ThrowsOnly E x) :
    Fallible.ThrowsOnly E (attempt fails x) :=
  .bind (.throwIf _ hfailure) fun _ => hx

variable (env : UserEnv) (tenantId : Id)

theorem findOne_noConflict (id : Id) :
    Fallible.ThrowsOnly NoConflict (findOne env id tenantId) := by
  refine .bind (run_noConflict _ _) fun user => ?_
  cases user with
  | none => exact .throw fun _ => by rintro ⟨⟩
  | some user => exact .reads_ok _

theorem resolveRoleIds_noConflict (roleNames : List String) :
    Fallible.ThrowsOnly NoConflict (resolveRoleIds env tenantId roleNames) :=
  .ite (.pure _) (.bind (run_noConflict _ _) fun _ =>
    .bind (.throwIf _ fun _ => by rintro ⟨⟩) fun _ => .pure _)

theorem assertBranchesInTenant_noConflict (branchIds : List Id) :
    Fallible.ThrowsOnly NoConflict (assertBranchesInTenant env tenantId branchIds) :=
  .ite (.pure _) (.bind (run_noConflict _ _) fun _ =>
    .bind (.throwIf _ fun _ => by rintro ⟨⟩) fun _ => .pure _)

theorem write_noConflict (write : UserWrite) :
    Fallible.ThrowsOnly NoConflict (write.run env) := by
  cases write with
  | create tenantId data => exact run_noConflict _ _
  | update id data => exact run_noConflict _ _

theorem writeUser_noConflict (id : Id) (data : Option UserData) :
    Fallible.ThrowsOnly NoConflict (writeUser env id data) := by
  cases data with
  | none => exact .pure _
  | some data => exact .bind (write_noConflict env _) fun _ => .pure _

theorem updateRoles_noConflict (dto : UpdateUserRequestDto) (current : UserResponse) :
    Fallible.ThrowsOnly NoConflict (updateRoles env tenantId dto current) := by
  unfold updateRoles
  cases dto.roles with
  | none => exact .pure _
  | some names =>
      exact .bind (resolveRoleIds_noConflict env tenantId names) fun _ =>
        .bind (run_noConflict _ _) fun _ => .pure _

theorem updateBranches_noConflict (dto : UpdateUserRequestDto) (current : UserResponse) :
    Fallible.ThrowsOnly NoConflict (updateBranches env tenantId dto current) := by
  unfold updateBranches
  cases dto.branchIds with
  | none => exact .pure _
  | some ids =>
      exact .bind (assertBranchesInTenant_noConflict env tenantId ids) fun _ => .pure _

theorem revokeSessions_noConflict (id : Id) :
    Fallible.ThrowsOnly NoConflict (revokeSessions env id) := by
  refine .ite (.throw fun _ => by rintro ⟨⟩) ?_
  intro s e h message
  have hrevoke : (revokeAllUserTokens (env.spelling id) s.sessions).1 = .error e := h
  unfold revokeAllUserTokens at hrevoke
  split at hrevoke
  · cases hrevoke
  · split at hrevoke
    · cases hrevoke
    · cases hrevoke
      rintro ⟨⟩

end Errors

/-! ## The calls -/

section Calls

variable {rt : Runtime} {env : UserEnv} {S : Option Id} (hctx : env.context.Sees S)
  {tenantId : Id} (hnonempty : tenantId ≠ "") {actor : ActorContext} {s : AppState}

include hctx hnonempty

/-- A creation whose roles may be granted refuses an email exactly when some user of the tenant
holds it, deleted or not. -/
theorem createUser_refuses_iff {dto : CreateUserRequestDto}
    (hgranted : (assertCanGrantRoles env tenantId (dto.roles.getD []) actor s.world).1 = .ok ()) :
    (createUser rt env dto (some tenantId) actor s).1 = .error emailTaken ↔
      taken s.world.db (S.getD tenantId) none (rt.normalizedEmail dto.email) = true := by
  have htenant : assertTenant (some tenantId) s = (.ok tenantId, s) :=
    assertTenant_eq_ok.mpr ⟨rfl, hnonempty, rfl⟩
  have hgrant := inDatabase_of_keeps
    (fun {_} => assertCanGrantRoles_keeps env tenantId (dto.roles.getD []) actor) s
  rw [hgranted] at hgrant
  have hcheck : assertEmailFree env tenantId (rt.normalizedEmail dto.email) none s.world =
      (if taken s.world.db (S.getD tenantId) none (rt.normalizedEmail dto.email) then
        .error emailTaken else .ok (), s.world) := assertEmailFree_apply hctx s.world
  unfold createUser
  rw [Fallible.bind_of_ok htenant, Fallible.bind_of_ok hgrant]
  cases htaken : taken s.world.db (S.getD tenantId) none (rt.normalizedEmail dto.email) with
  | true =>
      rw [htaken, if_pos rfl] at hcheck
      have hinsert : insertUser rt env dto tenantId s.world = (.error emailTaken, s.world) := by
        have hprepare : prepareUser rt env dto tenantId s.world =
            (.error emailTaken, s.world) := Fallible.bind_of_error hcheck
        unfold insertUser Fallible.transaction
        rw [Fallible.bind_of_error hprepare]
      have hdone : inDatabase (insertUser rt env dto tenantId) s = (.error emailTaken, s) := by
        unfold inDatabase
        rw [hinsert]
      rw [Fallible.bind_of_error hdone]
      simp
  | false =>
      rw [htaken, if_neg Bool.false_ne_true] at hcheck
      have hprepare : Fallible.ThrowsOnlyAt NoConflict (prepareUser rt env dto tenantId)
          s.world :=
        .bind (.of_ok hcheck) fun _ w' _ =>
          (resolveRoleIds_noConflict env tenantId (dto.roles.getD []) |>.bind fun _ =>
            (assertBranchesInTenant_noConflict env tenantId _).bind fun _ => .pure _) w'
      have hinsert : Fallible.ThrowsOnlyAt NoConflict (insertUser rt env dto tenantId) s.world :=
        .transaction (hprepare.bind fun data w' _ =>
          ((write_noConflict env _).bind fun _ =>
            attempt_throwsOnly _ (fun _ => by rintro ⟨⟩) (.pure _)) w')
      have hall : Fallible.ThrowsOnlyAt NoConflict (do
          let created ← inDatabase (insertUser rt env dto tenantId)
          inDatabase (findOne env ((created.map (·.id)).getD "") tenantId)) s :=
        .bind (inDatabase_throwsOnlyAt hinsert) fun _ s' _ =>
          inDatabase_throwsOnlyAt (findOne_noConflict env tenantId _ s'.world)
      simp only [Bool.false_eq_true, iff_false]
      exact hall.ne_error not_noConflict_emailTaken

/-- What an update checks before the email passes. -/
structure ReachesEmail (env : UserEnv) (tenantId id : Id) (dto : UpdateUserRequestDto)
    (actor : ActorContext) (w : World) (current : UserResponse) : Prop where
  granted : (assertCanGrant env tenantId dto.roles actor w).1 = .ok ()
  found : (findOne env id tenantId w).1 = .ok current
  guarded : (runGuards env tenantId id current.roles dto.guards w).1 = .ok ()

/-- An update that reaches the check refuses an email exactly when some other user of the tenant
holds it, deleted or not. -/
theorem updateUser_refuses_iff {id : Id} {dto : UpdateUserRequestDto} {current : UserResponse}
    {email : String} (hemail : dto.email = some email) (hgiven : email ≠ "")
    (hreaches : ReachesEmail env tenantId id dto actor s.world current) :
    (updateUser rt env id dto (some tenantId) actor s).1 = .error emailTaken ↔
      taken s.world.db (S.getD tenantId) (some id) (rt.normalizedEmail email) = true := by
  have htenant : assertTenant (some tenantId) s = (.ok tenantId, s) :=
    assertTenant_eq_ok.mpr ⟨rfl, hnonempty, rfl⟩
  have hgrant := inDatabase_of_keeps
    (fun {_} => assertCanGrant_keeps env tenantId dto.roles actor) s
  rw [hreaches.granted] at hgrant
  have hfind := inDatabase_of_keeps (fun {_} => findOne_keeps env tenantId id) s
  rw [hreaches.found] at hfind
  have hguards := inDatabase_of_keeps
    (fun {_} => runGuards_keeps env tenantId id current.roles dto.guards) s
  rw [hreaches.guarded] at hguards
  have hcheck : assertNewEmailFree rt env tenantId id dto s.world =
      (if taken s.world.db (S.getD tenantId) (some id) (rt.normalizedEmail email) then
        .error emailTaken else .ok (), s.world) := by
    unfold assertNewEmailFree
    rw [hemail, if_pos (by simpa [truthy] using hgiven)]
    exact assertEmailFree_apply hctx s.world
  unfold updateUser
  rw [Fallible.bind_of_ok htenant, Fallible.bind_of_ok hgrant, Fallible.bind_of_ok hfind]
  cases htaken : taken s.world.db (S.getD tenantId) (some id) (rt.normalizedEmail email) with
  | true =>
      rw [htaken, if_pos rfl] at hcheck
      have hstatements : updateStatements rt env tenantId id dto current s.world =
          (.error emailTaken, s.world) := Fallible.bind_of_error hcheck
      have hdone : inDatabase (updateStatements rt env tenantId id dto current) s =
          (.error emailTaken, s) := by
        unfold inDatabase
        rw [hstatements]
      have htx : updateTransaction rt env tenantId id dto current s = (.error emailTaken, s) :=
        (Fallible.bind_of_ok hguards).trans (Fallible.bind_of_error hdone)
      have hended : inTransaction env (updateTransaction rt env tenantId id dto current) s =
          (.error emailTaken, s) := by
        unfold inTransaction
        rw [htx]
      rw [Fallible.bind_of_error hended]
      simp
  | false =>
      rw [htaken, if_neg Bool.false_ne_true] at hcheck
      have hstatements : Fallible.ThrowsOnlyAt NoConflict
          (updateStatements rt env tenantId id dto current) s.world :=
        .bind (.of_ok hcheck) fun _ w' _ =>
          ((writeUser_noConflict env id _).bind fun _ =>
            (updateRoles_noConflict env tenantId dto current).bind fun _ =>
              (writeUser_noConflict env id _).bind fun _ =>
                (updateBranches_noConflict env tenantId dto current).bind fun _ =>
                  writeUser_noConflict env id _) w'
      have htx : Fallible.ThrowsOnlyAt NoConflict
          (updateTransaction rt env tenantId id dto current) s := by
        refine .bind (.of_ok hguards) fun _ s₁ hran => ?_
        rw [hguards] at hran
        cases hran
        exact .bind (inDatabase_throwsOnlyAt hstatements) fun _ s₂ _ =>
          (.ite (revokeSessions_noConflict env id) (.pure _) :
            Fallible.ThrowsOnly NoConflict _) s₂
      have hall : Fallible.ThrowsOnlyAt NoConflict (do
          inTransaction env (updateTransaction rt env tenantId id dto current)
          inDatabase (findOne env id tenantId)) s :=
        .bind (inTransaction_throwsOnlyAt env (fun _ => by rintro ⟨⟩) htx) fun _ s' _ =>
          inDatabase_throwsOnlyAt (findOne_noConflict env tenantId _ s'.world)
      simp only [Bool.false_eq_true, iff_false]
      exact hall.ne_error not_noConflict_emailTaken

end Calls

/-! ## The index -/

section Index

variable {rt : Runtime} {env : UserEnv} {S : Option Id} (hctx : env.context.Sees S)
  {tenantId : Id} {actor : ActorContext} {s s' : AppState} {r : UserResponse}

include hctx

/-- A creation has inserted a user of the tenant with an email that nobody of the tenant held. -/
theorem insertUser_email {dto : CreateUserRequestDto} {created : User} {w w' : World}
    (h : insertUser rt env dto tenantId w = (.ok (some created), w')) :
    taken w.db (S.getD tenantId) none (rt.normalizedEmail dto.email) = false ∧
      created.tenantId = some (S.getD tenantId) ∧
      created.email = rt.normalizedEmail dto.email ∧
      w'.db.users = w.db.users ++ [created] ∧ (w'.db.users.map (·.id)).Nodup := by
  rcases insertUser_eq_ok h with
    ⟨S', roleIds, branchIds, _, hctx', ⟨⟩, hrow, hcheck, _, _, hworld, hids⟩
  cases hctx'.unique hctx
  have hfree : taken w.db (S.getD tenantId) none (rt.normalizedEmail dto.email) = false := by
    rw [assertEmailFree_apply hctx] at hcheck
    cases htaken : taken w.db (S.getD tenantId) none (rt.normalizedEmail dto.email) with
    | false => rfl
    | true =>
        rw [htaken] at hcheck
        cases hcheck
  have husers : w'.db.users = w.db.users ++ [created] := by rw [hworld]
  refine ⟨hfree, by rw [hrow]; rfl, by rw [hrow]; rfl, husers, ?_⟩
  rw [husers]
  exact hids

/-- A creation that answers keeps the index. -/
theorem createUser_keepsKeys {dto : CreateUserRequestDto} (hkeys : UserKeys s.world.db)
    (h : createUser rt env dto (some tenantId) actor s = (.ok r, s')) :
    UserKeys s'.world.db := by
  rcases createUser_runs rt env dto (some tenantId) actor s with ⟨e, s₁, hthrew, _⟩ |
    ⟨T, created, s₁, hinput, _, hinsert, hrun⟩
  · rw [hthrew] at h
    cases h
  cases hinput
  rw [hrun] at h
  have hs' : s₁ = s' := congrArg Prod.snd h
  rw [hs'] at hinsert
  rcases insertUser_email hctx hinsert with ⟨hfree, hplace, hemail, husers, hids⟩
  have hunheld : ∀ u ∈ s.world.db.users, u.tenantId = some (S.getD tenantId) →
      u.email ≠ rt.normalizedEmail dto.email := by
    intro u hu htenantId hsame
    have hnot := List.any_eq_false.mp hfree u hu
    simp [htenantId, hsame] at hnot
  refine ⟨hids, ?_⟩
  rw [husers]
  intro u hu v hv hulive hvlive hsome htenants hemails
  rcases List.mem_append.mp hu with hu | hu
  · rcases List.mem_append.mp hv with hv | hv
    · exact hkeys.emails u hu v hv hulive hvlive hsome htenants hemails
    · rw [List.mem_singleton.mp hv] at htenants hemails
      exact absurd (hemails.trans hemail) (hunheld u hu (htenants.trans hplace))
  · rcases List.mem_append.mp hv with hv | hv
    · rw [List.mem_singleton.mp hu] at htenants hemails
      exact absurd (hemails.symm.trans hemail) (hunheld v hv (htenants.symm.trans hplace))
    · rw [List.mem_singleton.mp hu, List.mem_singleton.mp hv]

omit hctx in
/-- The index after one user, whose new email nobody else of its tenant holds, was rewritten. -/
theorem UserKeys.rewritten {db : Db} (hkeys : UserKeys db) {T id : Id} {email : String}
    {f : User → User} (hplace : KeepsPlace f) (hemail : ∀ u, (f u).email = email)
    (hunheld : ∀ u ∈ db.users, u.tenantId = some T → u.id ≠ id → u.email ≠ email)
    (htenant : ∀ u ∈ db.users, ownRow S id u = true → u.id = id ∧ u.tenantId = some T) :
    UserKeys { db with users := db.users.map fun u => if ownRow S id u then f u else u } := by
  have hrow : ∀ u, (if ownRow S id u then f u else u).id = u.id ∧
      (if ownRow S id u then f u else u).tenantId = u.tenantId ∧
      (if ownRow S id u then f u else u).deletedAt = u.deletedAt := by
    intro u
    split
    · exact ⟨hplace.id u, hplace.tenantId u, hplace.deletedAt u⟩
    · exact ⟨rfl, rfl, rfl⟩
  refine ⟨?_, ?_⟩
  · have hids : (db.users.map fun u => if ownRow S id u then f u else u).map (·.id) =
        db.users.map (·.id) := by
      rw [List.map_map]
      exact List.map_congr_left fun u _ => (hrow u).1
    rw [hids]
    exact hkeys.ids
  · intro u' hu' v' hv'
    rcases List.mem_map.mp hu' with ⟨u, hu, rfl⟩
    rcases List.mem_map.mp hv' with ⟨v, hv, rfl⟩
    rw [(hrow u).1, (hrow u).2.1, (hrow u).2.2, (hrow v).1, (hrow v).2.1, (hrow v).2.2]
    intro hulive hvlive hsome htenants hemails
    by_cases hu_own : ownRow S id u = true
    · rcases htenant u hu hu_own with ⟨huid, hutenant⟩
      by_cases hv_own : ownRow S id v = true
      · exact huid.trans (htenant v hv hv_own).1.symm
      · rw [if_pos hu_own, if_neg hv_own, hemail] at hemails
        by_contra hne
        exact hunheld v hv (htenants ▸ hutenant) (fun hvid => hne (huid.trans hvid.symm))
          hemails.symm
    · by_cases hv_own : ownRow S id v = true
      · rcases htenant v hv hv_own with ⟨hvid, hvtenant⟩
        rw [if_neg hu_own, if_pos hv_own, hemail] at hemails
        by_contra hne
        exact hunheld u hu (htenants.trans hvtenant) (fun huid => hne (huid.trans hvid.symm))
          hemails
      · rw [if_neg hu_own, if_neg hv_own] at hemails
        exact hkeys.emails u hu v hv hulive hvlive hsome htenants hemails

/-- The statements of an update give the user the email that it names, if it names one; where
they check it, nobody else of the tenant holds it. -/
theorem updateStatements_email {id : Id} {dto : UpdateUserRequestDto} {current : UserResponse}
    {w w' : World} (h : updateStatements rt env tenantId id dto current w = (.ok (), w')) :
    (∀ email, dto.email = some email → email ≠ "" →
      taken w.db (S.getD tenantId) (some id) (rt.normalizedEmail email) = false) ∧
    ∃ f, KeepsPlace f ∧ OwnWrite S id f w w' ∧
      ∀ u, (f u).email = (dto.email.map rt.normalizedEmail).getD u.email := by
  rcases updateStatements_parts hctx h with
    ⟨newRoles, newBranches, w₂, w₄, hroles, _, hbranches, _, hwrite⟩
  constructor
  · intro email hemail hgiven
    rcases Fallible.bind_eq_ok.mp h with ⟨_, w₁, hcheck, _⟩
    unfold assertNewEmailFree at hcheck
    rw [hemail, if_pos (by simpa [truthy] using hgiven), Option.getD_some,
      assertEmailFree_apply hctx] at hcheck
    cases htaken : taken w.db (S.getD tenantId) (some id) (rt.normalizedEmail email) with
    | false => rfl
    | true =>
        rw [htaken] at hcheck
        cases hcheck
  · refine ⟨_, (updateBranches_ok hbranches).1.comp ((updateRoles_ok hroles).1.comp
      (columnsData_keeps rt env dto).1), hwrite, fun u => ?_⟩
    have hcolumn : (requestedColumns rt env dto u).email =
        (dto.email.map rt.normalizedEmail).getD u.email := rfl
    rw [(updateBranches_exact hbranches).1, columnsData_requested]
    cases hnames : dto.roles with
    | none =>
        rw [(updateRoles_exchange hctx hroles).1 hnames]
        exact hcolumn
    | some names =>
        rw [((updateRoles_exchange hctx hroles).2 names hnames).1]
        exact hcolumn

/-- An update that names an email and answers keeps the index. -/
theorem updateUser_keepsKeys {id : Id} {dto : UpdateUserRequestDto} {email : String}
    (hemail : dto.email = some email) (hgiven : email ≠ "") (hkeys : UserKeys s.world.db)
    (h : updateUser rt env id dto (some tenantId) actor s = (.ok r, s')) :
    UserKeys s'.world.db := by
  rcases updateUser_runs rt env id dto (some tenantId) actor s with ⟨e, s₁, hthrew, _⟩ |
    ⟨r', s₁, T, S', user, hrun, _, hinput, hctx', huser, rfl, hplace, _, _, htx⟩
  · rw [hthrew] at h
    cases h
  rw [hrun] at h
  cases h
  cases hinput
  cases hctx'.unique hctx
  rcases updateStatements_email hctx (updateTransaction_ok htx) with
    ⟨hchecked, f, hkeeps, hwrite, hset⟩
  have hfree := hchecked email hemail hgiven
  have hnamed : ∀ u, (f u).email = rt.normalizedEmail email := by
    intro u
    rw [hset, hemail]
    rfl
  rw [show s'.world = _ from hwrite]
  refine hkeys.rewritten (T := S.getD tenantId) hkeeps hnamed ?_ ?_
  · intro u hu htenantId hother hsame
    have hnot := List.any_eq_false.mp hfree u hu
    simp [htenantId, hsame, hother] at hnot
  · intro u hu hown
    simp only [ownRow, Bool.and_eq_true, beq_iff_eq, TenantRow.id] at hown
    have hsame := List.inj_on_of_nodup_map hkeys.ids hu huser hown.1.symm
    exact ⟨hown.1.symm, hsame ▸ hplace⟩

end Index

/-! ## The rule -/

/-- Refusing what is taken is refusing what a live user holds exactly when no email is held by
deleted users only. -/
theorem taken_eq_live_iff {db : Db} {T : Id} {except : Option Id} {email : String} :
    (taken db T except email = true ↔ HeldByLive db T except email) ↔
      (HeldByLive db T except email ∨ ¬HeldByDeleted db T except email) := by
  rw [taken_iff]
  tauto

/-- Creations and updates follow the index, in their refusals and in what they store, exactly
when the email is held by a live user of the tenant or by no deleted one.  A creation has passed
the check of its roles, and an update, of another user, the checks before that of the email. -/
theorem email_rule_iff (rt : Runtime) (env : UserEnv) (S : Option Id)
    (hctx : env.context.Sees S) (tenantId : Id) (hnonempty : tenantId ≠ "")
    (actor : ActorContext) (s : AppState) :
    (∀ dto : CreateUserRequestDto,
      (assertCanGrantRoles env tenantId (dto.roles.getD []) actor s.world).1 = .ok () →
      (FollowsIndex s.world.db (S.getD tenantId) none (rt.normalizedEmail dto.email)
          (createUser rt env dto (some tenantId) actor s) ↔
        HeldByLive s.world.db (S.getD tenantId) none (rt.normalizedEmail dto.email) ∨
          ¬HeldByDeleted s.world.db (S.getD tenantId) none (rt.normalizedEmail dto.email))) ∧
    ∀ (id : Id) (dto : UpdateUserRequestDto) (email : String) (current : UserResponse),
      dto.email = some email → email ≠ "" →
      ReachesEmail env tenantId id dto actor s.world current →
      (FollowsIndex s.world.db (S.getD tenantId) (some id) (rt.normalizedEmail email)
          (updateUser rt env id dto (some tenantId) actor s) ↔
        HeldByLive s.world.db (S.getD tenantId) (some id) (rt.normalizedEmail email) ∨
          ¬HeldByDeleted s.world.db (S.getD tenantId) (some id) (rt.normalizedEmail email)) := by
  constructor
  · intro dto hgranted
    have hrefuses : (createUser rt env dto (some tenantId) actor s).1 = .error emailTaken ↔
        taken s.world.db (S.getD tenantId) none (rt.normalizedEmail dto.email) = true :=
      createUser_refuses_iff hctx hnonempty hgranted
    rw [← taken_eq_live_iff]
    constructor
    · intro h
      exact hrefuses.symm.trans h.refuses
    · intro h
      refine ⟨hrefuses.trans h, fun r hr hkeys => ?_⟩
      exact createUser_keepsKeys hctx hkeys (Prod.ext hr rfl)
  · intro id dto email current hemail hgiven hreaches
    have hrefuses : (updateUser rt env id dto (some tenantId) actor s).1 = .error emailTaken ↔
        taken s.world.db (S.getD tenantId) (some id) (rt.normalizedEmail email) = true :=
      updateUser_refuses_iff hctx hnonempty hemail hgiven hreaches
    rw [← taken_eq_live_iff]
    constructor
    · intro h
      exact hrefuses.symm.trans h.refuses
    · intro h
      refine ⟨hrefuses.trans h, fun r hr hkeys => ?_⟩
      exact updateUser_keepsKeys hctx hemail hgiven hkeys (Prod.ext hr rfl)

/-! ## A cook that has left -/

/-- A cook, and another one that was deleted. -/
def formerCookState : AppState where
  world := {
    db := { twoRolesDb with
      users := [cookAtTwo, { cookAtTwo with
        id := "former", email := "bea@soups.example", roleIds := [], branchIds := []
        deletedAt := some 1767225600000 }] } }
  sessions := cookStaff.sessions

def ownerEnv : UserEnv :=
  { toEnv := managerEnv.toEnv }

def soupOwner : ActorContext where
  id := "owner"
  roles := ["RESTAURANT_OWNER"]
  permissions := []

theorem ownerEnv_sees : ownerEnv.context.Sees (some "tenant-a") :=
  ⟨rfl, by decide⟩

/-- A new user with an email. -/
def newUserWith (email : String) : CreateUserRequestDto where
  firstName := "Bea"
  lastName := "Cook"
  email := email
  password := "basilico"

/-- An email that only a deleted user holds is given neither to a new user nor to another one. -/
theorem deleted_email_refused :
    ¬HeldByLive formerCookState.world.db "tenant-a" none "bea@soups.example" ∧
    (createUser plainRuntime ownerEnv (newUserWith "bea@soups.example") (some "tenant-a")
      soupOwner formerCookState).1 = .error emailTaken ∧
    (updateUser plainRuntime ownerEnv "cook" { email := some "bea@soups.example" }
      (some "tenant-a") soupOwner formerCookState).1 = .error emailTaken := by
  refine ⟨?_, by decide +kernel, by decide +kernel⟩
  rintro ⟨u, hu, _, hemail, _, hlive⟩
  have hheld : ∀ v ∈ formerCookState.world.db.users, v.email = "bea@soups.example" →
      v.deletedAt ≠ none := by decide
  exact hheld u hu hemail hlive

/-- A new email is given to a new user and to another one, in the letters of its lower case. -/
theorem new_email_follows :
    FollowsIndex formerCookState.world.db "tenant-a" none "mia@soups.example"
        (createUser plainRuntime ownerEnv (newUserWith " Mia@soups.example") (some "tenant-a")
          soupOwner formerCookState) ∧
      FollowsIndex formerCookState.world.db "tenant-a" (some "cook") "mia@soups.example"
        (updateUser plainRuntime ownerEnv "cook" { email := some "Mia@soups.example " }
          (some "tenant-a") soupOwner formerCookState) := by
  have hfree : ∀ except, ¬HeldByDeleted formerCookState.world.db "tenant-a" except
      "mia@soups.example" := by
    rintro except ⟨u, hu, _, hemail, _⟩
    have hheld : ∀ v ∈ formerCookState.world.db.users, v.email ≠ "mia@soups.example" := by decide
    exact hheld u hu hemail
  have hspaced : plainRuntime.normalizedEmail " Mia@soups.example" = "mia@soups.example" := by
    decide +kernel
  have hspaced' : plainRuntime.normalizedEmail "Mia@soups.example " = "mia@soups.example" := by
    decide +kernel
  have hrule := email_rule_iff plainRuntime ownerEnv (some "tenant-a") ownerEnv_sees "tenant-a"
    (by decide) soupOwner formerCookState
  have hcreate := hrule.1 (newUserWith " Mia@soups.example") (by decide +kernel)
  have hupdate := hrule.2 "cook" { email := some "Mia@soups.example " } _
    (toResponse formerCookState.world.db cookAtTwo) rfl (by decide)
    ⟨by decide +kernel, by decide +kernel, by decide +kernel⟩
  rw [hspaced'] at hupdate
  have hsame : (newUserWith " Mia@soups.example").email = " Mia@soups.example" := rfl
  rw [hsame, hspaced] at hcreate
  exact ⟨hcreate.mpr (Or.inr (hfree none)), hupdate.mpr (Or.inr (hfree (some "cook")))⟩

end UserService
end Eleva
