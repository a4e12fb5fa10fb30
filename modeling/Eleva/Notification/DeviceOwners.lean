import Eleva.Notification.DeviceTokens

/-!
# Notification - A device stays with its user

Registrations, listings, deletions and push messages, in every order of their statements.  A
device that no call removes stays registered with the user who registered it, and only this
user's push messages go to it.

Main results:

- Theorems {lit}`update_keeps` and {lit}`delete_keeps`: what a write in one tenant does to a
  device.
- Theorem {lit}`program_fine`: what a call keeps and returns, whatever the others do.
- Theorem {lit}`device_kept`: every interleaving of any calls.
-/

namespace Eleva
namespace DeviceTokenService

open Foundation Database

/-! ## Calls -/

/-- A request to the service. -/
inductive DeviceRequest where
  | register (dto : CreateDeviceTokenRequestDto) (tenantId requesterUserId : Id)
  | list (tenantId : Id) (userId : Option Id)
  | delete (id tenantId requesterUserId : Id)
  | push (fcm : FcmService) (pruning : List ℕ) (tenantId userId : Id) (title body : String)
      (data : Option Notification.Payload)

/-- What a request returns. -/
inductive DeviceAnswer where
  | registered (token : Option TokenResponse)
  | listed (tokens : List TokenResponse)
  | deleted (deletion : TokenDeletion)
  | pushed (result : PushResult)

structure DeviceCall where
  env : DeviceEnv
  request : DeviceRequest

/-- The steps of a call. -/
def DeviceCall.program (call : DeviceCall) : DeviceSteps DeviceAnswer :=
  match call.request with
  | .register dto tenantId requesterUserId =>
      registerToken call.env dto tenantId requesterUserId >>= fun token =>
        pure (.registered token)
  | .list tenantId userId =>
      listTokens call.env tenantId userId >>= fun tokens => pure (.listed tokens)
  | .delete id tenantId requesterUserId =>
      deleteToken call.env id tenantId requesterUserId >>= fun deletion =>
        pure (.deleted deletion)
  | .push fcm pruning tenantId userId title body data =>
      sendPushNotification call.env fcm pruning tenantId userId title body data >>= fun result =>
        pure (.pushed result)

/-- The tokens that a call returned, or sent a message to. -/
def DeviceAnswer.tokens : DeviceAnswer → List String
  | .registered _ => []
  | .listed tokens => tokens.map fun t => t.token
  | .deleted _ => []
  | .pushed result => (result.payloads.getD []).map fun message => message.token

/-- A call registers the device for its user in its tenant, with this type. -/
def DeviceCall.Registers (call : DeviceCall) (d : DeviceToken) (deviceType : String) : Prop :=
  match call.request with
  | .register dto tenantId requesterUserId =>
      tenantId = d.tenantId ∧ dto.token = d.token ∧
        registeredFor dto requesterUserId = d.userId ∧ dto.deviceType = deviceType
  | _ => False

/-- A listing in a tenant, for a user if it names one, is about the device's user. -/
def Reaches (tenantId : Id) (userId : Option Id) (d : DeviceToken) : Prop :=
  tenantId = d.tenantId ∧ (userId.getD "" = "" ∨ userId = some d.userId)

/-- A call reads the devices of the device's user. -/
def DeviceCall.Reads (call : DeviceCall) (d : DeviceToken) : Prop :=
  match call.request with
  | .list tenantId userId => Reaches tenantId userId d
  | .push _ _ tenantId userId _ _ _ => Reaches tenantId (some userId) d
  | _ => False

/-- A call may remove the device: it deletes it by its id, or it sends a message to its user and
the provider reports its token as no longer registered. -/
def DeviceCall.Removes (call : DeviceCall) (d : DeviceToken) : Prop :=
  match call.request with
  | .delete id tenantId _ => id = d.id ∧ tenantId = d.tenantId
  | .push fcm _ tenantId userId title body data =>
      Reaches tenantId (some userId) d ∧ ∃ tokens, some d.token ∈
        (fcm.sendPush tokens title body (pushData tenantId data)).unregisteredTokens
  | _ => False

/-- The notification mirrors the call's message. -/
def DeviceCall.Mirrors (call : DeviceCall) (n : Notification) : Prop :=
  match call.request with
  | .push _ _ tenantId userId title body _ =>
      n.tenantId = tenantId ∧ n.recipientType = "USER" ∧ n.recipientId = userId ∧
        n.title = title ∧ n.body = body ∧ n.type = "push" ∧ n.isRead = false
  | _ => False

/-! ## What the statements find and write -/

section Rows

variable {env : DeviceEnv} {tenantId : Id} {db : Store DeviceToken}

theorem inTenant_sees (h : tenantId ≠ "") :
    (env.inTenant tenantId).context.Sees (some tenantId) :=
  ⟨rfl, h⟩

/-- Without a tenant every look-up is refused. -/
theorem getTenantId_empty :
    BaseTenantRepository.getTenantId (env.inTenant "").context = .error missingTenantError := by
  simp [BaseTenantRepository.getTenantId, DeviceEnv.inTenant, truthy]

theorem scopedWhere_device (h : tenantId ≠ "") (w : Where DeviceToken)
    (r : DeviceToken) :
    (deviceTokenRepository.scopedWhere w (some tenantId)).admits deviceTokenRepository.delegate r =
      (w.id.all (fun id => id == r.id) && r.tenantId == tenantId && w.rest r) := by
  rw [BaseTenantRepository.scopedWhere_admits h]
  simp [deviceTokenRepository, Where.admits, Where.withTenant, ColumnKey.admits, TenantRow.id,
    TenantRow.tenantId]

/-- A listing returns what the filter takes of the tenant's devices, up to the cap. -/
theorem findMany_listed {rest : DeviceToken → Bool} {found : List DeviceToken}
    (h : (deviceTokenRepository.findMany (env.inTenant tenantId) { rest := rest } {} db).1 =
      .ok found) :
    found = (db.rows.filter fun r => r.tenantId == tenantId && rest r).take
      BaseTenantRepository.DEFAULT_MAX_ROWS := by
  by_cases htenant : tenantId = ""
  · subst htenant
    unfold BaseTenantRepository.findMany at h
    rw [getTenantId_empty] at h
    cases h
  · rw [BaseTenantRepository.findMany_apply (inTenant_sees htenant) (by decide)
      (BaseTenantRepository.known_of_absent _ (by decide) rfl)] at h
    cases h
    congr 2
    funext r
    rw [scopedWhere_device htenant]
    simp

/-- A look-up by its id finds a device of the tenant. -/
theorem findFirst_found {id : Id} {r : DeviceToken}
    (h : (deviceTokenRepository.findFirst (env.inTenant tenantId) { id := some id } db).1 =
      .ok (some r)) : tenantId ≠ "" ∧ r ∈ db.rows ∧ r.id = id ∧ r.tenantId = tenantId := by
  by_cases htenant : tenantId = ""
  · subst htenant
    unfold BaseTenantRepository.findFirst at h
    rw [getTenantId_empty] at h
    cases h
  · rw [BaseTenantRepository.findFirst_apply (inTenant_sees htenant) (by decide)
      (BaseTenantRepository.known_of_absent _ (by decide) rfl)] at h
    have hfound := Except.ok.inj h
    have hholds := List.find?_some hfound
    rw [scopedWhere_device htenant] at hholds
    simp only [Option.all_some, Bool.and_true, Bool.and_eq_true, beq_iff_eq] at hholds
    exact ⟨htenant, List.mem_of_find?_eq_some hfound, hholds.1.symm, hholds.2⟩

/-- A creation leaves the devices. -/
theorem create_keeps_rows {data : Payload DeviceToken} (hnested : data.nested = {})
    (htenantId : data.tenantId = none) {r : DeviceToken} (hr : r ∈ db.rows) :
    r ∈ (deviceTokenRepository.create (env.inTenant tenantId) data db).2.rows := by
  by_cases htenant : tenantId = ""
  · subst htenant
    unfold BaseTenantRepository.create
    rw [getTenantId_empty]
    exact hr
  · rw [BaseTenantRepository.create_apply _ (inTenant_sees htenant) (by decide) hnested
      (by rw [htenantId]; rfl)]
    split
    · exact List.mem_append_left _ hr
    · exact hr

/-- The rows that an update or a deletion by an id in a tenant is about. -/
def matching (tenantId id : Id) : DeviceToken → Bool :=
  ((({ id := some id } : Where DeviceToken)).inScope (some tenantId)).admits
    deviceTokenRepository.delegate

theorem matching_iff {id : Id} {r : DeviceToken} :
    matching tenantId id r = true ↔ r.id = id ∧ r.tenantId = tenantId := by
  rw [eq_comm (a := r.id)]
  simp [matching, Where.inScope, Where.withTenant, Where.admits, ColumnKey.admits,
    deviceTokenRepository, TenantRow.id, TenantRow.tenantId]

/-- An update by an id writes the columns of its own device and leaves the others. -/
theorem update_keeps {id : Id} {data : Payload DeviceToken} {r : DeviceToken}
    (htenant : tenantId ≠ "") (hnested : data.nested = {}) (hr : r ∈ db.rows) :
    let after := (invoke (env.inTenant tenantId) deviceTokenRepository.delegate .update
      { whereArg := { id := some id }, data := data } db).2.rows
    r ∈ after ∨ (r.id = id ∧ r.tenantId = tenantId) ∧ data.apply r ∈ after := by
  intro after
  have hupdate := Delegate.update_apply (m := deviceTokenRepository.delegate)
    (w := { id := some id }) (@inTenant_sees env _ htenant) (by decide) rfl hnested db
  have hstate : (deviceTokenRepository.delegate.update (env.inTenant tenantId)
      { id := some id } data db).2.rows = after := congrArg Store.rows (state_of_answer _ _ _)
  rw [hupdate] at hstate
  split at hstate
  · rw [← hstate]
    exact Or.inl hr
  · split at hstate
    · simp only at hstate
      by_cases hmatch : matching tenantId id r = true
      · refine Or.inr ⟨matching_iff.mp hmatch, ?_⟩
        rw [← hstate]
        exact List.mem_map.mpr ⟨r, hr, if_pos hmatch⟩
      · refine Or.inl ?_
        rw [← hstate]
        exact List.mem_map.mpr ⟨r, hr, if_neg hmatch⟩
    · rw [← hstate]
      exact Or.inl hr

/-- A deletion by an id leaves every other device. -/
theorem delete_keeps {id : Id} {r : DeviceToken} (htenant : tenantId ≠ "") (hr : r ∈ db.rows)
    (hother : ¬(r.id = id ∧ r.tenantId = tenantId)) :
    r ∈ (invoke (env.inTenant tenantId) deviceTokenRepository.delegate .delete
      { whereArg := { id := some id }, data := {} } db).2.rows := by
  have hargs : (({ whereArg := { id := some id }, data := {} } :
      Args DeviceToken)).inScope (some tenantId) .delete =
        { whereArg := ({ id := some id } : Where DeviceToken).inScope (some tenantId) } :=
    Args.inScope_where (by simp [filteredOperations])
  have hkept : r ∈ db.rows.filter fun r => !matching tenantId id r :=
    List.mem_filter.mpr ⟨hr, by simpa using fun h => hother (matching_iff.mp h)⟩
  cases hfound : db.rows.filter (matching tenantId id) with
  | nil =>
      rw [invoke_refused (e := .recordNotFound) (inTenant_sees htenant) (by decide)
        (not_refused (by simp)) rfl]
      · exact hr
      · rw [hargs]
        unfold matching at hfound
        simp [root, hfound]
  | cons target rest =>
      rw [invoke_write (t := deleteRoot (matching tenantId id) [target] db.rows)
        (inTenant_sees htenant) (by decide) (not_refused (by simp)) rfl]
      · split
        · exact hkept
        · exact hr
      · rw [hargs]
        have hmatched := hfound
        unfold matching at hmatched
        simp [root, hmatched, matching]
      · simp [deleteRoot, hfound]
      · rfl

/-- A creation adds one notification at most, in the tenant. -/
theorem create_notification {table : Store Notification} {data : Payload Notification}
    (hnested : data.nested = {}) (htenantId : data.tenantId = none) {n : Notification}
    (hn : n ∈ (notificationRepository.create (env.inTenant tenantId) data table).2.rows) :
    n ∈ table.rows ∨ n = TenantRow.setTenantId (some tenantId)
      (data.assign (notificationRepository.delegate.blank (env.uuid 0))) := by
  by_cases htenant : tenantId = ""
  · subst htenant
    unfold BaseTenantRepository.create at hn
    rw [getTenantId_empty] at hn
    exact Or.inl hn
  · let sent : Args Notification := { data := { data with tenantId := some (some tenantId) } }
    have hcreate : (notificationRepository.create (env.inTenant tenantId) data table).2 =
        (invoke (env.inTenant tenantId) notificationRepository.delegate .create sent table).2 := by
      unfold BaseTenantRepository.create
      rw [BaseTenantRepository.getTenantId_of_sees (inTenant_sees htenant), htenantId,
        Fallible.reads_ok_bind]
      exact state_of_answer _ _ _
    rw [hcreate] at hn
    unfold invoke call at hn
    rw [show scope (env.inTenant tenantId).context notificationRepository.delegate .create sent =
      .ok sent from rfl] at hn
    simp only [Engine.exec_store, Engine.leave_store] at hn
    cases hexec : exec notificationRepository.delegate (env.inTenant tenantId).uuid .create sent
      table with
    | error e =>
        rw [hexec] at hn
        exact Or.inl hn
    | ok out =>
        rcases exec_eq_ok hexec with ⟨t, ht, rfl, _⟩
        cases ht
        rw [hexec] at hn
        have hrows := Root.after_of_no_nested (t := createRoot notificationRepository.delegate
          (env.inTenant tenantId).uuid sent.data table.rows) hnested
        have hmem : n ∈ (createRoot notificationRepository.delegate
          (env.inTenant tenantId).uuid sent.data table.rows).rows := hrows ▸ hn
        exact (List.mem_append.mp hmem).imp_right List.mem_singleton.mp

end Rows

/-! ## What the calls keep -/

section Invariant

variable {ι : Type} (calls : ι → DeviceCall) (d : DeviceToken) (db₀ : DeviceDb)

/-- The device as it was registered, with the type of a registration by its own user. -/
structure SameDevice (r : DeviceToken) : Prop where
  same : r = { d with deviceType := r.deviceType }
  deviceType : r.deviceType = d.deviceType ∨ ∃ i, (calls i).Registers d r.deviceType

/-- The device is registered, no two devices share an id or a token, and every new notification
mirrors a push message. -/
structure Kept (db : DeviceDb) : Prop where
  sound : SoftDeletableModel.Sound db₀.deviceTokens db.deviceTokens
  stays : ∃ r ∈ db.deviceTokens.rows, SameDevice calls d r
  mirrors : ∀ n ∈ db.notifications.rows,
    n ∈ db₀.notifications.rows ∨ ∃ i, (calls i).Mirrors n

/-- The calls agree to keep the device. -/
def keeping : Discipline Unit DeviceDb where
  Inv := Kept calls d db₀
  Moves _ _ := True
  Admits _ _ := True
  refl _ := trivial
  trans _ _ _ _ _ := trivial

/-- Whatever the others do, the program keeps the device and returns what is said. -/
def Fine {β : Type} (p : DeviceSteps β) (returns : β → Prop) : Prop :=
  ∀ db, p.Meets (keeping calls d db₀) db fun r _ => ∀ b, r = .ok b → returns b

end Invariant

section Rules

variable {ι α β : Type} {calls : ι → DeviceCall} {d : DeviceToken} {db₀ : DeviceDb}
  {returns : β → Prop}

theorem SameDevice.id_eq {r : DeviceToken} (h : SameDevice calls d r) : r.id = d.id := by
  rw [h.same]

theorem SameDevice.token_eq {r : DeviceToken} (h : SameDevice calls d r) : r.token = d.token := by
  rw [h.same]

theorem SameDevice.tenantId_eq {r : DeviceToken} (h : SameDevice calls d r) :
    r.tenantId = d.tenantId := by
  rw [h.same]

theorem SameDevice.userId_eq {r : DeviceToken} (h : SameDevice calls d r) :
    r.userId = d.userId := by
  rw [h.same]

/-- A stored device with the id or the token of the kept one is the kept one. -/
theorem Kept.same_device {db : DeviceDb} (h : Kept calls d db₀ db)
    (hkeys : db₀.deviceTokens.uniqueKeys = deviceTokenKeys) {r : DeviceToken}
    (hr : r ∈ db.deviceTokens.rows) (hshared : r.id = d.id ∨ r.token = d.token) :
    SameDevice calls d r := by
  have haccepted := h.sound.accepted
  unfold Store.accepts at haccepted
  rw [h.sound.uniqueKeys, hkeys, Bool.and_eq_true] at haccepted
  have hids : (db.deviceTokens.rows.map fun r => r.id).Nodup ∧
      (db.deviceTokens.rows.map fun r => r.token).Nodup := by
    simpa [deviceTokenKeys] using haccepted.1
  rcases h.stays with ⟨kept, hkept, hsame⟩
  rcases hshared with hid | htoken
  · rw [List.inj_on_of_nodup_map hids.1 hr hkept (hid.trans hsame.id_eq.symm)]
    exact hsame
  · rw [List.inj_on_of_nodup_map hids.2 hr hkept (htoken.trans hsame.token_eq.symm)]
    exact hsame

theorem Fine.pure {b : β} (h : returns b) : Fine calls d db₀ (pure b) returns := by
  intro db b' hb
  cases hb
  exact h

theorem Fine.throw (e : AppError) : Fine calls d db₀ (Prog.throw e) returns := by
  intro db b hb
  cases hb

theorem Fine.bind {p : DeviceSteps α} {f : α → DeviceSteps β} {mid : α → Prop}
    (hp : Fine calls d db₀ p mid) (hf : ∀ a, mid a → Fine calls d db₀ (f a) returns) :
    Fine calls d db₀ (p >>= f) returns := by
  refine fun db => Prog.Meets.bind ((hp db).mono fun r t hr => ?_)
  cases r with
  | ok a => exact hf a (hr a rfl) t
  | error e =>
      intro b hb
      cases hb

theorem Fine.safe {p : DeviceSteps β} (h : Fine calls d db₀ p returns) (db : DeviceDb) :
    p.Safe (keeping calls d db₀) db :=
  (h db).mono fun _ _ _ => trivial

theorem Fine.of_safe {p : DeviceSteps β} (h : ∀ db, p.Safe (keeping calls d db₀) db) :
    Fine calls d db₀ p fun _ => True :=
  fun db => (h db).mono fun _ _ _ _ _ => trivial

/-- A step on the devices, and what goes on from what it returned. -/
theorem Fine.onDevices {fails : Bool} {x : Fallible (Store DeviceToken) ClientError α}
    {f : α → DeviceSteps β}
    (hkeeps : ∀ db, Kept calls d db₀ db →
      Kept calls d db₀ { db with deviceTokens := (x db.deviceTokens).2 })
    (hf : ∀ db a, Kept calls d db₀ db → (x db.deviceTokens).1 = .ok a →
      Fine calls d db₀ (f a) returns) :
    Fine calls d db₀ (DeviceTokenService.onDevices fails x >>= f) returns := by
  refine fun db => Prog.Meets.bind (Prog.Meets.atomic fun db' _ hinv _ => ?_)
  unfold statement
  cases fails with
  | true =>
      refine ⟨⟨hinv, trivial⟩, fun b hb => ?_⟩
      cases hb
  | false =>
      refine ⟨⟨hkeeps db' hinv, trivial⟩, ?_⟩
      simp only [Bool.false_eq_true, if_false]
      cases hresult : (x db'.deviceTokens).1 with
      | error e =>
          intro b hb
          cases hb
      | ok a => exact hf db' a hinv hresult _

/-- A step that only reads the devices. -/
theorem Fine.read {fails : Bool} {x : Fallible (Store DeviceToken) ClientError α}
    {f : α → DeviceSteps β} (hx : Fallible.ReadsOnly x)
    (hf : ∀ db a, Kept calls d db₀ db → (x db.deviceTokens).1 = .ok a →
      Fine calls d db₀ (f a) returns) :
    Fine calls d db₀ (DeviceTokenService.onDevices fails x >>= f) returns := by
  refine Fine.onDevices (fun db hdb => ?_) hf
  rw [hx db.deviceTokens]
  exact hdb

/-- A step on the devices that returns whatever it returns. -/
theorem Fine.last {fails : Bool} {x : Fallible (Store DeviceToken) ClientError β}
    (hkeeps : ∀ db, Kept calls d db₀ db →
      Kept calls d db₀ { db with deviceTokens := (x db.deviceTokens).2 }) :
    Fine calls d db₀ (DeviceTokenService.onDevices fails x) fun _ => True := by
  refine fun db => Prog.Meets.atomic fun db' _ hinv _ => ⟨⟨?_, trivial⟩, fun _ _ => trivial⟩
  unfold statement
  cases fails with
  | true => exact hinv
  | false => exact hkeeps db' hinv

/-- The device stays where a step leaves it, or leaves it with another type that its own user
registered, and keeps to the constraints. -/
theorem Kept.write {db : DeviceDb} (h : Kept calls d db₀ db)
    {x : Fallible (Store DeviceToken) ClientError α}
    (hsound : Fallible.Keeps (SoftDeletableModel.Sound db₀.deviceTokens) x)
    (hstays : ∀ r ∈ db.deviceTokens.rows, SameDevice calls d r →
      ∃ r' ∈ (x db.deviceTokens).2.rows, SameDevice calls d r') :
    Kept calls d db₀ { db with deviceTokens := (x db.deviceTokens).2 } where
  sound := hsound _ h.sound
  stays := by
    rcases h.stays with ⟨r, hr, hsame⟩
    exact hstays r hr hsame
  mirrors := h.mirrors

end Rules

/-! ## The methods -/

section Methods

variable {ι : Type} {calls : ι → DeviceCall} {d : DeviceToken} {db₀ : DeviceDb} {env : DeviceEnv}
  {tenantId : Id}

/-- A deletion of another device. -/
theorem deleteOwned_fine {id : Id} (lookup change : DeviceStatement)
    (hother : ¬(id = d.id ∧ tenantId = d.tenantId)) :
    Fine calls d db₀ (ownedSteps env tenantId lookup change id .delete {}) fun _ => True := by
  unfold ownedSteps
  refine Fine.read (BaseTenantRepository.findFirst_readsOnly _) fun db entity hdb hfound => ?_
  cases entity with
  | none => exact Fine.throw _
  | some entity =>
      rcases findFirst_found hfound with ⟨htenant, _, hid, _⟩
      refine Fine.last fun db' hdb' => hdb'.write
        (.bind (SoftDeletableModel.invoke_keeps _ _ _) fun _ => .pure _)
        fun r hr hsame => ⟨r, ?_, hsame⟩
      rw [state_of_answer]
      refine delete_keeps htenant hr ?_
      rintro ⟨hrid, hrtenant⟩
      exact hother ⟨hid.symm.trans (hrid.symm.trans hsame.id_eq),
        hrtenant.symm.trans hsame.tenantId_eq⟩

/-- An update that writes the type of a registration, and the user it had. -/
theorem updateOwned_fine {id userId : Id} {deviceType : String} (lookup change : DeviceStatement)
    (hregisters : id = d.id → tenantId = d.tenantId →
      userId = d.userId ∧ ∃ i, (calls i).Registers d deviceType) :
    Fine calls d db₀
      (ownedSteps env tenantId lookup change id .update (reregistered deviceType userId))
      fun _ => True := by
  unfold ownedSteps
  refine Fine.read (BaseTenantRepository.findFirst_readsOnly _) fun db entity hdb hfound => ?_
  cases entity with
  | none => exact Fine.throw _
  | some entity =>
      rcases findFirst_found hfound with ⟨htenant, _, hid, _⟩
      refine Fine.last fun db' hdb' => hdb'.write
        (.bind (SoftDeletableModel.invoke_keeps _ _ _) fun _ => .pure _)
        fun r hr hsame => ?_
      have hnested : (reregistered deviceType userId).nested = {} := rfl
      rw [state_of_answer]
      rcases @update_keeps env tenantId _ entity.id _ r htenant hnested hr with
        hkept | ⟨⟨hrid, hrtenant⟩, hwritten⟩
      · exact ⟨r, hkept, hsame⟩
      · refine ⟨_, hwritten, ?_⟩
        rcases hregisters (hid.symm.trans (hrid.symm.trans hsame.id_eq))
          (hrtenant.symm.trans hsame.tenantId_eq) with ⟨huser, hregistered⟩
        refine ⟨?_, Or.inr hregistered⟩
        rw [hsame.same, huser]
        rfl

/-- A registration keeps a device, with the type it had or that of the registration. -/
theorem registerToken_fine (hkeys : db₀.deviceTokens.uniqueKeys = deviceTokenKeys)
    {dto : CreateDeviceTokenRequestDto} {requesterUserId : Id} {i : ι}
    (hcall : (calls i).request = .register dto tenantId requesterUserId) :
    Fine calls d db₀ (registerToken env dto tenantId requesterUserId) fun _ => True := by
  unfold registerToken
  refine Fine.read (BaseTenantRepository.findMany_readsOnly _ _) fun db found hdb hfound => ?_
  cases hhead : found.head? with
  | none =>
      refine Fine.onDevices (fun db' hdb' => hdb'.write (SoftDeletableModel.create_keeps _ _)
        fun r hr hsame => ⟨r, create_keeps_rows rfl rfl hr, hsame⟩) fun _ _ _ _ => ?_
      exact Fine.pure trivial
  | some existing =>
      simp only
      split
      · rename_i howner
        have hlisted : existing ∈ db.deviceTokens.rows.filter fun r =>
            r.tenantId == tenantId && r.token == dto.token := by
          have hmem := List.mem_of_mem_head? hhead
          rw [findMany_listed hfound] at hmem
          exact List.mem_of_mem_take hmem
        simp only [List.mem_filter, Bool.and_eq_true, beq_iff_eq] at hlisted
        refine Fine.bind (updateOwned_fine _ _ fun hid htenant => ?_) fun _ _ => Fine.pure trivial
        have hsame := hdb.same_device hkeys hlisted.1 (Or.inl hid)
        have huser : registeredFor dto requesterUserId = d.userId :=
          howner.symm.trans hsame.userId_eq
        refine ⟨huser, i, ?_⟩
        unfold DeviceCall.Registers
        rw [hcall]
        exact ⟨htenant, hlisted.2.2.symm.trans hsame.token_eq, huser, rfl⟩
      · exact Fine.throw _

/-- A listing is about the device exactly where it reads its user's devices. -/
structure Lists (d : DeviceToken) (tenantId : Id) (userId : Option Id)
    (tokens : List TokenResponse) : Prop where
  owned : ∀ t ∈ tokens, t.id = d.id ∨ t.token = d.token → t.token = d.token ∧
    Reaches tenantId userId d
  complete : Reaches tenantId userId d → tokens.length < BaseTenantRepository.DEFAULT_MAX_ROWS →
    ∃ t ∈ tokens, t.token = d.token

theorem listedFor_iff {userId : Option Id} {r : DeviceToken} :
    listedFor userId r = true ↔ userId.getD "" = "" ∨ userId = some r.userId := by
  cases userId with
  | none => simp [listedFor]
  | some userId =>
      by_cases hempty : userId = ""
      · simp [listedFor, hempty]
      · rw [Option.some_inj, eq_comm (a := userId)]
        simp [listedFor, hempty, Option.filter]

/-- A listing lists the devices of its user, and the kept one among them unless it is cut. -/
theorem listTokens_fine (hkeys : db₀.deviceTokens.uniqueKeys = deviceTokenKeys)
    (userId : Option Id) :
    Fine calls d db₀ (listTokens env tenantId userId) (Lists d tenantId userId) := by
  unfold listTokens
  refine Fine.read (BaseTenantRepository.findMany_readsOnly _ _) fun db found hdb hfound => ?_
  refine Fine.pure ⟨fun t ht hshared => ?_, fun hreaches hshort => ?_⟩
  · rcases List.mem_map.mp ht with ⟨r, hr, rfl⟩
    rw [findMany_listed hfound] at hr
    have hlisted := List.mem_filter.mp (List.mem_of_mem_take hr)
    rw [Bool.and_eq_true, beq_iff_eq] at hlisted
    have hsame := hdb.same_device hkeys hlisted.1 hshared
    refine ⟨hsame.token_eq, hlisted.2.1.symm.trans hsame.tenantId_eq, ?_⟩
    rw [← hsame.userId_eq]
    exact listedFor_iff.mp hlisted.2.2
  · rcases hdb.stays with ⟨r, hr, hsame⟩
    refine ⟨_, List.mem_map.mpr ⟨r, ?_, rfl⟩, hsame.token_eq⟩
    have hmem : r ∈ db.deviceTokens.rows.filter fun r =>
        r.tenantId == tenantId && listedFor userId r := by
      rw [List.mem_filter, Bool.and_eq_true, beq_iff_eq, listedFor_iff, hsame.userId_eq]
      exact ⟨hr, hsame.tenantId_eq.trans hreaches.1.symm, hreaches.2⟩
    have hcut := findMany_listed hfound
    rw [List.length_map, hcut, List.length_take] at hshort
    rw [hcut, List.take_of_length_le (by omega)]
    exact hmem

/-- A deletion of another device leaves the kept one. -/
theorem deleteToken_fine {id requesterUserId : Id}
    (hother : ¬(id = d.id ∧ tenantId = d.tenantId)) :
    Fine calls d db₀ (deleteToken env id tenantId requesterUserId) fun _ => True := by
  unfold deleteToken
  refine Fine.read (BaseTenantRepository.findFirst_readsOnly _) fun db existing hdb hfound => ?_
  cases existing with
  | none => exact Fine.throw _
  | some existing =>
      refine @Fine.bind _ _ _ _ _ _ _ _ _ (fun _ => True) (Fine.pure trivial) fun _ _ => ?_
      exact Fine.bind (deleteOwned_fine _ _ hother) fun _ _ => Fine.pure trivial

/-- The pruning of a token that a listing holds leaves the kept device, where the token is
another one. -/
theorem pruneToken_safe {userId : Option Id} {tokens : List TokenResponse}
    (hlists : Lists d tenantId userId tokens) {token : Option String}
    (hother : Reaches tenantId userId d → token ≠ some d.token) (db : DeviceDb) :
    (pruneToken env tenantId tokens token).Safe (keeping calls d db₀) db := by
  unfold pruneToken
  split
  · exact Prog.Safe.pure _
  · rename_i stale hstale
    have htoken : some stale.token = token := by simpa using List.find?_some hstale
    have hstays : ¬(stale.id = d.id ∧ tenantId = d.tenantId) := by
      rintro ⟨hid, _⟩
      have hown := hlists.owned stale (List.mem_of_find?_eq_some hstale) (Or.inl hid)
      exact hother hown.2 (htoken.symm.trans (congrArg some hown.1))
    refine Prog.Safe.orElse (Prog.Safe.andThen (Fine.safe (deleteOwned_fine _ _ hstays) db)
      fun _ _ _ => Prog.Safe.pure _) fun _ _ _ => Prog.Safe.pure _

/-- The notification of a push message mirrors it. -/
theorem persistNotification_safe {fcm : FcmService} {pruning : List ℕ} {userId : Id}
    {title body : String} {data : Option Notification.Payload} {i : ι}
    (hcall : (calls i).request = .push fcm pruning tenantId userId title body data)
    (db : DeviceDb) :
    (persistNotification env tenantId userId title body "push").Safe (keeping calls d db₀) db := by
  unfold persistNotification
  refine Prog.Safe.orElse (Prog.Safe.last (fun _ _ => Prog.Safe.pure _) fun db' _ hinv _ => ?_)
    fun _ _ _ => Prog.Safe.pure _
  refine ⟨?_, trivial⟩
  split
  · exact hinv
  · refine ⟨hinv.sound, hinv.stays, fun n hn => ?_⟩
    rcases create_notification rfl rfl hn with hold | rfl
    · exact hinv.mirrors n hold
    · refine Or.inr ⟨i, ?_⟩
      unfold DeviceCall.Mirrors
      rw [hcall]
      exact ⟨rfl, rfl, rfl, rfl, rfl, rfl, rfl⟩

/-- The tokens of a listing, or of the messages sent after it, are about the device exactly where
they are about its user's devices, unless the listing is cut. -/
structure Covers (d : DeviceToken) (tenantId : Id) (userId : Option Id) (tokens : List String) :
    Prop where
  reaches : d.token ∈ tokens → Reaches tenantId userId d
  complete : Reaches tenantId userId d → tokens.length < BaseTenantRepository.DEFAULT_MAX_ROWS →
    d.token ∈ tokens

theorem Lists.covers {userId : Option Id} {tokens : List TokenResponse}
    (h : Lists d tenantId userId tokens) :
    Covers d tenantId userId (tokens.map fun t => t.token) where
  reaches hmem := by
    rcases List.mem_map.mp hmem with ⟨t, ht, htoken⟩
    exact (h.owned t ht (Or.inr htoken)).2
  complete hreaches hshort := by
    rw [List.length_map] at hshort
    rcases h.complete hreaches hshort with ⟨t, ht, htoken⟩
    exact List.mem_map.mpr ⟨t, ht, htoken⟩

/-- A push message goes to its user's devices, and to the kept one among them. -/
theorem sendPushNotification_fine (hkeys : db₀.deviceTokens.uniqueKeys = deviceTokenKeys)
    {fcm : FcmService} {pruning : List ℕ} {userId : Id} {title body : String}
    {data : Option Notification.Payload} {i : ι}
    (hcall : (calls i).request = .push fcm pruning tenantId userId title body data)
    (hremoves : ¬(calls i).Removes d) :
    Fine calls d db₀ (sendPushNotification env fcm pruning tenantId userId title body data)
      fun result => Covers d tenantId (some userId) (DeviceAnswer.pushed result).tokens := by
  unfold sendPushNotification
  refine Fine.bind (listTokens_fine hkeys (some userId)) fun tokens hlists => ?_
  split
  · rename_i hempty
    have hnone : tokens = [] := List.length_eq_zero_iff.mp hempty
    have hcovers := hlists.covers
    rw [hnone] at hcovers
    exact Fine.pure hcovers
  · have hpayloads : Covers d tenantId (some userId)
        ((tokens.map fun t => ({ token := t.token, title, body, data := pushData tenantId data } :
          PushMessage)).map fun message => message.token) := by
      rw [List.map_map]
      exact hlists.covers
    split
    · have hpruned : Fine calls d db₀ (Prog.gather pruning
          ((fcm.sendPush (tokens.map fun t => t.token) title body
            (pushData tenantId data)).unregisteredTokens.map (pruneToken env tenantId tokens)))
          fun _ => True := by
        refine Fine.of_safe fun db => Prog.Safe.gather pruning fun task htask => ?_
        rcases List.mem_map.mp htask with ⟨token, htoken, rfl⟩
        refine pruneToken_safe hlists (fun hreaches heq => ?_) db
        rw [heq] at htoken
        unfold DeviceCall.Removes at hremoves
        rw [hcall] at hremoves
        exact hremoves ⟨hreaches, _, htoken⟩
      exact Fine.bind hpruned fun _ _ => Fine.bind
        (Fine.of_safe fun db => persistNotification_safe hcall db) fun _ _ => Fine.pure hpayloads
    · exact Fine.pure hpayloads

/-- A call keeps the device, and reads it exactly where it reads its user's devices, whatever
the others do. -/
theorem program_fine (hkeys : db₀.deviceTokens.uniqueKeys = deviceTokenKeys) {i : ι}
    (hremoves : ¬(calls i).Removes d) :
    Fine calls d db₀ (calls i).program fun answer =>
      (d.token ∈ answer.tokens → (calls i).Reads d) ∧
        ((calls i).Reads d → answer.tokens.length < BaseTenantRepository.DEFAULT_MAX_ROWS →
          d.token ∈ answer.tokens) := by
  unfold DeviceCall.program DeviceCall.Reads
  cases hcall : (calls i).request with
  | register dto tenantId requesterUserId =>
      exact Fine.bind (registerToken_fine hkeys hcall) fun _ _ =>
        Fine.pure ⟨fun hmem => (List.not_mem_nil hmem).elim, fun hreads => hreads.elim⟩
  | list tenantId userId =>
      exact Fine.bind (listTokens_fine hkeys userId) fun _ hlists =>
        Fine.pure ⟨hlists.covers.reaches, hlists.covers.complete⟩
  | delete id tenantId requesterUserId =>
      have hother : ¬(id = d.id ∧ tenantId = d.tenantId) := by
        unfold DeviceCall.Removes at hremoves
        rw [hcall] at hremoves
        exact hremoves
      exact Fine.bind (deleteToken_fine hother) fun _ _ =>
        Fine.pure ⟨fun hmem => (List.not_mem_nil hmem).elim, fun hreads => hreads.elim⟩
  | push fcm pruning tenantId userId title body data =>
      exact Fine.bind (sendPushNotification_fine hkeys hcall hremoves) fun _ hcovers =>
        Fine.pure ⟨hcovers.reaches, hcovers.complete⟩

end Methods

/-! ## Every interleaving -/

/-- Calls in any order of their statements.  A device that no call removes stays registered, with
its id, token, tenant and user, and with the type it had or one that its own user registered.  A
call that returned has listed it, or sent it a message, only where it reads the devices of its
user, and always then unless the listing is cut.  Every notification is one from before or mirrors
one of the messages. -/
theorem device_kept {ι : Type} [DecidableEq ι] {calls : ι → DeviceCall} {db : DeviceDb}
    {d : DeviceToken} (hkeys : db.deviceTokens.uniqueKeys = deviceTokenKeys)
    (hvalid : db.deviceTokens.accepts db.deviceTokens.rows = true)
    (hd : d ∈ db.deviceTokens.rows) (hremoves : ∀ i, ¬(calls i).Removes d)
    (schedule : List (ι × Unit)) :
    let c := (Prog.threads ι Unit DeviceDb AppError DeviceAnswer).run
      ⟨db, fun i => (calls i).program⟩ schedule
    (∃ r ∈ c.shared.deviceTokens.rows, SameDevice calls d r) ∧
      (∀ i answer, c.phase i = .done (.ok answer) →
        (d.token ∈ answer.tokens → (calls i).Reads d) ∧
          ((calls i).Reads d → answer.tokens.length < BaseTenantRepository.DEFAULT_MAX_ROWS →
            d.token ∈ answer.tokens)) ∧
      ∀ n ∈ c.shared.notifications.rows,
        n ∈ db.notifications.rows ∨ ∃ i, (calls i).Mirrors n := by
  intro c
  have hinit : Kept calls d db db :=
    ⟨⟨hvalid, rfl⟩, ⟨d, hd, rfl, Or.inl rfl⟩, fun n hn => Or.inl hn⟩
  have hadmitted : (Prog.threads ι Unit DeviceDb AppError DeviceAnswer).EachStep
      (Prog.Admitted (keeping calls d db)) ⟨db, fun i => (calls i).program⟩ schedule := by
    rw [CallSystem.eachStep_iff]
    intro pre l suf _
    unfold Prog.Admitted
    split <;> trivial
  rcases Prog.threads_results hinit (fun i => program_fine hkeys (hremoves i) db) hadmitted with
    ⟨hkept, hresults⟩
  exact ⟨hkept.stays, fun i answer hdone => hresults i _ hdone answer rfl, hkept.mirrors⟩

/-- A phone, and the table it is in. -/
def phone : DeviceToken :=
  { id := "phone", tenantId := "grill", userId := "ada", token := "p-1", deviceType := "android"
    createdAt := 0 }

def phoneDb : DeviceDb where
  deviceTokens := { rows := [phone], uniqueKeys := deviceTokenKeys }
  notifications := { rows := [] }

/-- A provider that knows every device. -/
def knownDevices : FcmService where
  isAvailable := true
  sendEachForMulticast message :=
    .ok { responses := message.tokens.map fun _ => { success := true }
          successCount := message.tokens.length
          failureCount := 0 }

/-- The phone's user registers it again, another device is deleted, and the rest send messages. -/
def phoneCalls (i : ℕ) : DeviceCall where
  env := { uuid := fun _ => "new", now := 0 }
  request :=
    if i = 0 then
      .register { token := "p-1", deviceType := "web" } "grill" "ada"
    else if i = 1 then .delete "tablet" "grill" "ada"
    else .push knownDevices [] "grill" "ada" "Ready" "Your order is ready" none

theorem knownDevices_unregistered (tokens : List String) (title body : String)
    (data : Notification.Payload) :
    (knownDevices.sendPush tokens title body data).unregisteredTokens = [] := by
  unfold FcmService.sendPush
  split
  · rfl
  · simp only [knownDevices, List.map_eq_nil_iff, List.filter_eq_nil_iff]
    intro entry hentry
    rcases List.mem_mapIdx.mp hentry with ⟨k, hk, rfl⟩
    simp [SendResponse.isUnregistered]

/-- Registered again between a message's listing and its notification, the phone stays. -/
theorem phone_kept :
    let c := (Prog.threads ℕ Unit DeviceDb AppError DeviceAnswer).run
      ⟨phoneDb, fun i => (phoneCalls i).program⟩
      [(2, ()), (0, ()), (0, ()), (0, ()), (1, ()), (2, ())]
    (∃ r ∈ c.shared.deviceTokens.rows, SameDevice phoneCalls phone r) ∧
      (∀ i answer, c.phase i = .done (.ok answer) →
        (phone.token ∈ answer.tokens → (phoneCalls i).Reads phone) ∧
          ((phoneCalls i).Reads phone →
            answer.tokens.length < BaseTenantRepository.DEFAULT_MAX_ROWS →
              phone.token ∈ answer.tokens)) ∧
      ∀ n ∈ c.shared.notifications.rows,
        n ∈ phoneDb.notifications.rows ∨ ∃ i, (phoneCalls i).Mirrors n := by
  refine device_kept rfl (by decide) List.mem_cons_self (fun i => ?_) _
  unfold DeviceCall.Removes phoneCalls
  by_cases hfirst : i = 0
  · simp [hfirst]
  · by_cases hsecond : i = 1
    · simp [hsecond, phone]
    · simp [hfirst, hsecond, knownDevices_unregistered]

end DeviceTokenService
end Eleva
