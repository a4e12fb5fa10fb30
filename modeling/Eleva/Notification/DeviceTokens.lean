import Eleva.Foundation.Resumption
import Eleva.Notification.Consumers
import Eleva.Database.SoftDeleteLaws

/-!
# Notification - Device tokens and push messages

The devices that users register for push messages, and the messages sent to them.  Each method
is a program whose statements are atomic steps, so that the statements of other calls may come
in between: a registration looks a token up before it writes, and a push message prunes the
devices that the provider no longer knows long after it listed them.

Main results:

- Definitions {lit}`registerToken`, {lit}`listTokens`, {lit}`deleteToken` and
  {lit}`sendPushNotification`: the methods.
- Theorem {lit}`ownedSteps_alone`: an update or a deletion that nothing interrupts is the
  repository's.
-/

namespace Eleva
namespace DeviceTokenService

open Foundation Database

/-! ## The tables -/

/-- A row of {lit}`device_tokens`. -/
structure DeviceToken where
  id : Id
  tenantId : Id
  userId : Id
  token : String
  deviceType : String
  createdAt : Timestamp
deriving DecidableEq, Repr

/-- A row of {lit}`notifications`. -/
structure Notification where
  id : Id
  tenantId : Id
  recipientType : String
  recipientId : Id
  title : String
  body : String
  type : String
  isRead : Bool
  createdAt : Timestamp
deriving DecidableEq, Repr

instance : TenantRow DeviceToken :=
  .ofColumns (·.id) (·.tenantId) (fun t r => { r with tenantId := t })
    (fun _ _ => rfl) (fun _ _ => rfl)

instance : TenantRow Notification :=
  .ofColumns (·.id) (·.tenantId) (fun t r => { r with tenantId := t })
    (fun _ _ => rfl) (fun _ _ => rfl)

/-- The unique columns of {lit}`device_tokens`: a token is registered once in all tenants. -/
def deviceTokenKeys : List (DeviceToken → Option String) :=
  [fun r => some r.id, fun r => some r.token]

def deviceTokenRepository : BaseTenantRepository DeviceToken where
  delegate :=
    { model := "DeviceToken"
      isRow := fun _ => true
      blank := fun id =>
        { id, tenantId := "", userId := "", token := "", deviceType := "", createdAt := 0 } }

def notificationRepository : BaseTenantRepository Notification where
  delegate :=
    { model := "Notification"
      isRow := fun _ => true
      blank := fun id =>
        { id, tenantId := "", recipientType := "", recipientId := "", title := "", body := ""
          type := "", isRead := false, createdAt := 0 } }

/-- The two tables. -/
structure DeviceDb where
  deviceTokens : Store DeviceToken
  notifications : Store Notification

/-! ## Statements -/

/-- The statements of a call. -/
inductive DeviceStatement where
  | find
  | owned
  | write
  | ownedStale (token : String)
  | prune (token : String)
  | notify
deriving DecidableEq, Repr

/-- What a call draws from its surroundings. -/
structure DeviceEnv where
  uuid : ℕ → Id
  now : Timestamp
  fails : DeviceStatement → Bool := fun _ => false

/-- {lit}`dbTenantContext.run` with a tenant. -/
def DeviceEnv.inTenant (env : DeviceEnv) (tenantId : Id) : Env where
  context := { tenantId := some tenantId }
  uuid := env.uuid
  now := env.now

/-- A program on the two tables. -/
abbrev DeviceSteps (α : Type) : Type :=
  Prog Unit DeviceDb AppError α

section Statements

variable {α : Type}

/-- A statement on the devices, unless it fails. -/
def statement (fails : Bool) (x : Fallible (Store DeviceToken) ClientError α) :
    Fallible DeviceDb AppError α := fun db =>
  if fails then (.error .failure, db)
  else ((x db.deviceTokens).1.mapError .client, { db with deviceTokens := (x db.deviceTokens).2 })

def onDevices (fails : Bool) (x : Fallible (Store DeviceToken) ClientError α) : DeviceSteps α :=
  Prog.atomic () (statement fails x)

/-- A statement on the notifications, unless it fails. -/
def onNotifications (fails : Bool) (x : Fallible (Store Notification) ClientError α) :
    DeviceSteps α :=
  Prog.atomic () fun db =>
    if fails then (.error .failure, db)
    else
      ((x db.notifications).1.mapError .client,
        { db with notifications := (x db.notifications).2 })

end Statements

variable (env : DeviceEnv)

/-- The repository's update or deletion of one device: it validates the ownership of the record
and then writes, in two statements. -/
def ownedSteps (tenantId : Id) (lookup change : DeviceStatement) (id : Id) (op : Operation)
    (data : Payload DeviceToken) : DeviceSteps (Option DeviceToken) := do
  let entity ← onDevices (env.fails lookup)
    (deviceTokenRepository.findFirst (env.inTenant tenantId) { id := some id })
  match entity with
  | none => Prog.throw (.client (notFoundError id))
  | some entity =>
      onDevices (env.fails change) (do
        let result ← invoke (env.inTenant tenantId) deviceTokenRepository.delegate op
          { whereArg := { id := some entity.id }, data := data }
        return result.found.head?)

/-! ## The messages -/

/-- A push message to one device. -/
structure PushMessage where
  token : String
  title : String
  body : String
  data : Notification.Payload

/-- The message to several devices, as the provider takes it. -/
structure MulticastMessage where
  tokens : List String
  title : String
  body : String
  data : String → Option String

/-- The provider's answer for one of the devices. -/
structure SendResponse where
  success : Bool
  code : Option String := none
deriving DecidableEq, Repr

structure BatchResponse where
  responses : List SendResponse
  successCount : ℕ
  failureCount : ℕ
deriving DecidableEq, Repr

structure FcmSendResult where
  successCount : ℕ
  failureCount : ℕ
  unregisteredTokens : List (Option String)
deriving DecidableEq, Repr

/-- The messaging service: whether it has a credential, and the provider behind it. -/
structure FcmService where
  isAvailable : Bool
  sendEachForMulticast : MulticastMessage → Except Unit BatchResponse

/-- The provider no longer knows the device. -/
def SendResponse.isUnregistered (response : SendResponse) : Bool :=
  !response.success && response.code == some "messaging/registration-token-not-registered"

/-- Send a message to several devices; what the provider throws counts as a full failure. -/
def FcmService.sendPush (fcm : FcmService) (tokens : List String) (title body : String)
    (data : Notification.Payload) : FcmSendResult :=
  if !fcm.isAvailable || tokens.length == 0 then
    { successCount := 0, failureCount := tokens.length, unregisteredTokens := [] }
  else
    match fcm.sendEachForMulticast
      { tokens, title, body, data := fun key => (data key).map Notification.JsonValue.text } with
    | .error _ => { successCount := 0, failureCount := tokens.length, unregisteredTokens := [] }
    | .ok batch =>
        { successCount := batch.successCount
          failureCount := batch.failureCount
          unregisteredTokens :=
            ((batch.responses.mapIdx fun index response => (response, tokens[index]?)).filter
              fun entry => entry.1.isUnregistered).map fun entry => entry.2 }

/-! ## The methods -/

/-- {lit}`CreateDeviceTokenRequestDto`. -/
structure CreateDeviceTokenRequestDto where
  token : String
  deviceType : String
  userId : Option Id := none
deriving DecidableEq, Repr

/-- What the service says of a device. -/
structure TokenResponse where
  id : Id
  token : String
  deviceType : String
  userId : Id
  createdAt : Option Timestamp
deriving DecidableEq, Repr

/-- {lit}`dto.userId || requesterUserId`. -/
def registeredFor (dto : CreateDeviceTokenRequestDto) (requesterUserId : Id) : Id :=
  (dto.userId.filter fun userId => userId != "").getD requesterUserId

/-- The columns that a registration of a known device writes. -/
def reregistered (deviceType : String) (userId : Id) : Payload DeviceToken where
  assign r := { r with deviceType, userId }

/-- The columns of a new device. -/
def newDevice (env : DeviceEnv) (dto : CreateDeviceTokenRequestDto) (userId : Id) :
    Payload DeviceToken where
  assign r := { r with token := dto.token, deviceType := dto.deviceType, userId
                       createdAt := env.now }

def registerToken (dto : CreateDeviceTokenRequestDto) (tenantId requesterUserId : Id) :
    DeviceSteps (Option TokenResponse) := do
  let found ← onDevices (env.fails .find) (deviceTokenRepository.findMany (env.inTenant tenantId)
    { rest := fun r => r.token == dto.token } {})
  match found.head? with
  | some existing =>
      if existing.userId = registeredFor dto requesterUserId then do
        let updated ← ownedSteps env tenantId .owned .write existing.id .update
          (reregistered dto.deviceType (registeredFor dto requesterUserId))
        return updated.map fun r =>
          { id := r.id, token := r.token, deviceType := r.deviceType, userId := r.userId
            createdAt := none }
      else
        Prog.throw (.conflict
          "Device token already registered for another user under this tenant")
  | none => do
      let created ← onDevices (env.fails .write) (deviceTokenRepository.create
        (env.inTenant tenantId) (newDevice env dto (registeredFor dto requesterUserId)))
      return created.map fun r =>
        { id := r.id, token := r.token, deviceType := r.deviceType, userId := r.userId
          createdAt := some r.createdAt }

/-- Whether a listing for a user, if one is given, takes the device. -/
def listedFor (userId : Option Id) (r : DeviceToken) : Bool :=
  (userId.filter fun userId => userId != "").all fun userId => r.userId == userId

def listTokens (tenantId : Id) (userId : Option Id) : DeviceSteps (List TokenResponse) := do
  let tokens ← onDevices (env.fails .find) (deviceTokenRepository.findMany
    (env.inTenant tenantId) { rest := listedFor userId } {})
  return tokens.map fun t =>
    { id := t.id, token := t.token, deviceType := t.deviceType, userId := t.userId
      createdAt := some t.createdAt }

/-- What {lit}`deleteToken` returns. -/
structure TokenDeletion where
  success : Bool
  id : Id
deriving DecidableEq, Repr

def deleteToken (id tenantId _requesterUserId : Id) : DeviceSteps TokenDeletion := do
  let existing ← onDevices (env.fails .find)
    (deviceTokenRepository.findById (env.inTenant tenantId) id)
  let _ ← Prog.orThrow (.notFound ("Device token with ID [" ++ id ++ "] not found")) existing
  let _ ← ownedSteps env tenantId .owned .write id .delete {}
  return { success := true, id }

/-- The notification that mirrors a push message. -/
def newNotification (env : DeviceEnv) (userId : Id) (title body type : String) :
    Payload Notification where
  assign r := { r with recipientType := "USER", recipientId := userId, title, body, type
                       createdAt := env.now }

/-- Keep the notification of a push message; a failure is written to the logger only. -/
def persistNotification (tenantId userId : Id) (title body type : String) : DeviceSteps Unit :=
  (onNotifications (env.fails .notify) (notificationRepository.create (env.inTenant tenantId)
    (newNotification env userId title body type)) >>= fun _ => pure ()).orElse fun _ => pure ()

/-- The payload of a message, with the tenant spread over it. -/
def pushData (tenantId : Id) (data : Option Notification.Payload) : Notification.Payload :=
  Function.update (data.getD fun _ => none) "tenantId" (some (.string tenantId))

/-- Delete the listed device of a token that the provider no longer knows; a failure is written
to the logger only. -/
def pruneToken (tenantId : Id) (tokens : List TokenResponse) (token : Option String) :
    DeviceSteps Unit :=
  match tokens.find? fun t => some t.token == token with
  | none => pure ()
  | some stale =>
      (ownedSteps env tenantId (.ownedStale stale.token) (.prune stale.token) stale.id .delete {}
        >>= fun _ => pure ()).orElse fun _ => pure ()

/-- What {lit}`sendPushNotification` returns. -/
structure PushResult where
  sent : ℕ
  payloads : Option (List PushMessage) := none

/-- A push message to the devices of a user.  {lit}`pruning` says in which order the statements
of the prunings, which run side by side, take their turns. -/
def sendPushNotification (fcm : FcmService) (pruning : List ℕ) (tenantId userId : Id)
    (title body : String) (data : Option Notification.Payload) : DeviceSteps PushResult := do
  let tokens ← listTokens env tenantId (some userId)
  if tokens.length = 0 then return { sent := 0 }
  else
    let payloads := tokens.map fun t =>
      { token := t.token, title, body, data := pushData tenantId data : PushMessage }
    if fcm.isAvailable then do
      let result := fcm.sendPush (tokens.map fun t => t.token) title body (pushData tenantId data)
      Prog.gather pruning (result.unregisteredTokens.map (pruneToken env tenantId tokens))
      persistNotification env tenantId userId title body "push"
      return { sent := result.successCount, payloads := some payloads }
    else return { sent := payloads.length, payloads := some payloads }

/-! ## A statement of two parts, uninterrupted -/

/-- An update or a deletion that nothing interrupts is the repository's. -/
theorem ownedSteps_alone (hfails : env.fails = fun _ => false) (tenantId : Id)
    (lookup change : DeviceStatement) (id : Id) (op : Operation) (data : Payload DeviceToken) :
    (ownedSteps env tenantId lookup change id op data).alone =
      statement false (deviceTokenRepository.onOwned (env.inTenant tenantId) id op data) := by
  funext db
  unfold ownedSteps onDevices BaseTenantRepository.onOwned
  rw [hfails, Prog.alone_bind, Prog.alone_atomic]
  rcases hfind : deviceTokenRepository.findFirst (env.inTenant tenantId) { id := some id }
    db.deviceTokens with ⟨e | entity, s⟩
  · have hread : statement false (deviceTokenRepository.findFirst (env.inTenant tenantId)
        { id := some id }) db = (.error (.client e), { db with deviceTokens := s }) := by
      simp [statement, hfind, Except.mapError]
    rw [Fallible.bind_of_error hread]
    simp [statement, Fallible.bind_of_error hfind, Except.mapError]
  · have hread : statement false (deviceTokenRepository.findFirst (env.inTenant tenantId)
        { id := some id }) db = (.ok entity, { db with deviceTokens := s }) := by
      simp [statement, hfind, Except.mapError]
    rw [Fallible.bind_of_ok hread]
    cases entity with
    | none => simp [statement, Fallible.bind_of_ok hfind, Except.mapError]
    | some entity =>
        simp only [statement, Fallible.bind_of_ok hfind, Prog.alone_atomic,
          Bool.false_eq_true, if_false]
        rfl

end DeviceTokenService
end Eleva
