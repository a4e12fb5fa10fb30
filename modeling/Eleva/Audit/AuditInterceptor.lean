import Eleva.Audit.AuditService
import Eleva.Auth.RbacGuard
import Eleva.Foundation.Text

/-!
# Audit - The audit interceptor

The interceptor stands around every handler.  For a request that may change something it
waits for the handler and then writes one row of the audit log, with an action, an entity
and an id that it takes from the URL, the parameters of the route and the response.  A row
that the columns do not accept is dropped: the service catches the failed statement.

Main results:

- Theorem {lit}`intercept_apply`: the interceptor gives the handler's outcome, and the log
  after the handler with the row of the request, if there is one.
- Theorem {lit}`parseEntityFromUrl_entityId`: the id of the entity is the first of those
  that the parameters and the response give.
- Theorem {lit}`audited_iff`: a request that may change something is recorded by exactly one
  row if and only if its URL holds none of the skipped paths, query included, and the values
  taken from it fit their columns.
- Theorem {lit}`query_hides_the_request`: an order that is placed with a path to log in at in
  its query leaves no row.
-/

namespace Eleva
namespace Audit

open Foundation

/-! ## Requests -/

/-- The user of an authenticated request. -/
structure AuthenticatedUser where
  id : String
  tenantId : Option String
deriving Repr

/-- The body of a request, once it is parsed. -/
inductive Body where
  | object (properties : List (String × Json))
  | array (items : List Json)
deriving Repr

/-- What the interceptor reads of a request. -/
structure AuditedRequest where
  method : String
  originalUrl : String
  url : String := ""
  user : Option AuthenticatedUser := none
  tenantId : Option String := none
  ip : Option String := none
  xForwardedFor : Option String := none
  remoteAddress : Option String := none
  userAgent : Option String := none
  params : List (String × Json) := []
  body : Option Body := none
deriving Repr

/-- {lit}`first || second`, for texts. -/
def firstOf (first second : Option String) : Option String :=
  (orNull first).or second

namespace AuditedRequest

/-- {lit}`request.originalUrl || request.url`. -/
def fullUrl (request : AuditedRequest) : String :=
  (orNull (some request.originalUrl)).getD request.url

/-- {lit}`user?.tenantId || request.tenantId || null`. -/
def recordedTenant (request : AuditedRequest) : Option String :=
  firstOf (request.user.bind (·.tenantId)) (orNull request.tenantId)

/-- {lit}`user?.id || null`. -/
def recordedUser (request : AuditedRequest) : Option String :=
  orNull (request.user.map (·.id))

/-- The address of the client, or {lit}`'unknown'`. -/
def ipAddress (request : AuditedRequest) : String :=
  (firstOf request.ip (firstOf request.xForwardedFor (orNull request.remoteAddress))).getD
    "unknown"

/-- {lit}`request.headers['user-agent'] || 'unknown'`. -/
def agent (request : AuditedRequest) : String :=
  (orNull request.userAgent).getD "unknown"

end AuditedRequest

/-- The methods of the operations that are logged. -/
def mutatingMethods : List String :=
  ["POST", "PUT", "DELETE", "PATCH"]

/-- Texts whose URLs are not audited. -/
def skipPaths : List String :=
  ["/auth/login", "/auth/refresh", "/auth/logout", "/audit-logs"]

/-- {lit}`skipPaths.some((p) => url.includes(p))`. -/
def skipped (url : String) : Bool :=
  skipPaths.any fun p => includes url p

/-! ## The entity -/

/-- {lit}`url.split('/').filter(Boolean)`. -/
def urlParts (url : String) : List String :=
  ((url.toList.splitOn '/').map String.ofList).filter (· != "")

/-- {lit}`p.startsWith('v1')`. -/
def isVersion (p : String) : Bool :=
  "v1".toList.isPrefixOf p.toList

/-- The part after the version, or the last part. -/
def resource (url : String) : String :=
  let parts := urlParts url
  match (parts.dropWhile fun p => !isVersion p).drop 1 with
  | next :: _ => next
  | [] => parts.getLast?.getD "Unknown"

/-- The names of the resources that have one. -/
def entityNames : List (String × String) :=
  [("branches", "Branch"), ("tables", "Table"), ("categories", "Category"),
    ("products", "Product"), ("orders", "Order"), ("customers", "Customer"),
    ("tenants", "Tenant"), ("users", "User"), ("webhooks", "Webhook"),
    ("device-tokens", "DeviceToken"), ("billing", "Subscription"), ("admin", "Tenant"),
    ("assets", "Asset"), ("kds", "Order")]

/-- A method that every object inherits, as a text. -/
def nativeFunction (name : String) : String :=
  "function " ++ name ++ "() \x7b [native code] \x7d"

/-- The properties that every object inherits, with their texts. -/
def inheritedProperties : List (String × String) :=
  ("constructor", nativeFunction "Object") :: ("__proto__", "[object Object]") ::
    ["toString", "toLocaleString", "valueOf", "hasOwnProperty", "isPrototypeOf",
      "propertyIsEnumerable", "__defineGetter__", "__defineSetter__", "__lookupGetter__",
      "__lookupSetter__"].map fun name => (name, nativeFunction name)

/-- {lit}`mapping[resource]`. -/
def mapping (name : String) : Option EntityName :=
  ((entityNames.lookup name).map EntityName.text).or
    ((inheritedProperties.lookup name).map EntityName.inherited)

/-- {lit}`name.charAt(0).toUpperCase() + name.slice(1)`; a URL is ASCII. -/
def capitalised (name : String) : String :=
  match name.toList with
  | [] => ""
  | c :: cs => String.ofList (c.toUpper :: cs)

structure EntityInfo where
  entityName : EntityName
  entityId : Option String
deriving Repr

/-- A value, where it counts as true. -/
def given (value : Option Json) : Option Json :=
  value.filter Json.truthy

/-- {lit}`String(value)`. -/
def textOf : Option Json → String
  | none => "undefined"
  | some value => value.text

/-- The tenant of a response, where it is an object. -/
def responseTenant (responseData : Option Json) : Option Json :=
  (given (responseData.bind (Json.property "tenant"))).filter Json.isObject

/-- {lit}`parseEntityFromUrl`. -/
def parseEntityFromUrl (url : String) (params : List (String × Json))
    (responseData : Option Json) : EntityInfo where
  entityName := (mapping (resource url)).getD (.text (capitalised (resource url)))
  entityId :=
    match given (params.lookup "id") with
    | some id => some id.text
    | none =>
    match given (params.lookup "orderItemId") with
    | some orderItemId => some orderItemId.text
    | none =>
    match given (responseData.bind (Json.property "id")) with
    | some id => some id.text
    | none =>
    match responseTenant responseData with
    | some tenant => some (textOf (tenant.property "id"))
    | none => (given (responseData.bind (Json.property "orderId"))).map Json.text

/-! ## The values -/

/-- The properties that are not written as they are. -/
def sensitive : List String :=
  ["password", "passwordHash", "secret", "mfaSecret", "secretKey"]

/-- The own properties of a body. -/
def Body.spread : Body → List (String × Json)
  | .object properties => properties
  | .array items => items.zipIdx.map fun (item, i) => (toString i, item)

def redacted (property : String × Json) : String × Json :=
  if property.1 ∈ sensitive then (property.1, .string "[REDACTED]") else property

/-- {lit}`sanitizeValues`. -/
def sanitizeValues (values : Option Body) : Option Json :=
  values.map fun body =>
    let sanitized := Json.object (body.spread.map redacted)
    let json := sanitized.stringify
    if utf16Length json > 5000 then
      .object [("_truncated", .bool true), ("preview", .string (substringTo 5000 json))]
    else sanitized

/-! ## The interceptor -/

/-- What a handler returns, or the error it throws. -/
abbrev Handler := Auditing (Option Json)

/-- The entry of a request whose handler returned. -/
def successEntry (request : AuditedRequest) (responseData : Option Json) : AuditLogEntry :=
  let entityInfo := parseEntityFromUrl request.fullUrl request.params responseData
  { tenantId := request.recordedTenant
    userId := request.recordedUser
    action := request.method ++ ":" ++ entityInfo.entityName.shown
    entityName := entityInfo.entityName
    entityId := entityInfo.entityId
    oldValues := none
    newValues := sanitizeValues request.body
    ipAddress := request.ipAddress
    userAgent := substringTo 512 request.agent }

/-- The entry of a request whose handler threw. -/
def failureEntry (request : AuditedRequest) : AuditLogEntry :=
  { tenantId := request.recordedTenant
    userId := request.recordedUser
    action := request.method ++ ":" ++ request.fullUrl ++ ":FAILED"
    entityName := .text "Unknown"
    entityId := none
    oldValues := none
    newValues := sanitizeValues request.body
    ipAddress := request.ipAddress
    userAgent := substringTo 512 request.agent }

/-- The observer of the handler: {lit}`next` or {lit}`error`. -/
def entryOf (request : AuditedRequest) : Except AuditError (Option Json) → AuditLogEntry
  | .ok responseData => successEntry request responseData
  | .error _ => failureEntry request

/-- {lit}`intercept`. -/
def intercept (env : AuditEnv) (request : AuditedRequest) (next : Handler) : Handler :=
  if !mutatingMethods.contains request.method then next
  else if skipped request.fullUrl then next
  else fun rows =>
    ((next rows).1, (log env (entryOf request (next rows).1) (next rows).2).2)

/-! ## What the interceptor does -/

/-- The handler's outcome passes through, and the row of the request follows the rows that
the handler left. -/
theorem intercept_apply (env : AuditEnv) {request : AuditedRequest}
    (hmethod : request.method ∈ mutatingMethods) (hurl : skipped request.fullUrl = false)
    (next : Handler) (rows : List AuditLog) :
    intercept env request next rows =
      ((next rows).1,
        (next rows).2 ++ (auditLogRow env (entryOf request (next rows).1)).toList) := by
  have hcontains : mutatingMethods.contains request.method = true :=
    List.contains_iff_mem.mpr hmethod
  unfold intercept
  rw [hcontains, hurl]
  simp only [log_apply]
  rfl

/-- A request that the interceptor lets pass is the handler's. -/
theorem intercept_of_skipped (env : AuditEnv) {request : AuditedRequest}
    (hurl : skipped request.fullUrl = true) (next : Handler) :
    intercept env request next = next := by
  unfold intercept
  rw [hurl]
  exact ite_self _

/-- The ids that the parameters and the response give, in the order of preference. -/
def recordIds (params : List (String × Json)) (responseData : Option Json) : List String :=
  ((given (params.lookup "id")).map Json.text).toList ++
    ((given (params.lookup "orderItemId")).map Json.text).toList ++
    ((given (responseData.bind (Json.property "id"))).map Json.text).toList ++
    ((responseTenant responseData).map fun tenant => textOf (tenant.property "id")).toList ++
    ((given (responseData.bind (Json.property "orderId"))).map Json.text).toList

/-- The id of the entity is the first that is given. -/
theorem parseEntityFromUrl_entityId (url : String) (params : List (String × Json))
    (responseData : Option Json) :
    (parseEntityFromUrl url params responseData).entityId =
      (recordIds params responseData).head? := by
  unfold parseEntityFromUrl recordIds
  cases given (params.lookup "id") with
  | some id => rfl
  | none =>
  cases given (params.lookup "orderItemId") with
  | some orderItemId => rfl
  | none =>
  cases given (responseData.bind (Json.property "id")) with
  | some id => rfl
  | none =>
  cases responseTenant responseData with
  | some tenant => rfl
  | none => cases given (responseData.bind (Json.property "orderId")) <;> rfl

/-! ## Which requests leave a row -/

/-- The name of the entity fits its column, and the action that ends with it: the resource
has a name, or it is no property that objects inherit and is short enough. -/
def NameFits (method name : String) : Prop :=
  (entityNames.lookup name).isSome ∨
    inheritedProperties.lookup name = none ∧ method.length + 1 + name.length ≤ 100

/-- What a request and the outcome of its handler must satisfy for the values taken from
them to fit. -/
def OutcomeFits (env : AuditEnv) (request : AuditedRequest) :
    Except AuditError (Option Json) → Prop
  | .ok responseData =>
      NameFits request.method (resource request.fullUrl) ∧
        ∀ id, (recordIds request.params responseData).head? = some id → id ≠ "" →
          env.isUuid id
  | .error _ => request.method.length + request.fullUrl.length + 8 ≤ 100

/-- A request, with the outcome of its handler, that can be recorded. -/
structure Recordable (env : AuditEnv) (request : AuditedRequest)
    (outcome : Except AuditError (Option Json)) : Prop where
  /-- None of the skipped paths occurs in the URL, in its query neither. -/
  notSkipped : ∀ p ∈ skipPaths, includes request.fullUrl p = false
  tenant : ∀ id, request.recordedTenant = some id → id ≠ "" → env.isUuid id
  user : ∀ id, request.recordedUser = some id → id ≠ "" → env.isUuid id
  address : request.ipAddress.length ≤ 45
  outcome : OutcomeFits env request outcome

theorem length_capitalised (name : String) : (capitalised name).length = name.length := by
  unfold capitalised
  cases hname : name.toList with
  | nil => rw [← String.length_toList (s := name), hname]; rfl
  | cons c cs => rw [String.length_ofList, ← String.length_toList (s := name), hname]; rfl

theorem length_entityName_le : ∀ p ∈ entityNames, p.2.length ≤ 12 := by
  decide

theorem length_method_le : ∀ method ∈ mutatingMethods, method.length ≤ 6 := by
  decide

/-- The action of a request whose handler returned fits, and the name of its entity is a
text that fits, exactly when the resource is named or short. -/
theorem nameFits_iff {method : String} (hmethod : method ∈ mutatingMethods) (url : String)
    (params : List (String × Json)) (responseData : Option Json) :
    ((method ++ ":" ++ (parseEntityFromUrl url params responseData).entityName.shown).length ≤
        100 ∧
      ∃ name, (parseEntityFromUrl url params responseData).entityName = .text name ∧
        name.length ≤ 100) ↔ NameFits method (resource url) := by
  have hentity : (parseEntityFromUrl url params responseData).entityName =
      (mapping (resource url)).getD (.text (capitalised (resource url))) := rfl
  have hlength := length_method_le method hmethod
  have hcolon : (":" : String).length = 1 := rfl
  rw [hentity]
  unfold NameFits mapping
  cases hname : entityNames.lookup (resource url) with
  | some name =>
      have hmem : (resource url, name) ∈ entityNames := by
        rcases List.lookup_eq_some_iff.mp hname with ⟨before, after, hnames, _⟩
        rw [hnames]
        exact List.mem_append_right _ List.mem_cons_self
      have hshort : name.length ≤ 12 := length_entityName_le _ hmem
      simp [EntityName.shown, String.length_append]
      omega
  | none =>
      cases hinherited : inheritedProperties.lookup (resource url) with
      | some shown => simp
      | none =>
          simp [EntityName.shown, String.length_append, length_capitalised]
          omega

/-- The columns accept the entry of a request exactly when the values taken from the request
and the outcome of its handler fit. -/
theorem entryOf_accepted_iff (env : AuditEnv) {request : AuditedRequest}
    (hmethod : request.method ∈ mutatingMethods)
    (outcome : Except AuditError (Option Json)) :
    (auditLogRow env (entryOf request outcome)).isSome ↔
      (∀ id, request.recordedTenant = some id → id ≠ "" → env.isUuid id) ∧
      (∀ id, request.recordedUser = some id → id ≠ "" → env.isUuid id) ∧
      request.ipAddress.length ≤ 45 ∧ OutcomeFits env request outcome := by
  have hagent : (substringTo 512 request.agent).length ≤ 512 := length_substringTo_le _ _
  rw [accepts_iff]
  cases outcome with
  | ok responseData =>
      have hname := nameFits_iff hmethod request.fullUrl request.params responseData
      have hid := parseEntityFromUrl_entityId request.fullUrl request.params responseData
      simp only [entryOf, successEntry, OutcomeFits, ← hname, ← hid, hagent, and_true]
      constructor
      · rintro ⟨htenant, huser, haction, hentity, hentityId, haddress⟩
        exact ⟨htenant, huser, haddress, ⟨haction, hentity⟩, hentityId⟩
      · rintro ⟨htenant, huser, haddress, ⟨haction, hentity⟩, hentityId⟩
        exact ⟨htenant, huser, haction, hentity, hentityId, haddress⟩
  | error message =>
      have hlength : (request.method ++ ":" ++ request.fullUrl ++ ":FAILED").length =
          request.method.length + request.fullUrl.length + 8 := by
        have hcolon : (":" : String).length = 1 := rfl
        have hfailed : (":FAILED" : String).length = 7 := rfl
        simp only [String.length_append, hcolon, hfailed]
        omega
      have hunknown : ("Unknown" : String).length ≤ 100 := by decide
      simp only [entryOf, failureEntry, OutcomeFits, hlength, hagent, and_true]
      constructor
      · rintro ⟨htenant, huser, haction, _, _, haddress⟩
        exact ⟨htenant, huser, haddress, haction⟩
      · rintro ⟨htenant, huser, haddress, haction⟩
        exact ⟨htenant, huser, haction, ⟨_, rfl, hunknown⟩, fun _ h => absurd h (by simp),
          haddress⟩

/-- A request that may change something is recorded by exactly one row if and only if its
URL holds none of the skipped paths and the values taken from it and from the outcome of its
handler fit their columns. -/
theorem audited_iff (env : AuditEnv) {request : AuditedRequest}
    (hmethod : request.method ∈ mutatingMethods) (next : Handler) (rows : List AuditLog) :
    (∃ row, (intercept env request next rows).2 = (next rows).2 ++ [row]) ↔
      Recordable env request (next rows).1 := by
  cases hurl : skipped request.fullUrl with
  | true =>
      rw [intercept_of_skipped env hurl]
      constructor
      · rintro ⟨row, hrow⟩
        simp at hrow
      · intro h
        rcases List.any_eq_true.mp hurl with ⟨p, hp, hincludes⟩
        rw [h.notSkipped p hp] at hincludes
        cases hincludes
  | false =>
      have hpaths : ∀ p ∈ skipPaths, includes request.fullUrl p = false := fun p hp =>
        Bool.eq_false_iff.mpr fun hincludes =>
          Bool.eq_false_iff.mp hurl (List.any_eq_true.mpr ⟨p, hp, hincludes⟩)
      have hone : (∃ row, (intercept env request next rows).2 = (next rows).2 ++ [row]) ↔
          (auditLogRow env (entryOf request (next rows).1)).isSome := by
        rw [intercept_apply env hmethod hurl]
        cases auditLogRow env (entryOf request (next rows).1) <;> simp
      rw [hone, entryOf_accepted_iff env hmethod]
      constructor
      · rintro ⟨htenant, huser, haddress, houtcome⟩
        exact ⟨hpaths, htenant, huser, haddress, houtcome⟩
      · rintro ⟨_, htenant, huser, haddress, houtcome⟩
        exact ⟨htenant, huser, haddress, houtcome⟩

/-! ## An order that leaves no row -/

/-- The path of a URL. -/
def urlPath (url : String) : String :=
  firstPart '?' url

/-- A database that takes UUIDs in their usual text form. -/
def auditDatabase : AuditEnv where
  uuid := "6b1f5f4e-1f0f-4a55-9a53-0d7c4f6f2b11"
  now := 1700000000000
  isUuid := Auth.isUuid

/-- A guest places an order. -/
def placeOrder (url : String) : AuditedRequest where
  method := "POST"
  originalUrl := url
  ip := some "203.0.113.7"

/-- The handler of the order, which returns its id. -/
def orderPlaced : Handler := fun rows =>
  (.ok (some (.object [("id", .string "0b7a18f3-39b0-4050-bf83-097a18fcd34b")])), rows)

/-- The order is recorded when its URL is the plain path. -/
theorem order_is_audited :
    ∃ row, (intercept auditDatabase (placeOrder "/api/v1/orders") orderPlaced []).2 = [row] :=
  (audited_iff auditDatabase (by decide) orderPlaced []).mpr
    { notSkipped := by decide +kernel
      tenant := by simp [AuditedRequest.recordedTenant, placeOrder, firstOf, orNull]
      user := by simp [AuditedRequest.recordedUser, placeOrder, orNull]
      address := by decide +kernel
      outcome := by
        refine ⟨Or.inl (by decide +kernel), fun id hid _ => ?_⟩
        have horder : (recordIds (placeOrder "/api/v1/orders").params
            (some (.object [("id", .string "0b7a18f3-39b0-4050-bf83-097a18fcd34b")]))).head? =
              some "0b7a18f3-39b0-4050-bf83-097a18fcd34b" := by decide +kernel
        rw [Option.some.inj (hid.symm.trans horder)]
        decide +kernel }

/-- With a path to log in at in its query, it leaves no row. -/
theorem query_hides_the_request :
    let request := placeOrder "/api/v1/orders?ref=/auth/login"
    skipped (urlPath request.fullUrl) = false ∧
      (intercept auditDatabase request orderPlaced []).2 = [] := by
  decide +kernel

end Audit
end Eleva
