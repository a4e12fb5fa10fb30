import Eleva.Auth.CashierRule
import Eleva.Auth.SecondFactor

/-!
# Auth - Granted and enforced permissions

A permission of a role is a resource and an action.  The login makes a text of the two, with
the resource in lower case; the ability factory splits the text again, capitalises the resource
and makes a rule of it.  For users without one of the three roles that the factory treats
specially, the rules allow exactly what the roles grant.

Main results:

- Theorem {lit}`permissionRule_about_iff`: which permissions make a rule about an action on a
  declared subject.
- Theorem {lit}`enforced_iff_granted`: the ability of a session allows an action on a declared
  subject exactly when a role of the user grants it, or when it is to read the tenant.
-/

namespace Eleva
namespace Auth

open Foundation Database TableOf

/-! ## Letters -/

/-- What is documented of lower case: texts in ASCII, and that no capital is left. -/
structure LowerCases (toLowerCase : String → String) : Prop where
  ascii : ∀ s : String, (∀ c ∈ s.toList, c.toNat < 128) → toLowerCase s = asciiLowerCase s
  noCapital : ∀ s : String, ∀ c ∈ (toLowerCase s).toList, ¬(65 ≤ c.toNat ∧ c.toNat ≤ 90)

/-- Lower case of texts in ASCII. -/
theorem asciiLowerCase_lowerCases : LowerCases asciiLowerCase where
  ascii _ _ := rfl
  noCapital s c hc := by
    rw [asciiLowerCase, String.toList_ofList] at hc
    rcases List.mem_map.mp hc with ⟨d, _, rfl⟩
    rw [toNat_toLower]
    split
    · omega
    · assumption

/-- The characters whose upper case is a capital. -/
theorem toUpper_eq_capital {c C : Char} (hC : 65 ≤ C.toNat ∧ C.toNat ≤ 90) :
    c.toUpper = C ↔ c = C ∨ c = C.toLower := by
  have hupper := toNat_toUpper c
  have hlower := toNat_toLower C
  rw [if_pos hC] at hlower
  constructor
  · intro h
    rw [h] at hupper
    split at hupper
    · exact Or.inr (Char.toNat_inj.mp (by omega))
    · exact Or.inl (Char.toNat_inj.mp hupper.symm)
  · rintro (rfl | rfl)
    · refine Char.toNat_inj.mp (hupper.trans (if_neg ?_))
      omega
    · refine Char.toNat_inj.mp (hupper.trans ?_)
      rw [if_pos (by omega)]
      omega

/-! ## Subjects and actions -/

/-- The declared subjects, other than {lit}`all`. -/
def declaredSubjects : List String :=
  ["Product", "Category", "Order", "Branch", "Tenant", "User", "Table", "Customer",
    "Restaurant", "Agent"]

/-- The declared actions, other than {lit}`manage`. -/
def declaredActions : List String :=
  ["create", "read", "update", "delete"]

/-- A declared subject is a capital and letters that are small in lower case. -/
def isSubjectText (S : String) : Bool :=
  match S.toList with
  | [] => false
  | c :: cs =>
      65 ≤ c.toNat && c.toNat ≤ 90 && (c :: cs).all (fun d => d.toNat < 128 && d != ':') &&
        cs.map Char.toLower == cs

theorem isSubjectText_of_declared : ∀ S ∈ declaredSubjects, isSubjectText S = true := by
  decide

theorem no_colon_of_declared : ∀ a ∈ "manage" :: declaredActions, ':' ∉ a.toList := by
  decide

/-- A text without capitals is capitalised to a subject exactly when it is the subject in lower
case. -/
theorem capitalized_eq_subject {S x : String} (hS : isSubjectText S = true)
    (hx : ∀ c ∈ x.toList, ¬(65 ≤ c.toNat ∧ c.toNat ≤ 90)) :
    capitalized x = S ↔ x = asciiLowerCase S := by
  unfold isSubjectText at hS
  cases hlist : S.toList with
  | nil => simp [hlist] at hS
  | cons C rest =>
      simp only [hlist, Bool.and_eq_true, decide_eq_true_eq, beq_iff_eq] at hS
      have hsmall : (asciiLowerCase S).toList = C.toLower :: rest := by
        simp [asciiLowerCase, hlist, hS.2]
      have hC : 65 ≤ C.toNat ∧ C.toNat ≤ 90 := hS.1.1
      rw [← String.toList_inj, ← String.toList_inj, hlist, hsmall]
      unfold capitalized
      cases hchars : x.toList with
      | nil => simp
      | cons c cs =>
          have hc : c ≠ C := by
            rintro rfl
            exact hx c (by rw [hchars]; exact List.mem_cons_self) hC
          simp [String.toList_ofList, toUpper_eq_capital hC, hc]

/-- A subject in lower case has no colon. -/
theorem no_colon_of_subject {S : String} (hS : isSubjectText S = true) :
    ':' ∉ (asciiLowerCase S).toList := by
  intro hmem
  rw [asciiLowerCase, String.toList_ofList] at hmem
  rcases List.mem_map.mp hmem with ⟨d, hd, hlower⟩
  have hcode := toNat_toLower d
  have hcolon : ':'.toNat = 58 := by decide
  rw [hlower, hcolon] at hcode
  have hd58 : d.toNat = 58 := by
    split at hcode
    · omega
    · exact hcode.symm
  have hdcolon : d = ':' := Char.toNat_inj.mp (hd58.trans hcolon.symm)
  unfold isSubjectText at hS
  split at hS
  · cases hS
  · next c cs hlist =>
      simp only [Bool.and_eq_true, List.all_eq_true] at hS
      have hnot := hS.1.2 d (hlist ▸ hd)
      simp [hdcolon] at hnot

/-! ## The rule of a permission -/

/-- The text that the login makes of a permission. -/
def permissionText (resource action : String) : String :=
  resource ++ ":" ++ action

/-- The permissions that make a rule about an action on a declared subject. -/
theorem permissionRule_about_iff {S a resource action : String} (hS : isSubjectText S = true)
    (ha : ':' ∉ a.toList)
    (hresource : ∀ c ∈ resource.toList, ¬(65 ≤ c.toNat ∧ c.toNat ≤ 90)) :
    (∃ rule, permissionRule (permissionText resource action) = some rule ∧
        rule.isAbout a S = true) ↔
      resource = asciiLowerCase S ∧ (action = a ∨ action = "manage") := by
  have htext : permissionText resource action =
      resource ++ String.singleton ':' ++ action := rfl
  have hcount : (permissionText resource action).toList.count ':' =
      resource.toList.count ':' + 1 + action.toList.count ':' := by
    simp [htext, String.toList_append]
    omega
  constructor
  · rintro ⟨rule, hrule, habout⟩
    unfold permissionRule at hrule
    split at hrule
    · next hone =>
        cases hrule
        have hfree : ':' ∉ resource.toList := List.count_eq_zero.mp (by omega)
        rw [htext, afterFirst_separator hfree, firstPart_separator hfree] at habout
        simp only [AbilityRule.isAbout, Bool.and_eq_true, Bool.or_eq_true, beq_iff_eq,
          capitalized_ne_all, or_false] at habout
        exact ⟨(capitalized_eq_subject hS hresource).mp habout.2, habout.1⟩
    · cases hrule
  · rintro ⟨hsubject, haction⟩
    have hfree : ':' ∉ resource.toList := by
      rw [hsubject]
      exact no_colon_of_subject hS
    have hfreeAction : ':' ∉ action.toList := by
      rcases haction with rfl | rfl
      · exact ha
      · decide
    have hone : (permissionText resource action).toList.count ':' = 1 := by
      rw [hcount, List.count_eq_zero.mpr hfree, List.count_eq_zero.mpr hfreeAction]
    refine ⟨_, if_pos hone, ?_⟩
    rw [htext, afterFirst_separator hfree, firstPart_separator hfree]
    simp only [AbilityRule.isAbout, Bool.and_eq_true, Bool.or_eq_true, beq_iff_eq]
    exact ⟨haction, Or.inl ((capitalized_eq_subject hS hresource).mpr hsubject)⟩

/-- Rules of permissions are grants without conditions. -/
theorem permissionRule_plain {permString : String} {rule : AbilityRule}
    (h : permissionRule permString = some rule) :
    rule.inverted = false ∧ rule.conditions = none := by
  unfold permissionRule at h
  split at h
  · cases h
    exact ⟨rfl, rfl⟩
  · cases h

/-! ## What roles grant -/

/-- The names of the roles that the factory treats specially. -/
def specialRoles : List String :=
  ["PLATFORM_OWNER", "CASHIER", "BRANCH_MANAGER"]

/-- A role grants an action on a subject: it has a permission for the resource, in any case,
with the action or with all of them. -/
def RoleGrants (rt : Runtime) (a S : String) (permissions : List Permission) : Prop :=
  ∃ p ∈ permissions, rt.toLowerCase p.resource = rt.toLowerCase S ∧
    (p.action = a ∨ p.action = "manage")

/-- Some role of the user grants an action on a subject. -/
def Granted (rt : Runtime) (db : Db) (user : User) (a S : String) : Prop :=
  ∃ role ∈ rolesOf db user, RoleGrants rt a S (permissionsOf db role)

/-- The permissions that a session has without any permission of a role make no rule about a
declared subject. -/
theorem fallback_not_about : ∀ S ∈ declaredSubjects, ∀ a ∈ declaredActions,
    ∀ permString ∈ ["menu:create", "menu:update", "orders:read"],
      (permissionRule permString).all (fun rule => !rule.isAbout a S) = true := by
  decide +kernel

/-- The lower case of a declared subject. -/
theorem LowerCases.of_declared {toLowerCase : String → String} (h : LowerCases toLowerCase)
    {S : String} (hS : isSubjectText S = true) : toLowerCase S = asciiLowerCase S := by
  refine h.ascii S fun c hc => ?_
  unfold isSubjectText at hS
  split at hS
  · cases hS
  · next C cs hlist =>
      simp only [Bool.and_eq_true, List.all_eq_true] at hS
      have hsmall := hS.1.2 c (hlist ▸ hc)
      simp only [decide_eq_true_eq] at hsmall
      exact hsmall.1

section Session

variable {rt : Runtime} (hrt : LowerCases rt.toLowerCase) {a S : String}
  (ha : a ∈ declaredActions) (hS : S ∈ declaredSubjects)

include hrt ha hS

/-- A permission that grants an action on a declared subject is complete. -/
theorem complete_of_grant {p : Permission}
    (hresource : rt.toLowerCase p.resource = rt.toLowerCase S)
    (haction : p.action = a ∨ p.action = "manage") :
    (p.action != "" && p.resource != "") = true := by
  have hactions : ∀ b ∈ "manage" :: declaredActions, b ≠ "" := by decide
  have hsubjects : ∀ T ∈ declaredSubjects, asciiLowerCase T ≠ asciiLowerCase "" := by
    decide +kernel
  have hmem : p.action ∈ "manage" :: declaredActions := by
    rcases haction with h | h
    · exact h ▸ List.mem_cons_of_mem _ ha
    · exact h ▸ List.mem_cons_self
  have hne : p.resource ≠ "" := by
    intro hempty
    rw [hempty, hrt.of_declared (isSubjectText_of_declared S hS),
      hrt.ascii "" (by simp)] at hresource
    exact hsubjects S hS hresource.symm
  simp [hactions p.action hmem, hne]

/-- The permissions of a session make a rule about an action on a declared subject exactly when
a role of the account grants it. -/
theorem permissionNames_about_iff {account : LoginAccount} :
    (∃ permString ∈ account.permissionNames rt, ∃ rule, permissionRule permString = some rule ∧
        rule.isAbout a S = true) ↔
      ∃ role ∈ account.roles, RoleGrants rt a S role.2 := by
  have hsubject := isSubjectText_of_declared S hS
  have hcolon := no_colon_of_declared a (List.mem_cons_of_mem _ ha)
  have hlower := hrt.of_declared hsubject
  have habout : ∀ p : Permission,
      (∃ rule, permissionRule (permissionText (rt.toLowerCase p.resource) p.action) = some rule ∧
        rule.isAbout a S = true) ↔
      rt.toLowerCase p.resource = rt.toLowerCase S ∧ (p.action = a ∨ p.action = "manage") := by
    intro p
    rw [hlower]
    exact permissionRule_about_iff hsubject hcolon (hrt.noCapital p.resource)
  have hnames : ∀ permString, permString ∈ (account.roles.flatMap (·.2)).filterMap (fun p =>
      if p.action != "" && p.resource != "" then
        some (rt.toLowerCase p.resource ++ ":" ++ p.action) else none) ↔
      ∃ role ∈ account.roles, ∃ p ∈ role.2, (p.action != "" && p.resource != "") = true ∧
        permissionText (rt.toLowerCase p.resource) p.action = permString := by
    intro permString
    simp only [List.mem_filterMap, List.mem_flatMap, Option.ite_none_right_eq_some,
      Option.some.injEq]
    constructor
    · rintro ⟨p, ⟨role, hrole, hp⟩, hcomplete, htext⟩
      exact ⟨role, hrole, p, hp, hcomplete, htext⟩
    · rintro ⟨role, hrole, p, hp, hcomplete, htext⟩
      exact ⟨p, ⟨role, hrole, hp⟩, hcomplete, htext⟩
  constructor
  · rintro ⟨permString, hmem, rule, hrule, hstated⟩
    unfold LoginAccount.permissionNames at hmem
    simp only at hmem
    split at hmem
    · have hnot := fallback_not_about S hS a ha permString hmem
      rw [hrule] at hnot
      simp [hstated] at hnot
    · rcases (hnames permString).mp hmem with ⟨role, hrole, p, hp, _, rfl⟩
      exact ⟨role, hrole, p, hp, (habout p).mp ⟨rule, hrule, hstated⟩⟩
  · rintro ⟨role, hrole, p, hp, hgrant⟩
    rcases (habout p).mpr hgrant with ⟨rule, hrule, hstated⟩
    refine ⟨_, ?_, rule, hrule, hstated⟩
    have hmem := (hnames _).mpr
      ⟨role, hrole, p, hp, complete_of_grant hrt ha hS hgrant.1 hgrant.2, rfl⟩
    unfold LoginAccount.permissionNames
    simp only
    rw [if_neg (List.ne_nil_of_mem hmem)]
    exact hmem

end Session

/-! ## The ability of a session -/

/-- The role names of a session are the names of the account's roles, or one that is not
special. -/
theorem not_special_of_roleNames {account : LoginAccount}
    (hroles : ∀ role ∈ account.roles, role.1 ∉ specialRoles) :
    ∀ name ∈ account.roleNames, name ∉ specialRoles := by
  intro name hname
  unfold LoginAccount.roleNames at hname
  simp only at hname
  split at hname
  · rw [List.mem_singleton.mp hname]
    decide
  · rcases List.mem_map.mp (List.mem_filter.mp hname).1 with ⟨role, hrole, rfl⟩
    exact hroles role hrole

/-- The rules of a user without a special role. -/
theorem createForUser_plain {payload : UserPayload}
    (hroles : ∀ name ∈ payload.roles, name ∉ specialRoles) :
    createForUser payload = payload.permissions.filterMap permissionRule ++
      [{ action := "read", subject := "Tenant" }] := by
  have habsent : ∀ name ∈ specialRoles, ¬payload.roles.contains name = true := by
    intro name hname hcontains
    exact hroles name (List.contains_iff_mem.mp hcontains) hname
  have howner := habsent "PLATFORM_OWNER" (by decide)
  have hcashier := habsent "CASHIER" (by decide)
  have hmanager := habsent "BRANCH_MANAGER" (by decide)
  have hbranches : branchManagerRules payload = [] := by
    unfold branchManagerRules
    split
    · rw [if_neg hmanager]
    · rfl
  unfold createForUser cashierRules
  rw [if_neg howner, if_neg hcashier, hbranches, List.append_nil, List.append_nil]

/-- The ability of a user without a special role allows what a permission makes a rule about,
and to read the tenant. -/
theorem plain_ability_iff {can : AbilityLibrary} (hcan : Documented can) {payload : UserPayload}
    (hroles : ∀ name ∈ payload.roles, name ∉ specialRoles) {a S : String}
    {fields : SubjectFields} (ha : a ∈ declaredActions) (hS : S ∈ declaredSubjects) :
    can (createForUser payload) a S fields = true ↔
      (a = "read" ∧ S = "Tenant") ∨
        ∃ permString ∈ payload.permissions, ∃ rule, permissionRule permString = some rule ∧
          rule.isAbout a S = true := by
  have hrules : ∀ rule ∈ createForUser payload,
      rule.inverted = false ∧ rule.conditions = none := by
    intro rule hrule
    rw [createForUser_plain hroles] at hrule
    rcases List.mem_append.mp hrule with hmem | hmem
    · rcases List.mem_filterMap.mp hmem with ⟨permString, _, hmade⟩
      exact permissionRule_plain hmade
    · rw [List.mem_singleton.mp hmem]
      exact ⟨rfl, rfl⟩
  have happlies : ∀ rule ∈ createForUser payload,
      rule.applies a S fields = true ↔ rule.isAbout a S = true := by
    intro rule hrule
    simp [AbilityRule.applies, (hrules rule hrule).2]
  have htenant : ({ action := "read", subject := "Tenant" } : AbilityRule).isAbout a S = true ↔
      a = "read" ∧ S = "Tenant" := by
    have hactions : ∀ b ∈ declaredActions, "manage" ≠ b := by decide
    have hsubjects : ∀ T ∈ declaredSubjects, "all" ≠ T := by decide
    simp only [AbilityRule.isAbout, Bool.and_eq_true, Bool.or_eq_true, beq_iff_eq]
    constructor
    · rintro ⟨rfl | hread, rfl | hall⟩
      · exact ⟨rfl, rfl⟩
      · exact absurd hall (by decide)
      · exact absurd hread (by decide)
      · exact absurd hall (by decide)
    · rintro ⟨rfl, rfl⟩
      exact ⟨Or.inl rfl, Or.inl rfl⟩
  rw [hcan, lastRuleDecides_iff fun rule hrule _ => (hrules rule hrule).1]
  constructor
  · rintro ⟨rule, hrule, hstated⟩
    have habout := (happlies rule hrule).mp hstated
    rw [createForUser_plain hroles] at hrule
    rcases List.mem_append.mp hrule with hmem | hmem
    · rcases List.mem_filterMap.mp hmem with ⟨permString, hperm, hmade⟩
      exact Or.inr ⟨permString, hperm, rule, hmade, habout⟩
    · rw [List.mem_singleton.mp hmem] at habout
      exact Or.inl (htenant.mp habout)
  · intro h
    have hmem : ∃ rule ∈ createForUser payload, rule.isAbout a S = true := by
      rw [createForUser_plain hroles]
      rcases h with hread | ⟨permString, hperm, rule, hmade, habout⟩
      · exact ⟨_, List.mem_append_right _ (List.mem_singleton_self _), htenant.mpr hread⟩
      · exact ⟨rule, List.mem_append_left _ (List.mem_filterMap.mpr ⟨permString, hperm, hmade⟩),
          habout⟩
    rcases hmem with ⟨rule, hrule, habout⟩
    exact ⟨rule, hrule, (happlies rule hrule).mpr habout⟩

/-- An account that a login finds has the roles of its stored user, with their permissions. -/
theorem roles_of_findAccount {env : LoginEnv} {email : String} {tenantId : Option Id}
    {account : LoginAccount} {w w' : World}
    (h : findAccount env email tenantId w = (.ok (some account), w')) :
    account.roles = (rolesOf w.db account.user).map fun role =>
      (role.name, permissionsOf w.db role) := by
  have hstate : (users.run (prisma.user.findFirst env.toEnv (loginWhere email tenantId)) w).2 =
      w := TableOf.run_findFirst_state _ w
  unfold findAccount at h
  split at h
  · next user w₁ hrun =>
      rw [hrun] at hstate
      cases h
      cases hstate
      rfl
  · cases h

/-- The ability of a session allows an action on a declared subject exactly when a role of the
user grants it, or when it is to read the tenant.  This holds of every user that logs in and has
no special role, whatever the permissions of the roles are, and on every row. -/
theorem enforced_iff_granted {can : AbilityLibrary} (hcan : Documented can) {rt : Runtime}
    (hrt : LowerCases rt.toLowerCase) {env : LoginEnv} (hdb : env.databaseUrl = true)
    {email password : String} {mfaToken : Option String} {tenantId : Option Id}
    {profile : LoginProfile} {w w' : World}
    (hlogin : validateLogin rt env email password mfaToken tenantId w = (.ok profile, w')) :
    ∃ user ∈ w.db.users, profile.id = user.id ∧ profile.email = user.email ∧
      ((∀ role ∈ rolesOf w.db user, role.name ∉ specialRoles) →
        ∀ payload : UserPayload, payload.roles = profile.roles →
          payload.permissions = profile.permissions →
            ∀ a ∈ declaredActions, ∀ S ∈ declaredSubjects, ∀ fields : SubjectFields,
              can (createForUser payload) a S fields = true ↔
                (a = "read" ∧ S = "Tenant") ∨ Granted rt w.db user a S) := by
  rcases validateLogin_eq_ok hlogin with ⟨account, rfl, _, hfound | ⟨hmock, _⟩, _, _⟩
  · refine ⟨account.user, mem_users_of_findAccount hfound, rfl, rfl, ?_⟩
    intro hplain payload hroles hpermissions a ha S hS fields
    have haccount := roles_of_findAccount hfound
    have hnames : ∀ name ∈ payload.roles, name ∉ specialRoles := by
      rw [hroles]
      refine not_special_of_roleNames fun role hrole => ?_
      rw [haccount] at hrole
      rcases List.mem_map.mp hrole with ⟨stored, hstored, rfl⟩
      exact hplain stored hstored
    rw [plain_ability_iff hcan hnames ha hS, hpermissions]
    have hgrants : (∃ permString ∈ account.permissionNames rt, ∃ rule,
        permissionRule permString = some rule ∧ rule.isAbout a S = true) ↔
          ∃ role ∈ account.roles, RoleGrants rt a S role.2 := permissionNames_about_iff hrt ha hS
    rw [haccount] at hgrants
    simp only [List.mem_map, exists_exists_and_eq_and] at hgrants
    exact or_congr_right hgrants
  · rw [hdb] at hmock
    cases hmock

/-! ## A waiter -/

/-- Wim is a waiter of his tenant. -/
def wim : User where
  id := "u1"
  tenantId := some "t1"
  firstName := "Wim"
  lastName := "W"
  email := "wim@example.com"
  passwordHash := "salt$basilico"
  roleIds := ["r1"]

/-- The database with Wim and his role, which manages products and reads orders. -/
def wimWorld : World where
  db :=
    { tenants := [{ id := "t1", name := "Trattoria" }]
      permissions := [{ id := "p1", action := "manage", resource := "PRODUCT" },
        { id := "p2", action := "read", resource := "Order" }]
      roles := [{ id := "r1", tenantId := some "t1", name := "WAITER", displayName := "Waiter"
                  permissionIds := ["p1", "p2"] }]
      users := [wim] }

/-- The login of Wim. -/
def wimLogin : Service LoginProfile :=
  validateLogin plainRuntime { cookEnv with context := loginContext none none }
    "wim@example.com" "basilico" none none

/-- Wim updates products and does not update orders. -/
theorem waiter_enforced : ∃ profile w', wimLogin wimWorld = (.ok profile, w') ∧
    lastRuleDecides (createForUser profile.payload.user.payload) "update" "Product" {} = true ∧
    ¬lastRuleDecides (createForUser profile.payload.user.payload) "update" "Order" {} = true := by
  have hrun : (wimLogin wimWorld).1.toOption.any (fun _ => true) = true := by decide +kernel
  rcases Fallible.returned_of_any hrun with ⟨profile, w', hlogin, _⟩
  have hdocumented : Documented lastRuleDecides := fun _ _ _ _ => rfl
  rcases enforced_iff_granted hdocumented asciiLowerCase_lowerCases rfl hlogin with
    ⟨user, huser, _, _, henforced⟩
  rw [List.mem_singleton.mp huser] at henforced
  have hability := henforced (by decide) profile.payload.user.payload rfl rfl "update" (by decide)
  refine ⟨profile, w', hlogin, (hability "Product" (by decide) {}).mpr (Or.inr ?_), ?_⟩
  · exact ⟨_, List.mem_singleton_self _, _, List.mem_cons_self, by decide +kernel, Or.inr rfl⟩
  · rw [hability "Order" (by decide) {}]
    rintro (⟨htenant, _⟩ | ⟨role, hrole, p, hp, hresource, haction⟩)
    · exact absurd htenant (by decide)
    · revert hresource haction
      revert p
      revert role
      unfold plainRuntime
      decide +kernel

end Auth
end Eleva
