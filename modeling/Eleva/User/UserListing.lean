import Mathlib.Data.String.Basic
import Eleva.Foundation.Pages
import Eleva.Auth.RbacGuard
import Eleva.User.UserService

/-!
# User - The listing of the staff

A page of the staff users of a tenant: the filters, the clamped size and offset of the page, and
the order in which {lit}`id` breaks the ties of {lit}`createdAt`.

Main results:

- Definitions {lit}`findAll` and {lit}`listUsers`: the methods.
- Theorem {lit}`findAll_apply`: a page is a window on the roster.
- Theorem {lit}`listUsers_apply`: how a request names a page.
- Theorem {lit}`roster_pages`: page after page, the roster.
-/

namespace Eleva
namespace UserService

open Foundation Database Auth TableOf

/-! ## Pages -/

/-- Columns that only the listing reads: of a user, and of its assignment to a branch. -/
structure RosterColumns where
  createdAt : Id → Timestamp
  assignmentTenantId : Id → Id → Id

structure UserFilters where
  isActive : Option Bool := none
  branchId : Option Id := none
  limit : Option ℤ := none
  offset : Option ℤ := none
deriving DecidableEq, Repr

def DEFAULT_PAGE_SIZE : ℤ := 100

def MAX_PAGE_SIZE : ℤ := 200

/-- The user is assigned to the branch that the filters name. -/
def passesBranch (columns : RosterColumns) (tenantId : Id) (filters : UserFilters)
    (user : User) : Bool :=
  !truthy filters.branchId || user.branchIds.any fun branchId =>
    filters.branchId == some branchId && columns.assignmentTenantId user.id branchId == tenantId

/-- The {lit}`where` object of the listing. -/
def listedWhere (columns : RosterColumns) (tenantId : Id) (filters : UserFilters) : Where User where
  tenantId := ofTenant tenantId
  deletedAt := .filter fun d => d == none
  rest user := filters.isActive.all (fun isActive => user.isActive == isActive) &&
    passesBranch columns tenantId filters user

/-- Descending by {lit}`createdAt`, and then by {lit}`id`. -/
def newestFirst (columns : RosterColumns) (a b : User) : Bool :=
  decide (columns.createdAt b.id < columns.createdAt a.id) ||
    columns.createdAt a.id == columns.createdAt b.id && decide (b.id ≤ a.id)

def UserFilters.take (filters : UserFilters) : ℕ :=
  (min (max (filters.limit.getD DEFAULT_PAGE_SIZE) 1) MAX_PAGE_SIZE).toNat

def UserFilters.skip (filters : UserFilters) : ℕ :=
  (max (filters.offset.getD 0) 0).toNat

def findAll (columns : RosterColumns) (env : UserEnv) (tenantIdInput : Option Id)
    (filters : UserFilters) : Service (List UserResponse) := do
  let tenantId ← assertTenant tenantIdInput
  let found ← users.run (do
    let result ← invoke env.toEnv prisma.user .findMany
      { Args.page (listedWhere columns tenantId filters) filters.take
          (some (newestFirst columns)) with skip := filters.skip }
    return result.found)
  Fallible.reads fun w => .ok (found.map (toResponse w.db))

/-! ## Query strings -/

/-- The double that is nearest to a natural number, unless it is infinite. -/
def nearestDouble (n : ℕ) : Option ℕ :=
  if n < 2 ^ 53 then some n
  else
    let unit := 2 ^ (n.log2 - 52)
    let low := n / unit * unit
    let rounded :=
      if 2 * (n % unit) < unit || 2 * (n % unit) == unit && n / unit % 2 == 0 then low
      else low + unit
    if rounded < 2 ^ 1024 then some rounded else none

/-- The text without its sign. -/
def unsigned : List Char → List Char
  | '+' :: digits => digits
  | '-' :: digits => digits
  | digits => digits

/-- {lit}`Number.parseInt(s, 10)`, where it is finite. -/
def parseInt (s : String) : Option ℤ :=
  let text := s.toList.dropWhile isJsWhitespace
  let digits := (unsigned text).takeWhile Char.isDigit
  if digits = [] then none
  else (nearestDouble (Nat.ofDigitChars 10 digits 0)).map fun n : ℕ =>
    if text.head? = some '-' then -(n : ℤ) else (n : ℤ)

/-- {lit}`OptionalUuidPipe`. -/
def optionalUuid (value : Option String) : Except AppError (Option String) :=
  if truthy value then
    if isUuid (value.getD "") then .ok value
    else .error (.badRequest "Expected a UUID for this filter parameter.")
  else .ok none

/-- The query string of a listing. -/
structure ListUsersQuery where
  isActive : Option String := none
  branchId : Option String := none
  limit : Option String := none
  offset : Option String := none
deriving DecidableEq, Repr

def ListUsersQuery.filters (query : ListUsersQuery) (branchId : Option String) : UserFilters where
  isActive := if query.isActive = some "true" then some true
    else if query.isActive = some "false" then some false else none
  branchId := branchId
  limit := parseInt (query.limit.getD "")
  offset := parseInt (query.offset.getD "")

def listUsers (columns : RosterColumns) (env : UserEnv) (tenantId : Option Id)
    (query : ListUsersQuery) : Service (List UserResponse) := do
  let branchId ← Fallible.reads fun _ => optionalUuid query.branchId
  let tenantId ← assertTenant tenantId
  findAll columns env (some tenantId) (query.filters branchId)

/-! ## The roster -/

/-- A live user of the tenant that passes the filters. -/
def isListed (columns : RosterColumns) (T : Id) (filters : UserFilters) (user : User) : Bool :=
  user.tenantId == some T && user.deletedAt.isNone &&
    filters.isActive.all (fun isActive => user.isActive == isActive) &&
    passesBranch columns T filters user

/-- The listed users, in the order of the listing. -/
def roster (columns : RosterColumns) (T : Id) (filters : UserFilters) (db : Db) : List User :=
  (db.users.filter (isListed columns T filters)).insertionSort fun a b =>
    newestFirst columns a b = true

section Order

variable {columns : RosterColumns}

theorem newestFirst_iff {a b : User} :
    newestFirst columns a b = true ↔
      columns.createdAt b.id < columns.createdAt a.id ∨
        columns.createdAt a.id = columns.createdAt b.id ∧ b.id ≤ a.id := by
  simp [newestFirst]

instance : Std.Total fun a b : User => newestFirst columns a b = true where
  total a b := by
    rw [newestFirst_iff, newestFirst_iff]
    rcases lt_trichotomy (columns.createdAt a.id) (columns.createdAt b.id) with h | h | h
    · exact Or.inr (Or.inl h)
    · rcases le_total a.id b.id with hle | hle
      · exact Or.inr (Or.inr ⟨h.symm, hle⟩)
      · exact Or.inl (Or.inr ⟨h, hle⟩)
    · exact Or.inl (Or.inl h)

instance : IsTrans User fun a b : User => newestFirst columns a b = true where
  trans a b c hab hbc := by
    rw [newestFirst_iff] at hab hbc ⊢
    rcases hab with hab | ⟨hab, hid⟩
    · rcases hbc with hbc | ⟨hbc, _⟩
      · exact Or.inl (hbc.trans hab)
      · exact Or.inl (hbc ▸ hab)
    · rcases hbc with hbc | ⟨hbc, hid'⟩
      · exact Or.inl (hab ▸ hbc)
      · exact Or.inr ⟨hab.trans hbc, hid'.trans hid⟩

theorem passesBranch_iff {T : Id} {filters : UserFilters} {user : User} :
    passesBranch columns T filters user = true ↔
      ∀ branchId, filters.branchId = some branchId → branchId ≠ "" →
        branchId ∈ user.branchIds ∧ columns.assignmentTenantId user.id branchId = T := by
  cases hbranch : filters.branchId with
  | none => simp [passesBranch, hbranch, truthy]
  | some branchId => simp [passesBranch, hbranch, truthy, or_iff_not_imp_left]

/-- Whom the listing shows. -/
theorem isListed_iff {T : Id} {filters : UserFilters} {user : User} :
    isListed columns T filters user = true ↔
      user.tenantId = some T ∧ user.deletedAt = none ∧
        (∀ isActive, filters.isActive = some isActive → user.isActive = isActive) ∧
        ∀ branchId, filters.branchId = some branchId → branchId ≠ "" →
          branchId ∈ user.branchIds ∧ columns.assignmentTenantId user.id branchId = T := by
  rw [← passesBranch_iff]
  cases hactive : filters.isActive <;> simp [isListed, hactive, and_assoc]

theorem mem_roster {T : Id} {filters : UserFilters} {db : Db} {user : User} :
    user ∈ roster columns T filters db ↔
      user ∈ db.users ∧ isListed columns T filters user = true := by
  unfold roster
  rw [List.mem_insertionSort, List.mem_filter]

theorem nodup_roster_ids {T : Id} {filters : UserFilters} {db : Db}
    (hids : (db.users.map (·.id)).Nodup) :
    ((roster columns T filters db).map (·.id)).Nodup := by
  have hperm := (List.perm_insertionSort (fun a b => newestFirst columns a b = true)
    (db.users.filter (isListed columns T filters))).map (·.id)
  exact hperm.nodup_iff.mpr (hids.sublist (List.filter_sublist.map _))

/-- The roster descends strictly, since no two users share an id. -/
theorem pairwise_roster {T : Id} {filters : UserFilters} {db : Db}
    (hids : (db.users.map (·.id)).Nodup) :
    (roster columns T filters db).Pairwise fun a b =>
      columns.createdAt b.id < columns.createdAt a.id ∨
        columns.createdAt a.id = columns.createdAt b.id ∧ b.id < a.id := by
  have hsorted := List.pairwise_insertionSort (fun a b => newestFirst columns a b = true)
    (db.users.filter (isListed columns T filters))
  have hdistinct : (roster columns T filters db).Pairwise fun a b => a.id ≠ b.id :=
    List.pairwise_map.mp (nodup_roster_ids hids)
  refine (hsorted.and hdistinct).imp fun {a b} h => ?_
  rcases newestFirst_iff.mp h.1 with hnewer | ⟨htie, hid⟩
  · exact Or.inl hnewer
  · exact Or.inr ⟨htie, lt_of_le_of_ne hid (Ne.symm h.2)⟩

end Order

/-! ## One page -/

section Page

variable (columns : RosterColumns) {env : UserEnv} {S : Option Id} {T : Id}

/-- The filter of the listing selects the listed users, in a scope that reaches the tenant. -/
theorem listed_admits (filters : UserFilters) (hreach : S = none ∨ S = some T) :
    ((listedWhere columns T filters).inScope S).admits prisma.user =
      isListed columns T filters := by
  funext user
  rcases hreach with rfl | rfl <;> cases hdeleted : user.deletedAt <;>
    simp [Where.inScope, Where.withTenant, Where.admits, listedWhere, ofTenant, isListed,
      prisma.user, ColumnKey.admits, TenantRow.tenantId, hdeleted, Bool.and_assoc]

/-- A page is a window on the roster, and reading it changes nothing. -/
theorem findAll_apply (hctx : env.context.Sees S) (hreach : S = none ∨ S = some T) (hT : T ≠ "")
    (filters : UserFilters) (w : World) :
    findAll columns env (some T) filters w =
      (.ok ((((roster columns T filters w.db).map (toResponse w.db)).drop filters.skip).take
        filters.take), w) := by
  have htenant : (assertTenant (some T) : Service Id) w = (.ok T, w) := by
    simp [assertTenant, truthy, hT]
  have hpage : users.run (do
      let result ← invoke env.toEnv prisma.user .findMany
        { Args.page (listedWhere columns T filters) filters.take
            (some (newestFirst columns)) with skip := filters.skip }
      return result.found) w =
        (.ok (((roster columns T filters w.db).drop filters.skip).take filters.take), w) := by
    refine run_of_read ?_
    rw [Fallible.bind_of_ok (invoke_read hctx (by decide) (by simp) rfl rfl rfl rfl rfl),
      Fallible.pure_apply, Root.found_outcome rfl,
      Args.inScope_where (by simp [filteredOperations])]
    simp [findRoot, Args.arrange, Args.page, listed_admits columns filters hreach, roster, users]
  unfold findAll
  rw [Fallible.bind_of_ok htenant, Fallible.bind_of_ok hpage]
  simp [Fallible.reads, List.map_take, List.map_drop]

end Page

/-! ## How a request names a page -/

theorem unsigned_of_digit {c : Char} (hc : c.isDigit = true) (cs : List Char) :
    unsigned (c :: cs) = c :: cs := by
  unfold unsigned
  split
  · rename_i heq
    cases heq
    cases hc
  · rename_i heq
    cases heq
    cases hc
  · rfl

theorem not_whitespace_of_digit {c : Char} (hc : c.isDigit = true) :
    isJsWhitespace c = false := by
  have hrange : 48 ≤ c.toNat ∧ c.toNat ≤ 57 := by
    simpa [Char.isDigit, UInt32.le_iff_toNat_le] using hc
  unfold isJsWhitespace
  simp only [Bool.or_eq_false_iff, Bool.and_eq_false_iff, decide_eq_false_iff_not,
    beq_eq_false_iff_ne]
  omega

theorem nearestDouble_of_lt {n : ℕ} (hn : n < 2 ^ 53) : nearestDouble n = some n :=
  if_pos hn

/-- The digits of a number that a double represents are parsed back. -/
theorem parseInt_toString {n : ℕ} (hn : n < 2 ^ 53) : parseInt (toString n) = some (n : ℤ) := by
  have hdigits : (toString n).toList = Nat.toDigits 10 n := Nat.toList_repr
  have hall : ∀ c ∈ Nat.toDigits 10 n, c.isDigit = true := fun c hc =>
    Nat.isDigit_of_mem_toDigits (by decide) (by decide) hc
  have hvalue : Nat.ofDigitChars 10 (Nat.toDigits 10 n) 0 = n := Nat.ofDigitChars_ten_toDigits
  cases htext : Nat.toDigits 10 n with
  | nil => exact absurd htext Nat.toDigits_ne_nil
  | cons c cs =>
      rw [htext] at hall hvalue hdigits
      have hc := hall c List.mem_cons_self
      have hsign : c ≠ '-' := fun h => by
        rw [h] at hc
        cases hc
      have hstart : (c :: cs).dropWhile isJsWhitespace = c :: cs :=
        List.dropWhile_cons_of_neg (by simp [not_whitespace_of_digit hc])
      have htake : (c :: cs).takeWhile Char.isDigit = c :: cs :=
        List.takeWhile_eq_self_iff.mpr hall
      have hhead : ¬ (c :: cs).head? = some '-' := by
        simpa using hsign
      unfold parseInt
      simp only [hdigits, hstart, unsigned_of_digit hc, htake, hvalue, nearestDouble_of_lt hn]
      rw [if_neg (List.cons_ne_nil c cs), Option.map_some, if_neg hhead]

/-- A request with printed numbers and filters is answered with the page that it names. -/
theorem listUsers_apply {columns : RosterColumns} {env : UserEnv} {T : Id} (hT : T ≠ "")
    (isActive : Option Bool) {branchId : Option Id} (hbranch : branchId.all isUuid = true)
    {limit offset : ℕ} (hlimit : limit < 2 ^ 53) (hoffset : offset < 2 ^ 53) (w : World) :
    listUsers columns env (some T)
        { isActive := isActive.map toString, branchId, limit := some (toString limit)
          offset := some (toString offset) } w =
      findAll columns env (some T)
        { isActive, branchId, limit := some (limit : ℤ), offset := some (offset : ℤ) } w := by
  have huuid : optionalUuid branchId = .ok branchId := by
    cases branchId with
    | none => rfl
    | some id =>
        have hid : isUuid id = true := hbranch
        have hnonempty : id ≠ "" := fun h => by
          rw [h] at hid
          cases hid
        simp [optionalUuid, truthy, hnonempty, hid]
  have htenant : (assertTenant (some T) : Service Id) w = (.ok T, w) := by
    simp [assertTenant, truthy, hT]
  have hread : Fallible.reads (fun _ : World => optionalUuid branchId) w = (.ok branchId, w) := by
    simp [Fallible.reads, huuid]
  unfold listUsers
  rw [Fallible.bind_of_ok hread, Fallible.bind_of_ok htenant]
  have hfilters : ListUsersQuery.filters
      { isActive := isActive.map toString, branchId, limit := some (toString limit)
        offset := some (toString offset) } branchId =
      { isActive, branchId, limit := some (limit : ℤ), offset := some (offset : ℤ) } := by
    unfold ListUsersQuery.filters
    simp only [Option.getD_some, parseInt_toString hlimit, parseInt_toString hoffset]
    rcases isActive with _ | _ | _ <;> rfl
  rw [hfilters]

/-! ## Page after page -/

/-- The pages of a size, from the start to the first one that is shorter, are the roster: each live
user of the tenant that passes the filters, once, in descending order. -/
theorem roster_pages (columns : RosterColumns) {env : UserEnv} {S : Option Id} {T : Id}
    (hctx : env.context.Sees S) (hreach : S = none ∨ S = some T) (hT : T ≠ "")
    (filters : UserFilters) {n : ℕ} (hn : 1 ≤ n) (hmax : (n : ℤ) ≤ MAX_PAGE_SIZE) (w : World)
    (hids : (w.db.users.map (·.id)).Nodup) :
    (∀ user, user ∈ roster columns T filters w.db ↔
      user ∈ w.db.users ∧ user.tenantId = some T ∧ user.deletedAt = none ∧
        (∀ isActive, filters.isActive = some isActive → user.isActive = isActive) ∧
        ∀ branchId, filters.branchId = some branchId → branchId ≠ "" →
          branchId ∈ user.branchIds ∧ columns.assignmentTenantId user.id branchId = T) ∧
    ((roster columns T filters w.db).map (·.id)).Nodup ∧
    (roster columns T filters w.db).Pairwise (fun a b =>
      columns.createdAt b.id < columns.createdAt a.id ∨
        columns.createdAt a.id = columns.createdAt b.id ∧ b.id < a.id) ∧
    ∀ pages w', ReadsPages (fun offset : ℕ => findAll columns env (some T)
        { filters with limit := some (n : ℤ), offset := some (offset : ℤ) }) n 0 w pages w' ↔
      pages = (roster columns T filters w.db).map (toResponse w.db) ∧ w' = w := by
  refine ⟨fun user => ?_, nodup_roster_ids hids, pairwise_roster hids, fun pages w' => ?_⟩
  · rw [mem_roster, isListed_iff]
  · refine readsPages_iff (fun offset => ?_) hn
    have htake : ({ filters with limit := some (n : ℤ), offset := some (offset : ℤ) } :
        UserFilters).take = n := by
      simp only [UserFilters.take, Option.getD_some, MAX_PAGE_SIZE] at hmax ⊢
      omega
    have hskip : ({ filters with limit := some (n : ℤ), offset := some (offset : ℤ) } :
        UserFilters).skip = offset := by
      simp only [UserFilters.skip, Option.getD_some]
      omega
    have hpage := findAll_apply columns hctx hreach hT
      { filters with limit := some (n : ℤ), offset := some (offset : ℤ) } w
    rw [htake, hskip] at hpage
    exact hpage

/-- A staff user of the first tenant. -/
def waiter (id : Id) : User :=
  { (default : User) with id, tenantId := some "t1", isActive := true }

/-- Four active users, an inactive one, a deleted one, and one of another tenant. -/
def staffRoom : World where
  db := { users := [waiter "u1", waiter "u2", waiter "u3", waiter "u4",
            { waiter "u5" with isActive := false }, { waiter "u6" with deletedAt := some 7 },
            { waiter "u7" with tenantId := some "t2" }] }

/-- All but the first were created in one instant. -/
def staffColumns : RosterColumns where
  createdAt id := if id == "u1" then 1 else 2
  assignmentTenantId _ _ := "t1"

def rosterEnv : UserEnv where
  context := { tenantId := some "t1" }
  uuid _ := "u9"
  now := 9

/-- Two full pages, and an empty one. -/
theorem staffRoom_pages :
    ReadsPages (fun offset : ℕ => findAll staffColumns rosterEnv (some "t1")
        { isActive := some true, limit := some 2, offset := some (offset : ℤ) }) 2 0 staffRoom
      (["u4", "u3", "u2", "u1"].map fun id => toResponse staffRoom.db (waiter id)) staffRoom :=
  have hsees : rosterEnv.context.Sees (some "t1") := ⟨rfl, by decide⟩
  ((roster_pages staffColumns hsees (Or.inr rfl) (by decide)
    { isActive := some true } (by decide : 1 ≤ 2) (by decide) staffRoom (by decide)).2.2.2 _ _).mpr
      ⟨by decide +kernel, rfl⟩

end UserService
end Eleva
