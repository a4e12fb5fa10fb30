import Eleva.Auth.RbacGuard
import Eleva.Foundation.Keys
import Eleva.Foundation.Machine
import Eleva.Kds.KdsGateway

/-!
# Kds - Rooms keep tenants apart

The gateway over a run of connections, messages and broadcasts.  Each message is handled in
the session store and the database of its time, which are given with it.  A broadcast
reaches the sockets of its room; the room of its own that the socket server keeps for each
socket has no colon in its name, and no event is sent there.

Main results:

- Theorem {lit}`getRoomName_injective`: a room of ids without colons is the room of no
  other ids.
- Theorem {lit}`step_isolated`: each action keeps the members of the rooms admitted.
- Theorem {lit}`rooms_isolated`: an event of a branch reaches sockets only that a token of
  the tenant authenticated and that joined the branch while it was live.
-/

namespace Eleva
namespace Kds

open Foundation Database Auth TableOf

/-! ## Room names -/

/-- The parts of a room name, joined. -/
theorem getRoomName_eq_join (tenantId branchId : String) :
    getRoomName tenantId branchId = join ':' ["tenant", tenantId, "branch", branchId] := by
  apply String.toList_inj.mp
  simp [getRoomName, List.intercalate]

/-- The colons of a room name. -/
theorem count_getRoomName (tenantId branchId : String) :
    (getRoomName tenantId branchId).toList.count ':' =
      3 + tenantId.toList.count ':' + branchId.toList.count ':' := by
  simp [getRoomName, List.count_append]
  omega

/-- A room of ids without colons is the room of no other ids. -/
theorem getRoomName_injective {tenantId branchId tenantId' branchId' : String}
    (htenant : ':' ∉ tenantId.toList) (hbranch : ':' ∉ branchId.toList)
    (h : getRoomName tenantId branchId = getRoomName tenantId' branchId') :
    tenantId' = tenantId ∧ branchId' = branchId := by
  have hcount := congrArg (fun room : String => room.toList.count ':') h
  simp only [count_getRoomName, List.count_eq_zero_of_not_mem htenant,
    List.count_eq_zero_of_not_mem hbranch] at hcount
  have htenant' : ':' ∉ tenantId'.toList := List.count_eq_zero.mp (by omega)
  have hbranch' : ':' ∉ branchId'.toList := List.count_eq_zero.mp (by omega)
  rw [getRoomName_eq_join, getRoomName_eq_join] at h
  have hparts := join_injective (by simp) (by simp) ?_ ?_ h
  · simp only [List.cons.injEq] at hparts
    exact ⟨hparts.2.1.symm, hparts.2.2.2.1.symm⟩
  · simp only [List.mem_cons, List.not_mem_nil, or_false, forall_eq_or_imp, forall_eq]
    exact ⟨by decide, htenant, by decide, hbranch⟩
  · simp only [List.mem_cons, List.not_mem_nil, or_false, forall_eq_or_imp, forall_eq]
    exact ⟨by decide, htenant', by decide, hbranch'⟩

/-! ## The gateway along a run -/

section Runs

variable {ι : Type} [DecidableEq ι]

/-- What has been handled: a handshake that was authenticated, or a message that led to a
room, with the store or the database of its time. -/
inductive Handled (ι : Type) where
  | authenticated (socket : ι) (handshake : Handshake) (s : Sessions)
  | joined (socket : ι) (message : RoomMessage) (w : World)

/-- An event that a socket received. -/
structure Receipt (ι : Type) where
  socket : ι
  tenantId : String
  branchId : String
deriving DecidableEq, Repr

/-- The open sockets with the user that is stored on each, the members of the rooms, and
what has been handled and received so far. -/
structure Gateway (ι : Type) where
  sockets : List ι := []
  user : ι → Option AuthenticatedUser := fun _ => none
  members : List (ι × String) := []
  handled : List (Handled ι) := []
  received : List (Receipt ι) := []

/-- A socket is closed: it leaves its rooms. -/
def Gateway.close (g : Gateway ι) (socket : ι) : Gateway ι :=
  { g with
    sockets := g.sockets.filter (· ≠ socket)
    members := g.members.filter (·.1 ≠ socket) }

/-- What may happen at the gateway. -/
inductive GatewayAction (ι : Type) where
  | connect (socket : ι)
  | authenticate (socket : ι) (handshake : Handshake) (s : Sessions)
  | joinBranch (socket : ι) (message : RoomMessage) (env : Env) (w : World)
  | leaveBranch (socket : ι) (message : RoomMessage)
  | disconnect (socket : ι)
  | broadcast (tenantId branchId : String)

/-- The effect of the connection handler on an open socket. -/
def Gateway.authenticate (g : Gateway ι) (socket : ι) (handshake : Handshake) (s : Sessions) :
    Gateway ι :=
  match (handleConnection handshake s).1 with
  | .authenticated user =>
      { g with
        user := Function.update g.user socket (some user)
        handled := .authenticated socket handshake s :: g.handled }
  | .rejected _ => g.close socket

/-- The effect of a message to join a room on an open socket. -/
def Gateway.joinBranch (g : Gateway ι) (socket : ι) (message : RoomMessage) (env : Env)
    (w : World) : Gateway ι :=
  match handleJoinBranch env (g.user socket) message w with
  | .joined room =>
      { g with
        members := (socket, room) :: g.members
        handled := .joined socket message w :: g.handled }
  | .disconnected _ => g.close socket
  | .error _ => g
  | .left _ => g

/-- The effect of a message to leave a room on an open socket. -/
def Gateway.leaveBranch (g : Gateway ι) (socket : ι) (message : RoomMessage) : Gateway ι :=
  match handleLeaveBranch (g.user socket) message with
  | .left room => { g with members := g.members.filter (· ≠ (socket, room)) }
  | _ => g

/-- The sockets of the room receive the event. -/
def Gateway.broadcast (g : Gateway ι) (tenantId branchId : String) : Gateway ι :=
  match broadcastOrderEvent tenantId branchId with
  | none => g
  | some room =>
      { g with
        received := (g.members.filter (·.2 = room)).map
          (fun member => ⟨member.1, tenantId, branchId⟩) ++ g.received }

/-- The effect of an action; a socket that is not open sends nothing. -/
def gatewayStep : GatewayAction ι → Gateway ι → Gateway ι
  | .connect socket, g =>
      { g.close socket with
        sockets := socket :: (g.close socket).sockets
        user := Function.update g.user socket none }
  | .authenticate socket handshake s, g =>
      if socket ∈ g.sockets then g.authenticate socket handshake s else g
  | .joinBranch socket message env w, g =>
      if socket ∈ g.sockets then g.joinBranch socket message env w else g
  | .leaveBranch socket message, g =>
      if socket ∈ g.sockets then g.leaveBranch socket message else g
  | .disconnect socket, g => g.close socket
  | .broadcast tenantId branchId, g => g.broadcast tenantId branchId

/-- The gateway as a machine. -/
def gatewayMachine (ι : Type) [DecidableEq ι] : Machine (GatewayAction ι) (Gateway ι) Unit :=
  ⟨fun a g => ((), gatewayStep a g)⟩

/-! ## Who is admitted -/

/-- A handshake of the socket was authenticated by a token of the tenant. -/
def AuthenticatedFor (g : Gateway ι) (socket : ι) (tenantId : Id) : Prop :=
  ∃ handshake s token, .authenticated socket handshake s ∈ g.handled ∧
    extractToken handshake = some (.token token) ∧
    (handleConnection handshake s).1 = .authenticated token.payload.user ∧
    token.payload.tenantId = some tenantId

/-- A branch of the tenant without a tombstone. -/
def LiveBranch (w : World) (tenantId branchId : Id) : Prop :=
  ∃ b ∈ w.db.branches, b.id = branchId ∧ b.tenantId = tenantId ∧ b.deletedAt = none

/-- The socket was authenticated for the tenant, and asked to join the branch while the branch
was a live one of the tenant. -/
def Entitled (g : Gateway ι) (socket : ι) (tenantId branchId : Id) : Prop :=
  AuthenticatedFor g socket tenantId ∧
    ∃ message w, .joined socket message w ∈ g.handled ∧
      message.branchId = some (.text branchId) ∧ LiveBranch w tenantId branchId

/-- A member of a room was authenticated for its tenant and asked for its branch by id, or
asked by a filter, whose room is the room of no branch. -/
def Admitted (g : Gateway ι) (socket : ι) (room : String) : Prop :=
  ∃ tenantId branchId, room = getRoomName tenantId branchId ∧
    AuthenticatedFor g socket tenantId ∧
      (Entitled g socket tenantId branchId ∨ branchId = "[object Object]")

/-- What the sockets carry, are members of and have received is in order. -/
structure Isolated (g : Gateway ι) : Prop where
  users : ∀ socket user, g.user socket = some user →
    ∀ tenantId, user.tenantId = some tenantId → AuthenticatedFor g socket tenantId
  members : ∀ member ∈ g.members, Admitted g member.1 member.2
  received : ∀ receipt ∈ g.received,
    (∃ tenantId, AuthenticatedFor g receipt.socket tenantId) ∧
      (isUuid receipt.tenantId = true → isUuid receipt.branchId = true →
        Entitled g receipt.socket receipt.tenantId receipt.branchId)

section Growth

variable {g g' : Gateway ι} (hgrow : ∀ entry ∈ g.handled, entry ∈ g'.handled)

omit [DecidableEq ι] in
include hgrow in
theorem AuthenticatedFor.grow {socket : ι} {tenantId : Id}
    (h : AuthenticatedFor g socket tenantId) : AuthenticatedFor g' socket tenantId := by
  rcases h with ⟨handshake, s, token, hentry, hrest⟩
  exact ⟨handshake, s, token, hgrow _ hentry, hrest⟩

omit [DecidableEq ι] in
include hgrow in
theorem Entitled.grow {socket : ι} {tenantId branchId : Id}
    (h : Entitled g socket tenantId branchId) : Entitled g' socket tenantId branchId := by
  rcases h with ⟨hauth, message, w, hentry, hrest⟩
  exact ⟨hauth.grow hgrow, message, w, hgrow _ hentry, hrest⟩

omit [DecidableEq ι] in
include hgrow in
theorem Admitted.grow {socket : ι} {room : String} (h : Admitted g socket room) :
    Admitted g' socket room := by
  rcases h with ⟨tenantId, branchId, hroom, hauth, hasked⟩
  exact ⟨tenantId, branchId, hroom, hauth.grow hgrow, hasked.imp_left (·.grow hgrow)⟩

end Growth

/-- A lookup by id in the context of a tenant finds a live branch of the tenant. -/
theorem liveBranch_of_found {env : Env} {tenantId branchId : Id} {w w' : World} {b : Branch}
    (htenant : tenantId ≠ "")
    (h : findBranch { env with context := { tenantId := some tenantId } } (.text branchId) w =
      (.ok (some b), w')) : LiveBranch w tenantId branchId := by
  have hctx : ({ env with context := { tenantId := some tenantId } } : Env).context.Sees
      (some tenantId) := ⟨rfl, htenant⟩
  rw [findBranch, run_findById_live branches_softDelete hctx] at h
  simp only [Prod.mk.injEq, Except.ok.injEq] at h
  have hmem := List.mem_of_find?_eq_some h.1
  have hlive := List.find?_some h.1
  simp only [liveRow, Bool.and_eq_true, Option.isNone_iff_eq_none] at hlive
  have hid : b.id = branchId := id_of_ownRow hlive.1
  have howned := hlive.1
  simp only [ownRow, Bool.and_eq_true, visible_some] at howned
  have htenant' : b.tenantId = tenantId := Option.some.inj howned.2
  exact ⟨b, hmem, hid, htenant', hlive.2⟩

/-- A message that leads to a room names a live branch of the socket's tenant, or is a filter. -/
theorem handleJoinBranch_eq_joined {env : Env} {user : Option AuthenticatedUser}
    {message : RoomMessage} {w : World} {room : String}
    (h : handleJoinBranch env user message w = .joined room) :
    ∃ u tenantId branchId, user = some u ∧ u.tenantId = some tenantId ∧
      room = getRoomName tenantId branchId ∧
      ((message.branchId = some (.text branchId) ∧ LiveBranch w tenantId branchId) ∨
        branchId = "[object Object]") := by
  unfold handleJoinBranch at h
  cases htenant : (user.bind (·.tenantId)).filter (· != "") with
  | none =>
      rw [htenant] at h
      cases h
  | some tenantId =>
      rw [htenant] at h
      rcases Option.filter_eq_some_iff.mp htenant with ⟨hbind, hne⟩
      rcases Option.bind_eq_some_iff.mp hbind with ⟨u, hu, hut⟩
      refine ⟨u, tenantId, ?_⟩
      cases hbranch : message.branchId.filter (·.truthy) with
      | none =>
          rw [hbranch] at h
          cases h
      | some value =>
          rw [hbranch] at h
          have hvalue := (Option.filter_eq_some_iff.mp hbranch).1
          simp only at h
          rcases hfind : findBranch { env with context := { tenantId := some tenantId } } value w
            with ⟨e | _ | b, w'⟩
          · rw [hfind] at h
            cases h
          · rw [hfind] at h
            cases h
          · rw [hfind] at h
            cases h
            cases value with
            | text branchId =>
                refine ⟨branchId, hu, hut, rfl, Or.inl ⟨hvalue, ?_⟩⟩
                exact liveBranch_of_found (by simpa using hne) hfind
            | filter matching => exact ⟨"[object Object]", hu, hut, rfl, Or.inr rfl⟩
            | refused shown => cases hfind

/-! ## The run -/

omit [DecidableEq ι] in
theorem Isolated.empty : Isolated ({} : Gateway ι) := by
  refine ⟨?_, ?_, ?_⟩
  · intro socket user huser
    cases huser
  · intro member hmember
    cases hmember
  · intro receipt hreceipt
    cases hreceipt

/-- A socket that is closed leaves the others as they were. -/
theorem Isolated.close {g : Gateway ι} (h : Isolated g) (socket : ι) :
    Isolated (g.close socket) :=
  ⟨h.users, fun member hmember => h.members member (List.mem_of_mem_filter hmember), h.received⟩

/-- A handshake stores a user with the tenant of the token. -/
theorem Isolated.authenticate {g : Gateway ι} (h : Isolated g) (socket : ι)
    (handshake : Handshake) (s : Sessions) : Isolated (g.authenticate socket handshake s) := by
  unfold Gateway.authenticate
  split
  · next user hconnection =>
      have hgrow : ∀ entry ∈ g.handled, entry ∈
          Handled.authenticated socket handshake s :: g.handled :=
        fun _ hentry => List.mem_cons_of_mem _ hentry
      refine ⟨?_, ?_, ?_⟩
      · intro other user' huser tenantId htenant
        by_cases hother : other = socket
        · subst hother
          rcases handleConnection_eq_authenticated.mp (Prod.ext hconnection rfl) with
            ⟨token, hextract, _, _, _, rfl, _⟩
          simp only [Function.update_self, Option.some.injEq] at huser
          subst huser
          exact ⟨handshake, s, token, List.mem_cons_self,
            (Option.filter_eq_some_iff.mp hextract).1, hconnection, htenant⟩
        · simp only [Function.update_of_ne hother] at huser
          exact (h.users other user' huser tenantId htenant).grow hgrow
      · exact fun member hmember => (h.members member hmember).grow hgrow
      · intro receipt hreceipt
        rcases h.received receipt hreceipt with ⟨⟨tenantId, hauth⟩, hentitled⟩
        exact ⟨⟨tenantId, hauth.grow hgrow⟩, fun hT hB => (hentitled hT hB).grow hgrow⟩
  · exact h.close socket

/-- A message to join a room admits the socket to the room it names. -/
theorem Isolated.joinBranch {g : Gateway ι} (h : Isolated g) (socket : ι) (message : RoomMessage)
    (env : Env) (w : World) : Isolated (g.joinBranch socket message env w) := by
  unfold Gateway.joinBranch
  split
  · next room hjoined =>
      have hgrow : ∀ entry ∈ g.handled, entry ∈ Handled.joined socket message w :: g.handled :=
        fun _ hentry => List.mem_cons_of_mem _ hentry
      rcases handleJoinBranch_eq_joined hjoined with
        ⟨u, tenantId, branchId, huser, htenant, hroom, hasked⟩
      have hauth := h.users socket u huser tenantId htenant
      refine ⟨?_, ?_, ?_⟩
      · exact fun other user' huser' tenantId' htenant' =>
          (h.users other user' huser' tenantId' htenant').grow hgrow
      · intro member hmember
        rcases List.mem_cons.mp hmember with rfl | hmember
        · refine ⟨tenantId, branchId, hroom, hauth.grow hgrow, hasked.imp_left fun hlive => ?_⟩
          exact ⟨hauth.grow hgrow, message, w, List.mem_cons_self, hlive⟩
        · exact (h.members member hmember).grow hgrow
      · intro receipt hreceipt
        rcases h.received receipt hreceipt with ⟨⟨tenantId, hauth⟩, hentitled⟩
        exact ⟨⟨tenantId, hauth.grow hgrow⟩, fun hT hB => (hentitled hT hB).grow hgrow⟩
  · exact h.close socket
  · exact h
  · exact h

/-- Leaving a room takes members away. -/
theorem Isolated.leaveBranch {g : Gateway ι} (h : Isolated g) (socket : ι)
    (message : RoomMessage) : Isolated (g.leaveBranch socket message) := by
  unfold Gateway.leaveBranch
  split
  · exact ⟨h.users, fun member hmember => h.members member (List.mem_of_mem_filter hmember),
      h.received⟩
  · exact h

omit [DecidableEq ι] in
/-- A member of the room of two UUIDs is entitled to its events. -/
theorem Admitted.entitled {g : Gateway ι} {socket : ι} {tenantId branchId : Id}
    (h : Admitted g socket (getRoomName tenantId branchId)) (htenant : isUuid tenantId = true)
    (hbranch : isUuid branchId = true) : Entitled g socket tenantId branchId := by
  rcases h with ⟨tenantId', branchId', hroom, _, hasked⟩
  rcases getRoomName_injective (colon_not_mem_of_isUuid htenant)
    (colon_not_mem_of_isUuid hbranch) hroom with ⟨rfl, rfl⟩
  rcases hasked with hentitled | hfilter
  · exact hentitled
  · rw [hfilter] at hbranch
    exact absurd hbranch (by decide +kernel)

omit [DecidableEq ι] in
/-- A broadcast reaches the members of its room. -/
theorem Isolated.broadcast {g : Gateway ι} (h : Isolated g) (tenantId branchId : String) :
    Isolated (g.broadcast tenantId branchId) := by
  unfold Gateway.broadcast
  split
  · exact h
  · next room hroom =>
      refine ⟨h.users, h.members, fun receipt hreceipt => ?_⟩
      rcases List.mem_append.mp hreceipt with hnew | hold
      · rcases List.mem_map.mp hnew with ⟨member, hmember, rfl⟩
        rcases List.mem_filter.mp hmember with ⟨hmember, hin⟩
        have hadmitted := h.members member hmember
        rw [of_decide_eq_true hin] at hadmitted
        rw [broadcastOrderEvent] at hroom
        split at hroom
        · cases hroom
        · cases hroom
          refine ⟨?_, fun hT hB => hadmitted.entitled hT hB⟩
          rcases hadmitted with ⟨tenantId', _, _, hauth, _⟩
          exact ⟨tenantId', hauth⟩
      · exact h.received receipt hold

/-- Whatever happens, the members of the rooms stay admitted. -/
theorem step_isolated (a : GatewayAction ι) {g : Gateway ι} (h : Isolated g) :
    Isolated (gatewayStep a g) := by
  cases a with
  | connect socket =>
      have hclosed := h.close socket
      refine ⟨fun other user huser => ?_, hclosed.members, hclosed.received⟩
      by_cases hother : other = socket
      · subst hother
        simp [gatewayStep] at huser
      · simp only [gatewayStep, Function.update_of_ne hother] at huser
        exact h.users other user huser
  | authenticate socket handshake s =>
      simp only [gatewayStep]
      split
      · exact h.authenticate socket handshake s
      · exact h
  | joinBranch socket message env w =>
      simp only [gatewayStep]
      split
      · exact h.joinBranch socket message env w
      · exact h
  | leaveBranch socket message =>
      simp only [gatewayStep]
      split
      · exact h.leaveBranch socket message
      · exact h
  | disconnect socket => exact h.close socket
  | broadcast tenantId branchId => exact h.broadcast tenantId branchId

/-- The gateway after a run. -/
def gatewayAfter (actions : List (GatewayAction ι)) : Gateway ι :=
  (gatewayMachine ι).exec actions {}

/-- In every run, a socket that receives an event was authenticated; where the event is for a
tenant and a branch with UUIDs, by a token of that tenant, and it joined the branch while the
branch was a live one of the tenant. -/
theorem rooms_isolated (actions : List (GatewayAction ι)) :
    ∀ receipt ∈ (gatewayAfter actions).received,
      (∃ tenantId, AuthenticatedFor (gatewayAfter actions) receipt.socket tenantId) ∧
      (isUuid receipt.tenantId = true → isUuid receipt.branchId = true →
        Entitled (gatewayAfter actions) receipt.socket receipt.tenantId receipt.branchId) :=
  ((gatewayMachine ι).run_invariant (I := Isolated)
    (fun a _ _ h => step_isolated a h) Isolated.empty).received

end Runs

/-! ## A cook in the kitchen -/

def bistroUuid : String := "0b7a18f3-39b0-4050-bf83-097a18fcd34b"

def mainBranchUuid : String := "5d1c2e6a-7f10-4c8e-9a44-1f2e3d4c5b6a"

/-- A restaurant with one branch. -/
def kitchenWorld : World where
  db :=
    { tenants := [{ id := bistroUuid, name := "Bistro", subdomain := "bistro" }]
      branches :=
        [{ id := mainBranchUuid, tenantId := bistroUuid, restaurantId := "r1", name := "Main" }] }

/-- A token of the restaurant's kitchen. -/
def kitchenToken : AccessToken where
  payload :=
    { sub := "u1", email := "ana@example.com", tenantId := some bistroUuid
      roles := ["KITCHEN_STAFF"] }
  iat := 1700000000

/-- The session store with that token. -/
def kitchenSessions : Sessions where
  cache := { redis := { now := 1700000060000, entry := fun _ => none } }
  accessTokens := [kitchenToken]

/-- The surroundings of a lookup in the kitchen. -/
def kitchenEnv : Env where
  context := {}
  uuid _ := "new"
  now := 1700000060000

/-- A display of the kitchen joins the branch and receives an event; a second socket that
shows no token, and asks for the same branch, does not. -/
def kitchenRun : List (GatewayAction ℕ) :=
  [.connect 1, .authenticate 1 { authToken := some (.token kitchenToken) } kitchenSessions,
    .connect 2, .authenticate 2 {} kitchenSessions,
    .joinBranch 1 (.text mainBranchUuid) kitchenEnv kitchenWorld,
    .joinBranch 2 (.text mainBranchUuid) kitchenEnv kitchenWorld,
    .broadcast bistroUuid mainBranchUuid]

/-- The display is entitled to the one event that is received. -/
theorem kitchen_display_entitled :
    (gatewayAfter kitchenRun).received = [⟨1, bistroUuid, mainBranchUuid⟩] ∧
      Entitled (gatewayAfter kitchenRun) 1 bistroUuid mainBranchUuid := by
  have hreceived : (gatewayAfter kitchenRun).received =
      [⟨1, bistroUuid, mainBranchUuid⟩] := by decide +kernel
  refine ⟨hreceived, ?_⟩
  have hmem : ⟨1, bistroUuid, mainBranchUuid⟩ ∈ (gatewayAfter kitchenRun).received := by
    rw [hreceived]
    exact List.mem_singleton_self _
  exact (rooms_isolated kitchenRun _ hmem).2 (by decide +kernel) (by decide +kernel)

end Kds
end Eleva
