import ShoppingProject.Groups

/-!
# Groups of the real-time hubs

A user who connects to a hub joins groups whose names the hub makes of the user's id and
roles; the service makes the names of the groups it sends to by itself. The names must be
equal for the users a message is meant for, and for no others. Names are compared exactly,
and both sides lower the names of roles, in a way that is a parameter.
-/
namespace GroupRouting

open Groups

inductive Hub where
  | notification | cart | order
  deriving DecidableEq, Repr

/-- The claims of a connected user. -/
structure HubUser where
  sub : Option String
  nameIdentifier : Option String
  name : Option String
  roles : List String
  deriving DecidableEq

def getUserId (user : HubUser) : Option String := user.sub <|> user.nameIdentifier <|> user.name

def HubUser.isInRole (user : HubUser) (role : String) : Bool := user.roles.contains role

/-- `isAdmin` of the order hub. -/
def isAdmin (user : HubUser) : Bool := user.isInRole "Admin" || user.isInRole "Administrator"

/-- A user without an id, or with an empty one, joins no group. -/
def joinAs (user : HubUser) (names : String → List String) : List String :=
  match getUserId user with
  | none => []
  | some userId => if userId = "" then [] else names userId

def NotificationHub.onConnectedAsync (lower : String → String) (user : HubUser) : List String :=
  joinAs user fun userId =>
    ("user_" ++ userId) :: user.roles.map fun role => "role_" ++ lower role

def CartHub.onConnectedAsync (user : HubUser) : List String :=
  joinAs user fun userId => ["cart_" ++ userId]

def OrderHub.onConnectedAsync (user : HubUser) : List String :=
  joinAs user fun userId =>
    ("user_" ++ userId) :: if isAdmin user then ["role_admins"] else []

def onConnectedAsync (lower : String → String) : Hub → HubUser → List String
  | .notification, user => NotificationHub.onConnectedAsync lower user
  | .cart, user => CartHub.onConnectedAsync user
  | .order, user => OrderHub.onConnectedAsync user

/-- Each hub has groups of its own. -/
def joins (lower : String → String) (c : Hub × HubUser) : List (Hub × String) :=
  (onConnectedAsync lower c.1 c.2).map (Prod.mk c.1)

abbrev Connections := Registry String (Hub × HubUser) (Hub × String)

abbrev HubEvent := Event String (Hub × HubUser)

/-- To which clients of a hub a message goes; no group stands for all of them. -/
structure Delivery where
  hub : Hub
  group : Option String
  method : String

namespace SignalRService

def sendNotificationToUserAsync (userId : String) : Delivery :=
  ⟨.notification, some ("user_" ++ userId), "ReceiveNotification"⟩

def sendNotificationToAllAsync : Delivery := ⟨.notification, none, "ReceiveNotification"⟩

def sendNotificationToRoleAsync (lower : String → String) (role : String) : Delivery :=
  ⟨.notification, some (lower role), "ReceiveNotification"⟩

def notifyCartUpdatedAsync (userId : String) : Delivery :=
  ⟨.cart, some ("cart_" ++ userId), "CartUpdated"⟩

def notifyItemAddedAsync (userId : String) : Delivery :=
  ⟨.cart, some ("cart_" ++ userId), "ItemAdded"⟩

def notifyItemRemovedAsync (userId : String) : Delivery :=
  ⟨.cart, some ("cart_" ++ userId), "ItemRemoved"⟩

def notifyCartClearedAsync (userId : String) : Delivery :=
  ⟨.cart, some ("cart_" ++ userId), "CartCleared"⟩

def notifyOrderCreatedAsync (userId : String) : Delivery :=
  ⟨.order, some ("user_" ++ userId), "OrderCreated"⟩

def notifyOrderStatusChangedAsync (userId : String) : Delivery :=
  ⟨.order, some ("user_" ++ userId), "OrderStatusChanged"⟩

def notifyAdminsNewOrderAsync : Delivery := ⟨.order, some "admins", "NewOrder"⟩

end SignalRService

inductive Send where
  | notificationToUser (userId : String) : Send
  | notificationToAll : Send
  | notificationToRole (role : String) : Send
  | cartUpdated (userId : String) : Send
  | itemAdded (userId : String) : Send
  | itemRemoved (userId : String) : Send
  | cartCleared (userId : String) : Send
  | orderCreated (userId : String) : Send
  | orderStatusChanged (userId : String) : Send
  | adminsNewOrder : Send

open SignalRService in
def delivery (lower : String → String) : Send → Delivery
  | .notificationToUser userId => sendNotificationToUserAsync userId
  | .notificationToAll => sendNotificationToAllAsync
  | .notificationToRole role => sendNotificationToRoleAsync lower role
  | .cartUpdated userId => notifyCartUpdatedAsync userId
  | .itemAdded userId => notifyItemAddedAsync userId
  | .itemRemoved userId => notifyItemRemovedAsync userId
  | .cartCleared userId => notifyCartClearedAsync userId
  | .orderCreated userId => notifyOrderCreatedAsync userId
  | .orderStatusChanged userId => notifyOrderStatusChangedAsync userId
  | .adminsNewOrder => notifyAdminsNewOrderAsync

/-- The connections that receive what is sent. -/
def receivers (r : Connections) (d : Delivery) : List (String × Hub × HubUser) :=
  match d.group with
  | none => r.connections.filter fun c => c.2.1 = d.hub
  | some group => recipients r (d.hub, group)

/-- The role has the same name, up to case. -/
def HoldsRole (lower : String → String) (role : String) (user : HubUser) : Prop :=
  ∃ held ∈ user.roles, lower held = lower role

/-- The users whom a message is meant for. -/
def Intended (lower : String → String) (user : HubUser) : Send → Prop
  | .notificationToUser userId | .cartUpdated userId | .itemAdded userId | .itemRemoved userId
  | .cartCleared userId | .orderCreated userId | .orderStatusChanged userId =>
    getUserId user = some userId
  | .notificationToAll => True
  | .notificationToRole role => HoldsRole lower role user
  | .adminsNewOrder => isAdmin user = true

/-- Of the connections to its hub, a message reaches those of the users it is meant for. -/
def Exact (lower : String → String) (r : Connections) (send : Send) : Prop :=
  ∀ c ∈ r.connections, c ∈ receivers r (delivery lower send) ↔
    c.2.1 = (delivery lower send).hub ∧ Intended lower c.2.2 send

theorem mem_joins_iff (lower : String → String) (hub : Hub) (name : String) (c : Hub × HubUser) :
    (hub, name) ∈ joins lower c ↔ c.1 = hub ∧ name ∈ onConnectedAsync lower hub c.2 := by
  simp only [joins, List.mem_map, Prod.mk.injEq]
  constructor
  · rintro ⟨_, hname, rfl, rfl⟩
    exact ⟨rfl, hname⟩
  · rintro ⟨rfl, hname⟩
    exact ⟨name, hname, rfl, rfl⟩

theorem mem_joinAs_iff (user : HubUser) (names : String → List String) (name : String) :
    name ∈ joinAs user names ↔
      ∃ userId, getUserId user = some userId ∧ userId ≠ "" ∧ name ∈ names userId := by
  unfold joinAs
  cases getUserId user with
  | none => simp
  | some userId => by_cases hempty : userId = "" <;> simp [hempty]

/-- A message to a group is exact if the group's members on its hub are those it is meant for. -/
theorem exact_iff_of_group {lower : String → String} {r : Connections} {send : Send}
    {name : String} (h : Consistent (joins lower) r)
    (hgroup : (delivery lower send).group = some name) :
    Exact lower r send ↔ ∀ c ∈ r.connections, c.2.1 = (delivery lower send).hub →
      (name ∈ onConnectedAsync lower (delivery lower send).hub c.2.2 ↔
        Intended lower c.2.2 send) := by
  refine forall₂_congr fun c hc => ?_
  simp only [receivers, hgroup, mem_recipients_iff h, mem_joins_iff, hc, true_and]
  exact and_congr_right_iff

/-- A name that only one id gives is the name of a group with only that id's connections. -/
theorem mem_joinAs_own_iff {user : HubUser} {names : String → List String} {name userId : String}
    (hnames : ∀ u, name ∈ names u ↔ userId = u) :
    name ∈ joinAs user names ↔ getUserId user = some userId ∧ userId ≠ "" := by
  rw [mem_joinAs_iff]
  constructor
  · rintro ⟨u, hid, hne, hmem⟩
    obtain rfl := (hnames u).mp hmem
    exact ⟨hid, hne⟩
  · rintro ⟨hid, hne⟩
    exact ⟨userId, hid, hne, (hnames userId).mpr rfl⟩

theorem mem_notification_user_iff (lower : String → String) (user : HubUser) (userId : String) :
    "user_" ++ userId ∈ NotificationHub.onConnectedAsync lower user ↔
      getUserId user = some userId ∧ userId ≠ "" := by
  have hrole : ∀ name, "role_" ++ name ≠ "user_" ++ userId := by
    intro name h
    simpa using congrArg String.toList h
  refine mem_joinAs_own_iff fun u => ?_
  simp [hrole]

theorem mem_cart_iff (user : HubUser) (userId : String) :
    "cart_" ++ userId ∈ CartHub.onConnectedAsync user ↔
      getUserId user = some userId ∧ userId ≠ "" :=
  mem_joinAs_own_iff fun u => by simp

theorem mem_order_user_iff (user : HubUser) (userId : String) :
    "user_" ++ userId ∈ OrderHub.onConnectedAsync user ↔
      getUserId user = some userId ∧ userId ≠ "" := by
  have hrole : "user_" ++ userId ≠ "role_admins" := by
    intro h
    simpa using congrArg String.toList h
  refine mem_joinAs_own_iff fun u => ?_
  cases isAdmin user <;> simp [hrole]

/-- No connection is in the group that the messages to the administrators go to. -/
theorem not_mem_order_admins (user : HubUser) : "admins" ∉ OrderHub.onConnectedAsync user := by
  rw [OrderHub.onConnectedAsync, mem_joinAs_iff]
  rintro ⟨userId, -, -, hmem⟩
  have huser : "admins" ≠ "user_" ++ userId := by
    intro h
    simpa using congrArg String.toList h
  cases hadmin : isAdmin user <;> simp [hadmin, huser] at hmem

/-- The role happens to have the name of a group that the user joins. -/
def NamesGroup (lower : String → String) (role : String) (user : HubUser) : Prop :=
  ∃ userId, getUserId user = some userId ∧ userId ≠ "" ∧
    (lower role = "user_" ++ userId ∨ ∃ held ∈ user.roles, lower role = "role_" ++ lower held)

theorem mem_notification_role_iff (lower : String → String) (user : HubUser) (role : String) :
    lower role ∈ NotificationHub.onConnectedAsync lower user ↔ NamesGroup lower role user := by
  simp only [NotificationHub.onConnectedAsync, mem_joinAs_iff, NamesGroup, List.mem_cons,
    List.mem_map, eq_comm (b := lower role)]

/-- Where a message reaches the users it is meant for. -/
def Routed (lower : String → String) (r : Connections) (send : Send) : Prop :=
  match send with
  | .notificationToUser userId | .cartUpdated userId | .itemAdded userId | .itemRemoved userId
  | .cartCleared userId | .orderCreated userId | .orderStatusChanged userId =>
    userId ≠ "" ∨ ∀ c ∈ r.connections, c.2.1 = (delivery lower send).hub →
      getUserId c.2.2 ≠ some userId
  | .notificationToAll => True
  | .notificationToRole role => ∀ c ∈ r.connections, c.2.1 = .notification →
    (NamesGroup lower role c.2.2 ↔ HoldsRole lower role c.2.2)
  | .adminsNewOrder => ∀ c ∈ r.connections, c.2.1 = .order → isAdmin c.2.2 = false

/-- A message to a user is exact unless it is for the empty id. -/
theorem exact_user_iff {lower : String → String} {r : Connections} {send : Send}
    {name userId : String} (h : Consistent (joins lower) r)
    (hgroup : (delivery lower send).group = some name)
    (hname : ∀ user, name ∈ onConnectedAsync lower (delivery lower send).hub user ↔
      getUserId user = some userId ∧ userId ≠ "")
    (hintended : ∀ user, Intended lower user send ↔ getUserId user = some userId) :
    Exact lower r send ↔ userId ≠ "" ∨ ∀ c ∈ r.connections,
      c.2.1 = (delivery lower send).hub → getUserId c.2.2 ≠ some userId := by
  rw [exact_iff_of_group h hgroup]
  simp only [hname, hintended]
  by_cases hempty : userId = ""
  · simp [hempty]
  · simp [hempty]

/-- After any connections and disconnections, a message reaches exactly the connections of
those it is meant for if and only if it is routed to them. -/
theorem routing_exact_iff (lower : String → String) (events : List HubEvent) (send : Send) :
    Exact lower (run (joins lower) events) send ↔ Routed lower (run (joins lower) events) send := by
  have h := consistent_run (joins lower) events
  cases send with
  | notificationToUser userId =>
    exact exact_user_iff h rfl (fun user => mem_notification_user_iff lower user userId)
      fun _ => Iff.rfl
  | cartUpdated userId | itemAdded userId | itemRemoved userId | cartCleared userId =>
    exact exact_user_iff h rfl (fun user => mem_cart_iff user userId) fun _ => Iff.rfl
  | orderCreated userId | orderStatusChanged userId =>
    exact exact_user_iff h rfl (fun user => mem_order_user_iff user userId) fun _ => Iff.rfl
  | notificationToAll =>
    refine iff_of_true (fun c hc => ?_) trivial
    have hall : c ∈ receivers (run (joins lower) events) SignalRService.sendNotificationToAllAsync ↔
        c ∈ (run (joins lower) events).connections ∧ c.2.1 = .notification :=
      List.mem_filter.trans (and_congr_right fun _ => decide_eq_true_iff)
    exact hall.trans ⟨fun hboth => ⟨hboth.2, trivial⟩, fun hboth => ⟨hc, hboth.1⟩⟩
  | notificationToRole role =>
    rw [exact_iff_of_group h rfl]
    refine forall₃_congr fun c hc hhub => ?_
    exact iff_congr (mem_notification_role_iff lower c.2.2 role) Iff.rfl
  | adminsNewOrder =>
    rw [exact_iff_of_group h rfl]
    refine forall₃_congr fun c hc hhub => ?_
    have hnone : "admins" ∉ onConnectedAsync lower .order c.2.2 := not_mem_order_admins c.2.2
    rw [← Bool.not_eq_true, ← false_iff]
    exact iff_congr (iff_false_intro hnone) Iff.rfl

section Unprefixed

variable {lower : String → String} {role : String}
  (huser : ∀ name, lower role ≠ "user_" ++ name) (hrole : ∀ name, lower role ≠ "role_" ++ name)
include huser hrole

theorem not_namesGroup (user : HubUser) : ¬ NamesGroup lower role user := by
  rintro ⟨userId, -, -, h | ⟨held, -, h⟩⟩
  · exact huser userId h
  · exact hrole (lower held) h

/-- A message to a role, whose name is not written like the name of a group, reaches nobody. -/
theorem role_reaches_nobody (events : List HubEvent) :
    receivers (run (joins lower) events) (delivery lower (.notificationToRole role)) = [] := by
  refine List.eq_nil_iff_forall_not_mem.mpr fun c hc => ?_
  have hjoins := ((mem_recipients_iff (consistent_run (joins lower) events) _ c).mp hc).2
  have hnames := (mem_notification_role_iff lower c.2.2 role).mp
    ((mem_joins_iff lower _ _ c.2).mp hjoins).2
  exact not_namesGroup huser hrole c.2.2 hnames

/-- Such a message is routed where nobody who is connected holds the role. -/
theorem routed_role_iff (r : Connections) : Routed lower r (.notificationToRole role) ↔
    ∀ c ∈ r.connections, c.2.1 = .notification → ¬ HoldsRole lower role c.2.2 := by
  refine forall₃_congr fun c _ _ => ?_
  rw [iff_false_left (not_namesGroup huser hrole c.2.2)]

end Unprefixed

def ada : HubUser := ⟨none, some "u1", some "ada", ["Client"]⟩

/-- A client who is connected does not receive what is sent to the clients. -/
theorem role_message_lost :
    ¬ Exact String.toLower (run (joins String.toLower) [.connected "c1" (.notification, ada)])
      (.notificationToRole "Client") := by
  intro h
  have hreceives := (h ("c1", .notification, ada) (by decide)).mpr ⟨rfl, "Client", .head _, rfl⟩
  exact absurd hreceives (by decide +kernel)

end GroupRouting
