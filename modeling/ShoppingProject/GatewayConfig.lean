import Mathlib.Data.List.Nodup

/-!
# The configuration of the gateway

`ConsulProxyConfigProvider` makes a route and a cluster for every service instance that is
registered with the tag `api`, and names both after the service. An exception leaves the
configuration as it was, which at the start is empty.
-/
namespace GatewayConfig

/-- A service instance. One that is registered without tags has null for them, which
`Contains` reads as no tags at all. -/
structure AgentService where
  id : String
  service : String
  tags : List String
  address : String
  port : Int
  deriving DecidableEq, Repr

/-- What is registered, each instance under its own id. -/
structure Services where
  values : List AgentService
  keyed : (values.map AgentService.id).Nodup

structure RouteConfig where
  routeId : String
  clusterId : String
  path : String
  deriving DecidableEq, Repr

structure ClusterConfig where
  clusterId : String
  /-- The addresses of the destinations, under their names. -/
  destinations : List (String × String)
  deriving DecidableEq, Repr

structure ProxyConfig where
  routes : List RouteConfig
  clusters : List ClusterConfig
  deriving DecidableEq, Repr

def addressOf (service : AgentService) : String :=
  "http://" ++ service.address ++ ":" ++ toString service.port

def routeOf (service : AgentService) : RouteConfig where
  routeId := service.service ++ "-route"
  clusterId := service.service ++ "-cluster"
  path := "/api/\x7b**catch-all\x7d"

def clusterOf (service : AgentService) : ClusterConfig where
  clusterId := service.service ++ "-cluster"
  destinations := [("destination1", addressOf service)]

/-- What the loop does with a service. -/
def add (config : ProxyConfig) (service : AgentService) : ProxyConfig :=
  if !service.tags.contains "api" then config
  else ⟨config.routes ++ [routeOf service], config.clusters ++ [clusterOf service]⟩

def collect (services : List AgentService) : ProxyConfig := services.foldl add ⟨[], []⟩

def fallback : ProxyConfig where
  routes := [⟨"fallback-route", "fallback-cluster", "\x7b**catch-all\x7d"⟩]
  clusters := [⟨"fallback-cluster", [("destination1", "http://localhost:5000")]⟩]

/-- What is loaded from the response of Consul; `none` if the request throws. -/
def loadConfig (config : ProxyConfig) (response : Option Services) : ProxyConfig :=
  match response with
  | none => config
  | some services =>
    let new := collect services.values
    if new.routes.isEmpty then ⟨new.routes ++ fallback.routes, new.clusters ++ fallback.clusters⟩
    else new

/-- The configuration that a gateway starts with. -/
def initial (services : Services) : ProxyConfig := loadConfig ⟨[], []⟩ (some services)

/-! ## Which configurations are well-formed -/

def isApi (service : AgentService) : Bool := service.tags.contains "api"

structure WellFormed (services : Services) (config : ProxyConfig) : Prop where
  routeIds : (config.routes.map RouteConfig.routeId).Nodup
  clusterIds : (config.clusters.map ClusterConfig.clusterId).Nodup
  routed : ∀ route ∈ config.routes, ∃ cluster ∈ config.clusters,
    route.clusterId = cluster.clusterId
  reached : ∀ service ∈ services.values, isApi service = true →
    ∃ cluster ∈ config.clusters, addressOf service ∈ cluster.destinations.map Prod.snd ∧
      ∃ route ∈ config.routes, route.clusterId = cluster.clusterId

/-- The loop adds the routes and clusters of the services that are tagged `api`. -/
theorem foldl_add (services : List AgentService) (config : ProxyConfig) :
    services.foldl add config = ⟨config.routes ++ (services.filter isApi).map routeOf,
      config.clusters ++ (services.filter isApi).map clusterOf⟩ := by
  induction services generalizing config with
  | nil => simp
  | cons service services ih =>
    rw [List.foldl_cons, ih]
    by_cases hapi : "api" ∈ service.tags <;> simp [add, isApi, hapi]

theorem collect_eq (services : List AgentService) : collect services =
    ⟨(services.filter isApi).map routeOf, (services.filter isApi).map clusterOf⟩ :=
  foldl_add services ⟨[], []⟩

/-- Names with one ending are as different as what is before it. -/
theorem nodup_append_iff (names : List String) (ending : String) :
    (names.map (· ++ ending)).Nodup ↔ names.Nodup :=
  List.nodup_map_iff fun _ _ h => (String.append_left_inj ending).mp h

variable {services : Services}

theorem routeIds_nodup (tagged : List AgentService) :
    ((tagged.map routeOf).map RouteConfig.routeId).Nodup ↔
      (tagged.map AgentService.service).Nodup := by
  rw [← nodup_append_iff (tagged.map AgentService.service) "-route", List.map_map, List.map_map]
  rfl

theorem clusterIds_nodup (tagged : List AgentService) :
    ((tagged.map clusterOf).map ClusterConfig.clusterId).Nodup ↔
      (tagged.map AgentService.service).Nodup := by
  rw [← nodup_append_iff (tagged.map AgentService.service) "-cluster", List.map_map, List.map_map]
  rfl

theorem fallback_wellFormed (h : ∀ s ∈ services.values, isApi s = false) :
    WellFormed services fallback where
  routeIds := by decide
  clusterIds := by decide
  routed := by simp [fallback]
  reached s hs hapi := by
    rw [h s hs] at hapi
    cases hapi

theorem names_wellFormed
    (h : ((services.values.filter isApi).map AgentService.service).Nodup) :
    WellFormed services ⟨(services.values.filter isApi).map routeOf,
      (services.values.filter isApi).map clusterOf⟩ where
  routeIds := (routeIds_nodup _).mpr h
  clusterIds := (clusterIds_nodup _).mpr h
  routed route hroute := by
    obtain ⟨service, hservice, rfl⟩ := List.mem_map.mp hroute
    exact ⟨clusterOf service, List.mem_map_of_mem hservice, rfl⟩
  reached service hservice hapi := by
    have hmem : service ∈ services.values.filter isApi := List.mem_filter.mpr ⟨hservice, hapi⟩
    exact ⟨clusterOf service, List.mem_map_of_mem hmem, List.mem_cons_self, routeOf service,
      List.mem_map_of_mem hmem, rfl⟩

/-- Instances that are tagged `api` have to be of different services. -/
theorem initial_wellFormed_iff (services : Services) : WellFormed services (initial services) ↔
    ((services.values.filter isApi).map AgentService.service).Nodup := by
  unfold initial loadConfig
  dsimp only
  rw [collect_eq]
  by_cases hnone : services.values.filter isApi = []
  · rw [hnone]
    have hapi : ∀ service ∈ services.values, isApi service = false := by simpa using hnone
    exact iff_of_true (fallback_wellFormed hapi) List.nodup_nil
  · rw [if_neg (by simpa using hnone)]
    exact ⟨fun h => (routeIds_nodup _).mp h.routeIds, names_wellFormed⟩

/-- Two instances of one service. -/
def twoInstances : Services where
  values := [⟨"ShoppingProject-5000", "ShoppingProject", ["api"], "localhost", 5000⟩,
    ⟨"ShoppingProject-5001", "ShoppingProject", ["api"], "localhost", 5001⟩]
  keyed := by decide

/-- They are given the same route. -/
theorem twoInstances_clash : ¬ WellFormed twoInstances (initial twoInstances) := by
  intro h
  exact absurd h.routeIds (by decide)

end GatewayConfig
