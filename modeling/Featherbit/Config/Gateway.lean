/-
  THE SCHEMA OF `gateway.yaml` (`config/gateway.rs`, `ConsumerConfig` of `consumers/mod.rs`):
  routes, node-graph policies and consumers.
-/
import Featherbit.Json

namespace Featherbit

/-- Request-matching conditions of a route; an absent criterion matches any request. -/
structure MatchRule where
  path : Option String := none
  methods : List String := []
  headers : HashMap String := ∅
  host : Option String := none
deriving DecidableEq

/-- Binds a request match rule to a named policy. -/
structure RouteConfig where
  name : String
  matchRule : MatchRule
  policy : String
deriving DecidableEq

/-- Canvas coordinates of a node in the graph editor. -/
structure Position where
  x : F64
  y : F64
deriving DecidableEq

/-- One plugin node of a policy graph. -/
structure NodeConfig where
  id : String
  nodeType : String
  config : HashMap Json := ∅
  position : Option Position := none
deriving DecidableEq

/-- A directed edge between two node ports, each written `node_id.port`. -/
structure EdgeConfig where
  «from» : String
  «to» : String
deriving DecidableEq

/-- A node-graph policy; `errorHandler` is the node to go to when a node errors without an
    explicit error edge. -/
structure PolicyConfig where
  name : String
  errorHandler : Option String := none
  nodes : List NodeConfig := []
  edges : List EdgeConfig := []
deriving DecidableEq

/-- A named API client with per-auth-plugin credentials. -/
structure ConsumerConfig where
  name : String
  group : Option String := none
  labels : HashMap String := ∅
  credentials : HashMap Json := ∅
deriving DecidableEq

/-- Root of `gateway.yaml`. -/
structure GatewayConfig where
  routes : List RouteConfig := []
  policies : List PolicyConfig := []
  consumers : List ConsumerConfig := []
deriving DecidableEq

end Featherbit
