import Mathlib.Data.List.Basic

/-!
# Coordination messages

The messages of `proto/coordination.proto`, decoded. A follower sends one `Hello` with its complete
Service contract and then complete `NodeState`s; the leader answers with acknowledgements and
complete `Snapshot`s. Repeated fields hold decoded messages, so none of their elements is absent.
-/

namespace Podmin.Api

/-- One Service port and the Pod port it maps to. -/
structure TargetPort where
  name : String
  protocol : String
  servicePort : Nat
  targetPort : Nat
  deriving DecidableEq, Repr

/-- One ready Pod backend of a Service. -/
structure Endpoint where
  service : String
  podUid : String
  address : String
  ports : List TargetPort
  nodeGroup : String
  ns : String
  deriving DecidableEq, Repr

structure Service where
  name : String
  fqdn : String
  vip : String
  ports : List TargetPort
  backends : List Endpoint
  nodeGroup : String
  ns : String
  deriving DecidableEq, Repr

/-- The cluster-wide identity under which maps of Services are keyed. -/
def Service.identity (item : Service) : String :=
  item.ns ++ "\x00" ++ item.name

structure Hello where
  nodeId : String
  cluster : String
  nodeGroup : String
  sessionId : String
  configDigest : String
  services : List Service
  ipv6Prefix : String
  deriving DecidableEq, Repr

/-- The complete set of ready endpoints of one node session. -/
structure NodeState where
  sessionId : String
  sequence : Nat
  configDigest : String
  endpoints : List Endpoint
  deriving DecidableEq, Repr

structure Drain where
  sessionId : String
  deriving DecidableEq, Repr

inductive ClientMessage where
  | hello (hello : Hello)
  | nodeState (state : NodeState)
  | drain (drain : Drain)
  | empty
  deriving DecidableEq, Repr

/-- The complete cluster Service state of one generation and revision. -/
structure Snapshot where
  generation : Nat
  revision : Nat
  leaderId : String
  configDigest : String
  services : List Service
  deriving DecidableEq, Repr

end Podmin.Api
