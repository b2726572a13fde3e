import Podmin.Foundation.Transition
import Podmin.Foundation.CasRegister
import Podmin.Foundation.Netip
import Podmin.Agent.Dataplane
import Podmin.Agent.Pods
import Podmin.Api.Coordination
import Podmin.Manifest.Identifiers
import Podmin.Agent.Service.Contract
import Podmin.Agent.Service.NodeState
import Podmin.Agent.Service.ClusterSnapshot
import Podmin.Agent.Coordinator.State
import Podmin.Agent.Coordinator.System
import Podmin.Agent.Coordinator.Fencing
import Podmin.Agent.Service.MergedSnapshot
import Podmin.Foundation.Grouping
import Podmin.Agent.Service.MergedBackends
import Podmin.Agent.Coordinator.Leader
import Podmin.Agent.Service.ContractIdentity
import Podmin.Agent.Service.PortIdentity
import Podmin.Agent.Dataplane.Accepts
import Podmin.Agent.Service.Overlay
import Podmin.Agent.Service.Converts
import Podmin.Agent.Service.AppliedModel
import Podmin.Agent.Coordinator.Registrations
import Podmin.Agent.Coordinator.Sessions
import Podmin.Agent.Coordinator.Isolation
import Podmin.Agent.Coordinator.Delegated
import Podmin.Agent.Coordinator.Capacity
import Podmin.Agent.Coordinator.Recovery
import Podmin.Agent.Coordinator.Refresh
import Podmin.Agent.Coordinator.Failover
import Podmin.Agent.Coordinator.Restore
import Podmin.Agent.Coordinator.Rollout
import Podmin.Agent.Coordinator.Subscribers
import Podmin.Agent.Coordinator.StaleLeases
import Podmin.Agent.Coordinator.Applicable
import Podmin.Agent.Coordinator.HonestReport
import Podmin.Foundation.Path
import Podmin.Foundation.PathContainment
import Podmin.Manifest.Index
import Podmin.Cli.Deploy
import Podmin.Cli.Serializable
import Podmin.Cli.Images
import Podmin.Cli.PublishedTags
import Podmin.Registry
import Podmin.Manifest.Pod
import Podmin.Agent.StaticPod.Manifest
import Podmin.Agent.StaticPod.Filesystem
import Podmin.Manifest.Deployment
import Podmin.Manifest.Accepted
import Podmin.Manifest.Canonical
import Podmin.Manifest.Projection
import Podmin.Agent.StaticPod.Reconciler
import Podmin.Agent.StaticPod.Publication
import Podmin.Agent.StaticPod.SecretDir
import Podmin.Agent.StaticPod.Candidates
import Podmin.Agent.StaticPod.CleanCalls
import Podmin.Agent.StaticPod.DiskMatchesIndex
import Podmin.Agent.Workload.Authority
import Podmin.Agent.Workload.Rotation
import Podmin.Agent.StaticPod.Acceptance
import Podmin.Agent.StaticPod.AcceptedRuns
import Podmin.Agent.Workload.TrustOverlap
import Podmin.Foundation.OnceMap
import Podmin.Agent.Dataplane.Ingress
import Podmin.Agent.Dataplane.RoundTrip
import Podmin.Agent.StaticPod.OtherDeployments
import Podmin.Agent.StaticPod.Temporaries
import Podmin.Agent.StaticPod.Fence
import Podmin.Agent.StaticPod.IdentitySwitch
import Podmin.Agent.StaticPod.ExclusiveMounts
import Podmin.Agent.Dataplane.Checksum
import Podmin.Agent.Dataplane.Represents
import Podmin.Agent.Dataplane.Routing
import Podmin.Agent.Dataplane.Activation
import Podmin.Agent.Service.Selection
import Podmin.Agent.Service.LocalOverride
import Podmin.Agent.Coordinator.ExactMerge
import Podmin.Agent.Workload.PublishedPromotion
import Podmin.Foundation.Forest
import Podmin.Manifest.YamlNode
import Podmin.Manifest.YamlWork
import Podmin.Cli.Retention
import Podmin.Foundation.Cidr
import Podmin.Cloud.Aws.Nat64Subnets
import Podmin.Agent.Telemetry.Identity
import Podmin.Agent.Telemetry.Maintain
import Podmin.Manifest.IndexReading
import Podmin.Agent.Coordinator.ConfigDigest
import Podmin.Manifest.YamlText
import Podmin.Manifest.ServiceText
import Podmin.Foundation.NetUrl
import Podmin.Agent.NodeIdentity
