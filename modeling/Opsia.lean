import Opsia.Command.QueueExpiry
import Opsia.Command.Delivery
import Opsia.Command.Finality
import Opsia.Command.Capacity
import Opsia.Command.Idempotency
import Opsia.Command.EventDelivery
import Opsia.Event.HandlerBudget
import Opsia.Event.NoLoss
import Opsia.Event.Conservation
import Opsia.Realtime.BrowserView
import Opsia.Realtime.Mirror
import Opsia.Gitops.Completion
import Opsia.Gitops.RunFinality
import Opsia.Gitops.ApprovalFinality
import Opsia.Evidence.Lifecycle
import Opsia.Inventory.MirrorLaw
import Opsia.Inventory.ResourcePages
import Opsia.Gitops.Routing
import Opsia.Gitops.Suppression
import Opsia.Gitops.Cascade
import Opsia.Gitops.Poller
import Opsia.Gitops.RecoveryMerge
import Opsia.Timeline.Handover
import Opsia.Inventory.LifeStory
import Opsia.Inventory.EventFacts
import Opsia.Recovery.Approvals
import Opsia.Recovery.Progress
import Opsia.Recovery.StateMachine
import Opsia.Recovery.Stabilisation
import Opsia.Alert.TargetStates
import Opsia.Alert.Firing
import Opsia.Traffic.Verdict
import Opsia.Graph.Completeness
import Opsia.Evidence.Tenancy
import Opsia.Evidence.WindowLaw
import Opsia.Traffic.Completion
import Opsia.Terminal.Redaction
import Opsia.PortForward.Encoding
import Opsia.PortForward.Ending
import Opsia.Realtime.SessionCaps
import Opsia.Alert.Occurrence
import Opsia.Timeline.Membership
import Opsia.Gitops.Rollback
import Opsia.Gitops.RollbackPaths
import Opsia.Gitops.RollbackSlots
import Opsia.Gitops.RollsBack
import Opsia.Lib.RoundRobin
import Opsia.Agent.CollectionLimits
import Opsia.Agent.PayloadLimits
import Opsia.Agent.RegistryReference
import Opsia.Agent.ResultOutbox
import Opsia.Graph.Selectors
import Opsia.Lib.Overlap
import Opsia.LogStream.Evidence
import Opsia.Lib.Scripts
import Opsia.Lib.Redis
import Opsia.Session.RateLimit
import Opsia.Release.Preview
import Opsia.Release.SafePrEvidence
import Opsia.Agent.Rollout
import Opsia.Timeline.Fanout
import Opsia.DataCatalog.SchemaContract
import Opsia.Agent.Reconciler
import Opsia.Agent.PolicySync
import Opsia.Agent.RenderedDiff
