import InstancePool.Proofs.Balancer.Counting
import InstancePool.Proofs.Balancer.IdleRounds
import InstancePool.Proofs.Balancer.LevelCounts
import InstancePool.Proofs.Balancer.Scan
import InstancePool.Proofs.Balancer.UseCounts
import InstancePool.Proofs.Channel.EndpointReplies
import InstancePool.Proofs.Channel.Equivalence
import InstancePool.Proofs.Channel.Finalization
import InstancePool.Proofs.Channel.ImageCalls
import InstancePool.Proofs.Channel.OperationTransfer
import InstancePool.Proofs.Channel.Transparency
import InstancePool.Proofs.Host.ActionSteps
import InstancePool.Proofs.Host.LinkUse
import InstancePool.Proofs.Host.Placement
import InstancePool.Proofs.Host.RecordInvariants
import InstancePool.Proofs.Host.Records
import InstancePool.Proofs.Host.RoutineActions
import InstancePool.Proofs.Host.Runs
import InstancePool.Proofs.Image.EndOrder
import InstancePool.Proofs.Image.Events
import InstancePool.Proofs.Image.ExtractedFiles
import InstancePool.Proofs.Image.InstanceImages
import InstancePool.Proofs.Image.Journal
import InstancePool.Proofs.Image.JournalFrame
import InstancePool.Proofs.Instance.LoadFrame
import InstancePool.Proofs.Instance.LoadOutcome
import InstancePool.Proofs.Instance.LoadRehearsal
import InstancePool.Proofs.Instance.Tag
import InstancePool.Proofs.Instance.Teardown
import InstancePool.Proofs.Instance.Wiring
import InstancePool.Proofs.Interp.FailedOperations
import InstancePool.Proofs.Interp.HeapGrowth
import InstancePool.Proofs.Interp.Isolation
import InstancePool.Proofs.Interp.MachineFrame
import InstancePool.Proofs.Interp.NamespaceSharing
import InstancePool.Proofs.Interp.ObjectProvenance
import InstancePool.Proofs.Interp.Operations
import InstancePool.Proofs.Interp.Reach
import InstancePool.Proofs.Interp.Separation
import InstancePool.Proofs.Interp.SessionSlots
import InstancePool.Proofs.Literal.Display
import InstancePool.Proofs.Literal.Grammar
import InstancePool.Proofs.Literal.Parser
import InstancePool.Proofs.Manager.AllOrNothing
import InstancePool.Proofs.Manager.InterpretersUsed
import InstancePool.Proofs.Manager.NewInstances
import InstancePool.Proofs.Manager.SlotCounts
import InstancePool.Proofs.Module.Builtins
import InstancePool.Proofs.Module.CachedModules
import InstancePool.Proofs.Module.MemberObjects
import InstancePool.Proofs.Module.Registration
import InstancePool.Proofs.Module.Resolution
import InstancePool.Proofs.Module.TextBindings
import InstancePool.Proofs.Number.FloatText
import InstancePool.Proofs.Number.IntegerText
import InstancePool.Proofs.Number.Rounding
import InstancePool.Proofs.Replica.Changes
import InstancePool.Proofs.Replica.Content
import InstancePool.Proofs.Replica.Creation
import InstancePool.Proofs.Replica.Invariants
import InstancePool.Proofs.Replica.Lifecycle
import InstancePool.Proofs.Replica.LoadedObjects
import InstancePool.Proofs.Replica.Materialization
import InstancePool.Proofs.Replica.MaterializedOnce
import InstancePool.Proofs.Replica.Numbering
import InstancePool.Proofs.Replica.StoreEffects
import InstancePool.Proofs.Replica.UnloadAll
import InstancePool.Proofs.Replica.UnloadFrom
import InstancePool.Proofs.Session.InternalSessions
import InstancePool.Proofs.Session.KnownSessions
import InstancePool.Proofs.Session.NoneLeftOpen
import InstancePool.Proofs.Session.OpenCount
import InstancePool.Proofs.Session.ReferenceIdentity
import InstancePool.Proofs.Session.ReferenceOwnership
import InstancePool.Proofs.Session.ReferenceStability
import InstancePool.Proofs.Session.ReturnedReferences
import InstancePool.Proofs.Session.SlotsKept
import InstancePool.Proofs.Tagged.JsonText
import InstancePool.Proofs.Tagged.RoundTrip
import InstancePool.Proofs.Wire.NestingLimit
import InstancePool.Proofs.Wire.RoundTrip
import InstancePool.Proofs.Wire.SelfDelimiting
import InstancePool.Proofs.Wire.ShortestForm
import InstancePool.Tagged.Value
import InstancePool.Value.Text
import InstancePool.Workspace
