import Avix.Lifecycle.ConversationContinuity
import Avix.Lifecycle.InvocationMonotone
import Avix.Lifecycle.JobLifecycle
import Avix.Lifecycle.PackageLifecycle
import Avix.Lifecycle.PauseResume
import Avix.Lifecycle.SessionMembership
import Avix.Lifecycle.SpawnAtomic
import Avix.Llm.Routing
import Avix.Memfs.KeyValue
import Avix.Params.Annotations
import Avix.Params.LimitMeet
import Avix.Params.MergeOver
import Avix.Protocol.BudgetLedger
import Avix.Protocol.CommandLine
import Avix.Protocol.CommandReplies
import Avix.Protocol.CronFiring
import Avix.Protocol.DrainingRemoval
import Avix.Protocol.EventReplay
import Avix.Protocol.FileCommands
import Avix.Protocol.GoalDelivery
import Avix.Protocol.KeepAlive
import Avix.Protocol.McpRouting
import Avix.Protocol.ServiceRouting
import Avix.Protocol.SignalState
import Avix.Protocol.StreamAssembly
import Avix.Protocol.StreamedTurn
import Avix.Protocol.ToolChain
import Avix.Protocol.ToolNames
import Avix.Security.AgentWritable
import Avix.Security.CallerIdentity
import Avix.Security.CapabilityAgreement
import Avix.Security.CapabilityLaws
import Avix.Security.HilIsolation
import Avix.Security.HilOutcome
import Avix.Security.LimitsEnforced
import Avix.Manifest.ToolGrants
import Avix.Security.ManifestAuthenticity
import Avix.Memory.Previews
import Avix.Memory.Ranking
import Avix.Security.MemoryGrants
import Avix.Security.OwnerBits
import Avix.Security.PackageTrust
import Avix.Security.PipeEndpoints
import Avix.Security.ResourceRequests
import Avix.Security.RevocationEvents
import Avix.Security.SnapshotIntegrity
import Avix.Security.TokenIntegrity
import Avix.Security.ToolList
import Avix.Security.UserIsolation
import Avix.Security.VfsCaller
import Avix.Security.WorkspaceConfinement
