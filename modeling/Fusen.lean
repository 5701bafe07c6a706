import Fusen.Binding.Arrival
import Fusen.Binding.TextArguments
import Fusen.Client.Bulkhead
import Fusen.Client.ShutdownEnds
import Fusen.Client.SubscriptionSafe
import Fusen.Nacos.SnapshotGate
import Fusen.Invocation.Accounting
import Fusen.Invocation.Blame
import Fusen.Invocation.RetryAfter
import Fusen.Invocation.Routing
import Fusen.Server.LifecycleEnds
import Fusen.Server.RemoteCall
import Fusen.Server.RouteAgreement
import Fusen.Server.Shutdown
import Fusen.Server.StrictPaths
import Fusen.ServiceState
import Fusen.Config.Agreement
import Fusen.Lib.JsonRead
import Fusen.Lib.Machine
import Fusen.Macro.Descriptor
import Fusen.Projection.Confidential
import Fusen.Projection.FieldOrder
import Fusen.Projection.Within
import Fusen.Resilience.RetryBudget
import Fusen.Resilience.StoreRuns
import Fusen.Resilience.WindowRuns
import Fusen.Runtime.Waiting
import Fusen.Wire.Framing
import Fusen.Wire.ProblemHints
import Fusen.Wire.UriExact
