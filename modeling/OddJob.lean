import OddJob.Lib.Transition
import OddJob.Lib.Amortized
import OddJob.Lib.Linq
import OddJob.Lib.Pointwise
import OddJob.Lib.Ranking
import OddJob.Lib.Text
import OddJob.Lib.Dictionary
import OddJob.Lib.Columns
import OddJob.Lib.Codec
import OddJob.Lib.Exclusive
import OddJob.Lib.Lease
import OddJob.Lib.Binary64
import OddJob.Lib.Expression
import OddJob.Lib.TypedJson
import OddJob.Data
import OddJob.TypeNames
import OddJob.Creator
import OddJob.Executor
import OddJob.QualifiedName
import OddJob.Serializable
import OddJob.Helpers.Expressions
import OddJob.Helpers.Combine
import OddJob.Helpers.LikeAny
import OddJob.Helpers.Process
import OddJob.Sql.Adder
import OddJob.Sql.Manager
import OddJob.Sql.Rebuild
import OddJob.Sql.RoundTrip
import OddJob.Sql.Store
import OddJob.Sql.Rows
import OddJob.Sql.Fetch
import OddJob.Sql.Calls
import OddJob.Sql.Update
import OddJob.Sql.Guarded
import OddJob.Sql.Edits
import OddJob.Sql.Purger
import OddJob.Sql.RetryWait
import OddJob.Sql.Fairness
import OddJob.Sql.Routing
import OddJob.FileSystem.Store
import OddJob.FileSystem.History
import OddJob.FileSystem.Sharing
import OddJob.FileSystem.Document
import OddJob.FileSystem.Arguments
import OddJob.FileSystem.Mirror
import OddJob.FileSystem.Refinement
import OddJob.FileSystem.Fairness
import OddJob.Akka.Engine
import OddJob.Akka.Moves
import OddJob.Akka.Tracking
import OddJob.Akka.Accounting
import OddJob.Akka.Progress
import OddJob.Akka.Pending
import OddJob.Akka.Protocol
import OddJob.Akka.Shutdown
import OddJob.Akka.Shell
import OddJob.Akka.Sweep
import OddJob.Akka.Saturation
import OddJob.Akka.Drain
import OddJob.Akka.Answers
import OddJob.Akka.Custody
import OddJob.Akka.Awaited
import OddJob.FileSystem.Engines
import OddJob.FileSystem.Custody
import OddJob.FileSystem.Lost
import OddJob.FileSystem.Blocked
import OddJob.FileSystem.Kept
import OddJob.ThreadPool.Engine
import OddJob.Presentation.Remoting
import OddJob.Presentation.Search
import OddJob.Presentation.Operators
import OddJob.Presentation.Editing
import OddJob.Cluster.System
import OddJob.Cluster.Moves
import OddJob.Cluster.Refinement
import OddJob.Cluster.Simulation
import OddJob.Cluster.Reports
import OddJob.Cluster.Runs
import OddJob.Cluster.Exclusion
import OddJob.Cluster.Eligible
import OddJob.Cluster.Overwrite
import OddJob.Cluster.Priority
import OddJob.Cluster.Undecodable
import OddJob.Cluster.Orphans
import OddJob.Cluster.Calls
import OddJob.Cluster.Verdicts
