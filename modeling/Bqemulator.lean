import Bqemulator.Versioning.Retention
import Bqemulator.Sql.Isolation
import Bqemulator.RowAccess.PastReads
import Bqemulator.RowAccess.WildcardReads
import Bqemulator.RowAccess.OtherReads
import Bqemulator.Scripting.Quota
import Bqemulator.Scripting.Signals
import Bqemulator.Scripting.Transactions
import Bqemulator.Streaming.BatchCommit
import Bqemulator.Storage.Naming
import Bqemulator.Catalog.Hydration
import Bqemulator.Grpc.ReadRows
import Bqemulator.Api.Upload
import Bqemulator.Jobs.JobResults
import Bqemulator.Jobs.QueryDestination
import Bqemulator.Versioning.Freshness
import Bqemulator.Versioning.MvTasks
import Bqemulator.Sql.DefaultDataset
import Bqemulator.Udf.Registrations
import Bqemulator.Jobs.RecordedChanges
import Bqemulator.Jobs.Immutability
import Bqemulator.Jobs.CopyJob
import Bqemulator.Scripting.Dynamic
import Bqemulator.Scripting.Handlers
import Bqemulator.Sql.Arithmetic
import Bqemulator.Sql.Aggregates
import Bqemulator.Sql.SchemaQueries
import Bqemulator.Api.TableRaces
import Bqemulator.Commands.RoundTrip
import Bqemulator.Scripting.Captures
import Bqemulator.Scripting.CallFrames
import Bqemulator.Sql.WeekTruncation
import Bqemulator.Types.Interval
import Bqemulator.Sql.DivisionSize
import Bqemulator.Sql.Fingerprint
import Bqemulator.Sql.LambdaRules
import Bqemulator.Types.IntervalText
import Bqemulator.RowAccess.BatchDelete
import Bqemulator.Api.Pages
import Bqemulator.Streaming.StreamRuns
import Bqemulator.Catalog.DropSchema
import Bqemulator.Sql.FormatDate
import Bqemulator.Sql.NumericLiterals
import Bqemulator.Storage.Partitions
import Bqemulator.Types.RangeText
import Bqemulator.Sql.Geodesic
import Bqemulator.Sql.Instr
import Bqemulator.Sql.JsonPaths
import Bqemulator.Udf.JsUdf
