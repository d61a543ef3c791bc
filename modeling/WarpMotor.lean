import WarpMotor.Lib.Runs
import WarpMotor.Lib.Slots
import WarpMotor.Event
import WarpMotor.Actor.Command
import WarpMotor.Picker.Router
import WarpMotor.Picker.Policy
import WarpMotor.Picker.Queue
import WarpMotor.Picker.Worker
import WarpMotor.Picker.Sleep
import WarpMotor.Actor.SourceRate
import WarpMotor.Actor.SourceLease
import WarpMotor.Picker.AutoRate
import WarpMotor.Actor.RateLimiter
import WarpMotor.Actor.Routine
import WarpMotor.Engine.Service
import WarpMotor.Engine.Shutdown
import WarpMotor.Picker.Reload
import WarpMotor.Parse.MultiParser
import WarpMotor.Actor.ReloadDrain
import WarpMotor.Sink.Backend
import WarpMotor.Sink.Runtime
import WarpMotor.Sink.Rescue
import WarpMotor.Sink.Conservation
import WarpMotor.Sink.Drop
import WarpMotor.Lib.BatchBuffer
import WarpMotor.Sink.Dispatcher
import WarpMotor.Sink.Fill
import WarpMotor.Sink.Drained
import WarpMotor.Cond.Parser
import WarpMotor.Lib.BoolFrames
import WarpMotor.Cond.Grammar
import WarpMotor.Cond.Aligned
import WarpMotor.Cond.Reading
import WarpMotor.Cond.Tokens
import WarpMotor.Cond.Machine
import WarpMotor.Cond.TreeTokens
import WarpMotor.Cond.Display
import WarpMotor.Cond.ReadBack
import WarpMotor.Lib.StreamFraming
import WarpMotor.Tcp.Framing
import WarpMotor.Syslog.Framing
import WarpMotor.Tcp.Connection
import WarpMotor.Picker.Bounds
import WarpMotor.Picker.PendingBytes
import WarpMotor.Picker.Terminal
import WarpMotor.Engine.Control
import WarpMotor.Engine.ReloadFailure
import WarpMotor.Recovery.File
import WarpMotor.Lib.Path
import WarpMotor.Recovery.Names
import WarpMotor.File.ChunkReader
import WarpMotor.File.Ranges
import WarpMotor.Tcp.Source
import WarpMotor.Tcp.Bookkeeping
import WarpMotor.Tcp.Delivery
import WarpMotor.File.MultiSource
import WarpMotor.File.MultiDelivery
import WarpMotor.Picker.Cancellation
import WarpMotor.Syslog.RoundTrip
import WarpMotor.Oml.Field
import WarpMotor.Oml.Syntax
import WarpMotor.Oml.Evaluate
import WarpMotor.Oml.Grammar
import WarpMotor.Oml.ZeroCopy
import WarpMotor.Lib.Relate
import WarpMotor.Oml.SyncAsync
import WarpMotor.Lib.Parsing
import WarpMotor.Oml.Reading
import WarpMotor.Oml.SqlText
import WarpMotor.Oml.SqlWhere
import WarpMotor.Oml.Expressions
import WarpMotor.Oml.Conf
import WarpMotor.Oml.Closed
import WarpMotor.Oml.Produced
import WarpMotor.Oml.Built
import WarpMotor.Oml.Queries
import WarpMotor.Oml.Resolved
import WarpMotor.Privacy.Disclosure
import WarpMotor.Oml.SqlBody
import WarpMotor.Oml.OrderByWords
import WarpMotor.Oml.TailClauses
import WarpMotor.Engine.Commands
import WarpMotor.Oml.Transform
import WarpMotor.Parse.ParseEvents
import WarpMotor.Engine.DrainReach
import WarpMotor.Actor.ExitPolicy
import WarpMotor.Engine.Custody
import WarpMotor.Engine.Working
import WarpMotor.Lib.FirstMax
import WarpMotor.Resources.Indexing
import WarpMotor.Resources.RuleRouting
import WarpMotor.Resources.ModelBinding
import WarpMotor.Lib.Cursor
import WarpMotor.Lib.Utf8
import WarpMotor.Syslog.Header
import WarpMotor.Syslog.Preprocess
import WarpMotor.Syslog.FastStrip
import WarpMotor.Sink.KeptBuffer
import WarpMotor.Sink.SinglePath
import WarpMotor.Sink.PathAgreement
import WarpMotor.Sink.Fanout
import WarpMotor.Parse.GlobalTags
import WarpMotor.Sink.GlobalTags
import WarpMotor.Lib.Lru
import WarpMotor.Stats.Dimension
import WarpMotor.Stats.Collector
import WarpMotor.Stats.Tally
import WarpMotor.Stats.Merge
import WarpMotor.Stats.Sharding
import WarpMotor.Stats.Groups
import WarpMotor.Stats.Metrics
import WarpMotor.Parse.Statistics
import WarpMotor.Parse.Buckets
import WarpMotor.Pipe.Field
import WarpMotor.Pipe.Functions
import WarpMotor.Pipe.Dispatch
import WarpMotor.Lib.Stages
import WarpMotor.Pipe.Chain
import WarpMotor.Pipe.TimeInverse
import WarpMotor.Pipe.ObjectPath
import WarpMotor.File.Undecodable
import WarpMotor.Oml.Take
import WarpMotor.Privacy.Pool
import WarpMotor.Lib.CheckedInt
import WarpMotor.Oml.Removal
import WarpMotor.Oml.Calc
import WarpMotor.Oml.CalcText
import WarpMotor.Lib.AsciiScan
import WarpMotor.Oml.SqlScan
import WarpMotor.Actor.Orphans
import WarpMotor.Sink.SuccessRate
import WarpMotor.Lib.Scoped
import WarpMotor.Oml.Scopes
import WarpMotor.Sink.Breaker
import WarpMotor.Sink.Replicas
import WarpMotor.Parse.Attribution
import WarpMotor.Parse.HitCounts
import WarpMotor.Parse.Batch
import WarpMotor.Actor.RateLimiter
import WarpMotor.Cond.Tokens
import WarpMotor.Cond.Display
import WarpMotor.Generator.SpeedLimiter
import WarpMotor.Sink.SendQueue
import WarpMotor.Lib.Batching
import WarpMotor.Generator.Batches
import WarpMotor.Lib.Parties
import WarpMotor.Generator.Quota
import WarpMotor.Generator.RuleRuns
import WarpMotor.Lib.LruRecency
import WarpMotor.Oml.QueryCache
import WarpMotor.Syslog.UdpSource
import WarpMotor.Parse.Sender
