import Minotaur.Base.SegmentRing
import Minotaur.Base.Steps
import Minotaur.Base.Future
import Minotaur.Base.Relational
import Minotaur.Base.Net
import Minotaur.Base.Utf8
import Minotaur.Base.Text
import Minotaur.Base.Utf8.Split
import Minotaur.Base.Utf8.Ascii
import Minotaur.Base.Json
import Minotaur.Base.JsonParse
import Minotaur.Base.JsonSchema
import Minotaur.Base.Table
import Minotaur.Base.Ledger
import Minotaur.Base.Channel
import Minotaur.Base.Interruptible
import Minotaur.Base.Disk
import Minotaur.Config
import Minotaur.Config.Accepted
import Minotaur.Config.Checked
import Minotaur.Config.Binds
import Minotaur.Session
import Minotaur.Session.Capture
import Minotaur.Session.Deserialize
import Minotaur.Session.Json
import Minotaur.Protocols.Io
import Minotaur.Protocols.Raw
import Minotaur.Protocols.Secrecy
import Minotaur.Protocols.Ssh
import Minotaur.Protocols.Http
import Minotaur.Protocols.Telnet
import Minotaur.Protocols.Progress
import Minotaur.Protocols.Steady
import Minotaur.Protocols.Ssh.Secrecy
import Minotaur.Protocols.Telnet.Secrecy
import Minotaur.Protocols.Ssh.Events
import Minotaur.Protocols.Ssh.Outcome
import Minotaur.Protocols.Http.Outcome
import Minotaur.Protocols.Telnet.Outcome
import Minotaur.Protocols.Http.Events
import Minotaur.Protocols.Http.Secrecy
import Minotaur.Protocols.Http.Grammar
import Minotaur.Protocols.Telnet.Events
import Minotaur.Connection
import Minotaur.Protocols.Ssh.Banner
import Minotaur.Connection.Record
import Minotaur.Connection.Preview
import Minotaur.Connection.LineSize
import Minotaur.Connection.StringBudget
import Minotaur.Server.Labels
import Minotaur.Connection.Schema
import Minotaur.Connection.Secrecy
import Minotaur.Protocols.Http.Framing
import Minotaur.Protocols.Telnet.Credentials
import Minotaur.Protocols.Telnet.Negotiation
import Minotaur.Protocols.Telnet.Lines
import Minotaur.RateLimit
import Minotaur.Server
import Minotaur.Server.Moves
import Minotaur.Server.Failures
import Minotaur.Server.Shares
import Minotaur.Server.Admission
import Minotaur.Server.Accounts
import Minotaur.Server.QueueBudget
import Minotaur.RateLimit.History
import Minotaur.RateLimit.Interleaving
import Minotaur.RateLimit.Budget
import Minotaur.Base.SlidingWindow
import Minotaur.RateLimit.Optimal
import Minotaur.Logger.Queue
import Minotaur.Logger.Moves
import Minotaur.Logger.Conservation
import Minotaur.Logger.Closing
import Minotaur.Logger.FileSink
import Minotaur.Logger.Retention
import Minotaur.Logger.ReadBack
import Minotaur.Logger.Rotation
import Minotaur.Logger.Lines
import Minotaur.Logger.SizeBound
import Minotaur.Management
import Minotaur.Management.Moves
import Minotaur.Main
import Minotaur.Main.Moves
import Minotaur.Main.Supervision
import Minotaur.Main.Books
import Minotaur.Main.Outcome
import Minotaur.Main.Process
import Minotaur.Main.Failures
import Minotaur.Main.CleanShutdown
import Minotaur.Management.Bounds
import Minotaur.Protocols.Source
import Minotaur.Server.Mapped
import Minotaur.Server.Disguise
import Minotaur.Server.Draining
import Minotaur.Management.Draining
import Minotaur.Logger.Writer
import Minotaur.Logger.Delivery
import Minotaur.Main.Delivery
import Minotaur.Main.ReadBack
import Minotaur.Main.Draining
import Minotaur.Main.Secrecy
import Minotaur.Management.Reply
import Minotaur.Main.Healthcheck
import Minotaur.Main.Readiness
import Minotaur.Base.Script
import Minotaur.Logger.Script
import Minotaur.Logger.Lock
import Minotaur.Logger.Exclusion
import Minotaur.Base.NetParse
import Minotaur.Base.Toml
import Minotaur.Config.Decode
import Minotaur.Config.RoundTrip
