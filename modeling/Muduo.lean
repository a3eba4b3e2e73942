import Muduo.Lib.Machine
import Muduo.Lib.Checked
import Muduo.Lib.Faults
import Muduo.Lib.Window
import Muduo.Lib.Batch
import Muduo.Lib.Text
import Muduo.Lib.Precedes
import Muduo.Lib.OrderedSet
import Muduo.Lib.Search
import Muduo.Lib.Loop
import Muduo.Lib.BigEndian
import Muduo.Net.Buffer
import Muduo.Net.BufferDeque
import Muduo.Net.BufferInt
import Muduo.Net.EventLoop
import Muduo.Net.EventLoopRuns
import Muduo.Net.EventLoopThread
import Muduo.Net.Channel
import Muduo.Net.EPollPoller
import Muduo.Net.PollPoller
import Muduo.Net.Pollers
import Muduo.Net.PollPollerTracks
import Muduo.Net.EPollPollerTracks
import Muduo.Net.PollersAgree
import Muduo.Net.TcpConnection
import Muduo.Net.TcpConnectionSpec
import Muduo.Net.TcpConnectionSteps
import Muduo.Net.TcpConnectionOutput
import Muduo.Net.TcpConnectionFlow
import Muduo.Net.TcpConnectionLife
import Muduo.Net.TcpConnectionCycle
import Muduo.Net.TcpConnectionClosed
import Muduo.Net.TcpConnectionShutdown
import Muduo.Net.InetAddress
import Muduo.Net.TcpServer
import Muduo.Net.TcpServerTurns
import Muduo.Net.TcpServerSteps
import Muduo.Net.TcpServerTally
import Muduo.Net.TcpServerTable
import Muduo.Net.TcpServerTearDown
import Muduo.Net.TimerQueue
import Muduo.Net.TimerQueueOwned
import Muduo.Net.TimerQueueSpec
import Muduo.Net.TimerQueueRuns
import Muduo.Net.TimerQueueAlarm
import Muduo.Net.TimerQueueCancel
import Muduo.Net.TimerQueueOrder
import Muduo.Net.ProtobufCodecLite
import Muduo.Net.ProtobufCodecLiteFormat
import Muduo.Net.ProtobufCodecLiteDecode
import Muduo.Net.ProtobufCodecLiteStream
import Muduo.Net.ProtobufCodecLiteEncode
import Muduo.Net.HttpContext
import Muduo.Net.HttpContextStream
import Muduo.Net.HttpGrammar
import Muduo.Net.HttpRoundTrip
import Muduo.Net.HttpServer
import Muduo.Net.HttpServerSpec
import Muduo.Net.HttpServerRuns
import Muduo.Base.AsyncLogging
import Muduo.Base.AsyncLoggingLedger
import Muduo.Base.AsyncLoggingRuns
import Muduo.Net.Connector
import Muduo.Net.ConnectorSockets
import Muduo.Net.ConnectorCalls
import Muduo.Net.RpcChannel
import Muduo.Net.RpcChannelCalls
import Muduo.Net.RpcChannelRuns
import Muduo.Lib.Monitor
import Muduo.Lib.Reading
import Muduo.Lib.LowerBound
import Muduo.Lib.Calendar
import Muduo.Base.BoundedBlockingQueue
import Muduo.Base.ThreadPool
import Muduo.Base.TimeZone
import Muduo.Base.TimeZoneFile
import Muduo.Base.FileUtil
import Muduo.Base.LogFile
import Muduo.Net.BufferReadFd
import Muduo.Net.EPollCtl
import Muduo.Net.PollPollerCalls
import Muduo.Net.TimerQueueExpired
import Muduo.Net.TimerQueueCancelFrame
import Muduo.Net.TcpConnectionPending
import Muduo.Net.TcpConnectionHalfClose
import Muduo.Lib.Signed
import Muduo.Lib.Gregorian
import Muduo.Base.AsyncLoggingBuffers
import Muduo.Base.Date
import Muduo.Base.TimeZoneUtc
import Muduo.Base.TimeZoneLocal
import Muduo.Base.LogStream
import Muduo.Base.LogStreamRuns
import Muduo.Base.FixedBuffer
import Muduo.Net.BufferIntRuns
import Muduo.Net.BufferShrink
import Muduo.Net.BufferRoom
import Muduo.Net.HttpServerEnds
import Muduo.Net.RpcChannelPeer
import Muduo.Base.LogFileSize
import Muduo.Base.LogStreamConvert
import Muduo.Base.FormatSI
import Muduo.Net.Inspector
import Muduo.Net.ZlibStream
import Muduo.Net.ZlibStreamRuns
import Muduo.Base.Logging
import Muduo.Base.LoggingTime
import Muduo.Base.LoggingLines
import Muduo.Base.AsyncLoggingOutput
import Muduo.Net.RpcStreamRuns
import Muduo.Net.TcpClientStop
import Muduo.Net.AcceptorRuns
import Muduo.Net.TcpServerSpread
