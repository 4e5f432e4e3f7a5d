import CWebUI.Basic.Bytes
import CWebUI.Basic.CString
import CWebUI.Basic.Decimal
import CWebUI.Basic.Lists
import CWebUI.Basic.Checked
import CWebUI.Basic.StringBuffer
import CWebUI.Basic.Snprintf
import CWebUI.Basic.Checksums
import CWebUI.Basic.Machine
import CWebUI.Http.Header
import CWebUI.Http.FormData
import CWebUI.Http.PartHeader
import CWebUI.Post.Stream
import CWebUI.Post.Steps
import CWebUI.Post.ScanLaw
import CWebUI.Post.Disposition
import CWebUI.Post.Protocol
import CWebUI.Post.Uploads
import CWebUI.Post.Limits
import CWebUI.Post.ParsePostData
import CWebUI.Post.Agreement
import CWebUI.Post.Multipart
import CWebUI.Post.FieldValues
import CWebUI.Post.RoundTrip
import CWebUI.Proxy.ChunkedScan
import CWebUI.Proxy.Registration
import CWebUI.Http.HeaderLine
import CWebUI.Http.ParseHeader
import CWebUI.Http.LineLaw
import CWebUI.Http.HeaderLoop
import CWebUI.Http.KeepAlive
import CWebUI.Http.UrlSanity
import CWebUI.Http.SubstringSearch
import CWebUI.Http.PartHeaderBounds
import CWebUI.Http.UrlDecode
import CWebUI.Http.Pieces
import CWebUI.Http.QueryInPlace
import CWebUI.Http.CookiesInPlace
import CWebUI.Http.PostBody
import CWebUI.Http.RequestStream
import CWebUI.Http.PostBudget
import CWebUI.Post.Counting
import CWebUI.Proxy.HeaderFields
import CWebUI.Basic.Blocks
import CWebUI.Basic.Circular
import CWebUI.Proxy.Injection
import CWebUI.Proxy.HeaderBuffer
import CWebUI.Proxy.Connection
import CWebUI.Proxy.Wire
import CWebUI.Proxy.Tunnel
import CWebUI.Proxy.Response
import CWebUI.Proxy.Request
import CWebUI.Proxy.Runs
import CWebUI.Proxy.ContentLengths
import CWebUI.Proxy.FramingFields
import CWebUI.Basic.DoublyLinked
import CWebUI.Containers.LinkedList
import CWebUI.Containers.ListRefinement
import CWebUI.Basic.Threads
import CWebUI.Containers.MessageQueue
import CWebUI.Basic.Buckets
import CWebUI.Containers.Hashmap
import CWebUI.Containers.HashmapRefinement
import CWebUI.Websocket.Utf8
import CWebUI.Websocket.RecFrame
import CWebUI.Websocket.Fragments
import CWebUI.Websocket.Decoder
import CWebUI.Websocket.Segmentation
import CWebUI.Websocket.Callbacks
import CWebUI.Websocket.Streaming
import CWebUI.Websocket.Output
import CWebUI.Websocket.Api
import CWebUI.Websocket.SendFrame
import CWebUI.Sockets.SocketInfo
import CWebUI.Sockets.Container
import CWebUI.Basic.SinglyLinked
import CWebUI.Sockets.Groups
import CWebUI.Sockets.GroupRuns
import CWebUI.Sockets.Admission
import CWebUI.Sockets.GlobalVictim
import CWebUI.Sockets.TotalLimit
import CWebUI.Sockets.Output
import CWebUI.Sockets.SelectEvents
import CWebUI.Sockets.Epoll
import CWebUI.Sockets.EventBatch
import CWebUI.Sockets.Timeouts
import CWebUI.Sockets.Sweep
import CWebUI.Sockets.SweepRuns
import CWebUI.Sockets.TimeoutSweep
import CWebUI.Sockets.LoopClock
import CWebUI.Http.ChunkLists
import CWebUI.Http.OutputBuffer
import CWebUI.Http.SecurityPolicy
import CWebUI.Http.ResponseHeader
import CWebUI.Http.ResponseFraming
import CWebUI.Http.RequestDispatch
import CWebUI.Http.AnswerOutput
import CWebUI.Sockets.PingTracking
import CWebUI.Session.Store
import CWebUI.Session.Fixation
import CWebUI.Session.Variables
import CWebUI.Session.Integrity
import CWebUI.Session.Login
import CWebUI.Session.ArrayVariables
import CWebUI.Basic.LittleEndian
import CWebUI.Files.PackDir
import CWebUI.Files.BinaryFiles
import CWebUI.Files.PackRoundTrip
import CWebUI.Files.LocalPaths
import CWebUI.Files.Etag
import CWebUI.Basic.BigEndian
import CWebUI.Basic.Base64
import CWebUI.Basic.BlockStream
import CWebUI.Crypto.Sha1Standard
import CWebUI.Crypto.Sha1Transform
import CWebUI.Crypto.Sha1
import CWebUI.Crypto.Base64Encode
import CWebUI.Websocket.Handshake
import CWebUI.Sockets.HttpConnection
import CWebUI.Basic.Traced
import CWebUI.Template.Tags
import CWebUI.Template.Functions
import CWebUI.Template.Engine
import CWebUI.Template.Chains
import CWebUI.Template.Steering
import CWebUI.Template.Slices
import CWebUI.Template.Recursion
import CWebUI.Template.VariableHost
import CWebUI.Template.Trees
import CWebUI.Template.Rendering
import CWebUI.Template.PageMeaning
import CWebUI.Template.RunRules
import CWebUI.Template.ArrayIteration
import CWebUI.Template.LoopVisits
import CWebUI.Template.IfNesting
import CWebUI.Template.LoopNesting
import CWebUI.Template.ParameterArray
import CWebUI.Session.PathBytes
import CWebUI.Session.PathIndices
import CWebUI.Session.RequestMemory
