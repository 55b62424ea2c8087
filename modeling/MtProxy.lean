import MtProxy.Schemes.Loop
import MtProxy.Schemes.Bytes
import MtProxy.Schemes.Decode
import MtProxy.Schemes.Cbc
import MtProxy.Schemes.Run
import MtProxy.Schemes.Interleave
import MtProxy.Schemes.Task
import MtProxy.Schemes.Calls
import MtProxy.Schemes.Holdings
import MtProxy.Schemes.RwLock
import MtProxy.Schemes.Lru
import MtProxy.Schemes.Rotation
import MtProxy.Schemes.Streak
import MtProxy.Schemes.Words
import MtProxy.Schemes.Backoff
import MtProxy.Schemes.Copy
import MtProxy.Schemes.Channel
import MtProxy.Protocol.Constants
import MtProxy.Error
import MtProxy.Crypto.Ctr
import MtProxy.Crypto.Cbc
import MtProxy.Crypto.CbcLoops
import MtProxy.Crypto.Random
import MtProxy.Stream.Poll
import MtProxy.Stream.CryptoWriter
import MtProxy.Stream.State
import MtProxy.Stream.TlsRecord
import MtProxy.Stream.TlsWriter
import MtProxy.Stream.TlsReader
import MtProxy.Stream.TlsRoundTrip
import MtProxy.Stream.CryptoReader
import MtProxy.Stream.Poisoning
import MtProxy.Stream.Layers
import MtProxy.Stream.Transfer
import MtProxy.Stream.FrameCodec
import MtProxy.Stream.FrameRoundTrip
import MtProxy.Stats.Replay
import MtProxy.Stats.ReplayExact
import MtProxy.Stats.ReplayRuns
import MtProxy.Protocol.Tls
import MtProxy.Protocol.TlsAuth
import MtProxy.Protocol.TlsResponse
import MtProxy.Protocol.ServerHello
import MtProxy.Protocol.ClientHello
import MtProxy.Protocol.HelloLookup
import MtProxy.TlsFront.Emulator
import MtProxy.TlsFront.Fetcher
import MtProxy.TlsFront.Certificate
import MtProxy.TlsFront.HelloParser
import MtProxy.MiddleProxy.Codec
import MtProxy.MiddleProxy.Reader
import MtProxy.MiddleProxy.Segmentation
import MtProxy.MiddleProxy.Handover
import MtProxy.MiddleProxy.CbcChain
import MtProxy.MiddleProxy.Wire
import MtProxy.MiddleProxy.WireDecode
import MtProxy.Proxy.MiddleRelay
import MtProxy.Proxy.ClientFraming
import MtProxy.Proxy.ClientEnd
import MtProxy.Proxy.RelayTasks
import MtProxy.Proxy.RelaySender
import MtProxy.Proxy.RelayTeardown
import MtProxy.Proxy.TgNonce
import MtProxy.Proxy.Handshake
import MtProxy.Proxy.ReplayGuard
import MtProxy.Proxy.ClientHandshake
import MtProxy.Proxy.DirectSession
import MtProxy.MiddleProxy.Registry
import MtProxy.MiddleProxy.Pool
import MtProxy.MiddleProxy.PoolSteps
import MtProxy.MiddleProxy.PoolBinding
import MtProxy.MiddleProxy.SendOnce
import MtProxy.MiddleProxy.PoolAccounting
import MtProxy.MiddleProxy.PoolOrphans
import MtProxy.MiddleProxy.WriterIds
import MtProxy.MiddleProxy.Reinit
import MtProxy.MiddleProxy.ReinitSteps
import MtProxy.MiddleProxy.WritersLock
import MtProxy.MiddleProxy.Generations
import MtProxy.MiddleProxy.Replacement
import MtProxy.MiddleProxy.ZeroDowntime
import MtProxy.Stats.UserStats
import MtProxy.Config.Types
import MtProxy.IpTracker
import MtProxy.Proxy.UserLimits
import MtProxy.Proxy.Refusal
import MtProxy.Network.DnsOverrides
import MtProxy.Network.Stun
import MtProxy.Transport.ProxyProtocol
import MtProxy.Config.HotReload
import MtProxy.Config.Includes
import MtProxy.Main
import MtProxy.MiddleProxy.Refill
import MtProxy.MiddleProxy.PoolConfig
import MtProxy.MiddleProxy.Selection
import MtProxy.MiddleProxy.Routing
import MtProxy.MiddleProxy.Preference
import MtProxy.MiddleProxy.AdaptiveFloor
import MtProxy.MiddleProxy.ConfigUpdater
import MtProxy.MiddleProxy.ReinitScheduler
import MtProxy.MiddleProxy.Health
import MtProxy.MiddleProxy.KeyExchange
import MtProxy.MiddleProxy.NatReflection
import MtProxy.MiddleProxy.Quarantine
import MtProxy.MiddleProxy.WriterCommands
import MtProxy.MiddleProxy.Answers
import MtProxy.MiddleProxy.AnswerAccounts
import MtProxy.MiddleProxy.AnswerWaits
import MtProxy.MiddleProxy.ConfigText
import MtProxy.Proxy.DirectRelay
import MtProxy.Proxy.Masking
import MtProxy.Proxy.ClientDispatch
import MtProxy.Transport.Upstream
import MtProxy.Transport.Socks
