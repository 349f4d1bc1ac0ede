import OpenBroadcast.Framework.Collections
import OpenBroadcast.Framework.ParentChain
import OpenBroadcast.Framework.Run
import OpenBroadcast.Framework.DoubleLink
import OpenBroadcast.Framework.FloatOrder
import OpenBroadcast.Framework.RwLock
import OpenBroadcast.Framework.ListRelations
import OpenBroadcast.Framework.Boxes
import OpenBroadcast.Framework.Codec
import OpenBroadcast.Framework.Utf8
import OpenBroadcast.Overlay.Tree
import OpenBroadcast.Overlay.TreeAttach
import OpenBroadcast.Overlay.TreeAcyclic
import OpenBroadcast.Overlay.TreeLinks
import OpenBroadcast.Overlay.TreeSource
import OpenBroadcast.Overlay.Mesh
import OpenBroadcast.Overlay.MeshAdjacency
import OpenBroadcast.Overlay.TopologyLocks
import OpenBroadcast.Relay.Stream
import OpenBroadcast.Relay.Node
import OpenBroadcast.Relay.HopRemoval
import OpenBroadcast.Relay.Locks
import OpenBroadcast.Signaling.Locks
import OpenBroadcast.Signaling.Message
import OpenBroadcast.Signaling.Server
import OpenBroadcast.Signaling.Client
import OpenBroadcast.Signaling.Routing
import OpenBroadcast.Signaling.Network
import OpenBroadcast.Signaling.Registry
import OpenBroadcast.Signaling.Membership
import OpenBroadcast.Signaling.Capacity
import OpenBroadcast.Signaling.IdleRooms
import OpenBroadcast.Signaling.Moderation
import OpenBroadcast.Media.Mp4Box
import OpenBroadcast.Media.Fragments
import OpenBroadcast.Media.FragmentRewrite
import OpenBroadcast.Media.FragmentReader
import OpenBroadcast.Media.SampleAddressing
import OpenBroadcast.Media.MovieFragment
import OpenBroadcast.Media.Fmp4Converter
import OpenBroadcast.Media.Fmp4RoundTrip
import OpenBroadcast.Media.Fmp4Timeline
import OpenBroadcast.Media.SampleTable
import OpenBroadcast.Media.RegularMp4
import OpenBroadcast.Media.SampleGroups
import OpenBroadcast.Media.GroupEmission
import OpenBroadcast.Media.AudioSegments
import OpenBroadcast.Media.GopSegments
import OpenBroadcast.Media.Segment
import OpenBroadcast.Media.WireFormat
import OpenBroadcast.Delivery.Bridge
import OpenBroadcast.Delivery.Gossip
import OpenBroadcast.Delivery.Integrity
import OpenBroadcast.Media.MoovParser
import OpenBroadcast.Media.Parser
import OpenBroadcast.Media.SkippedGroups
import OpenBroadcast.Media.StreamTimeline
import OpenBroadcast.Media.FragmentNumbers
import OpenBroadcast.Media.ParserReuse
import OpenBroadcast.Media.TrackKinds
import OpenBroadcast.Media.Ac3Filter
import OpenBroadcast.Media.FlagSearch
import OpenBroadcast.Media.FragmentTimeline
import OpenBroadcast.Delivery.Classification
import OpenBroadcast.Discovery.StreamDiscovery
import OpenBroadcast.Discovery.AnnouncementCache
import OpenBroadcast.Discovery.Removal
import OpenBroadcast.Moderation.Manager
import OpenBroadcast.Moderation.Persistence
import OpenBroadcast.Streaming.StreamManager
import OpenBroadcast.Streaming.Stopping
import OpenBroadcast.Relay.Lifecycle
import OpenBroadcast.Relay.Liveness
import OpenBroadcast.Discovery.Dht
import OpenBroadcast.Discovery.DhtQueries
import OpenBroadcast.Delivery.WebServer
import OpenBroadcast.Delivery.Consumers
import OpenBroadcast.Delivery.Viewers
import OpenBroadcast.Delivery.RelaySockets
import OpenBroadcast.Framework.LastSeen
import OpenBroadcast.PubSub.Validation
import OpenBroadcast.PubSub.Replay
import OpenBroadcast.PubSub.Composite
import OpenBroadcast.Media.Publisher
import OpenBroadcast.PubSub.PublishedStream
import OpenBroadcast.Overlay.TopologyManager
import OpenBroadcast.Overlay.TreeBounds
import OpenBroadcast.Framework.CachedDepth
import OpenBroadcast.Overlay.TreeDepth
import OpenBroadcast.Framework.InsertionOrder
import OpenBroadcast.Browser.StreamClient
import OpenBroadcast.Browser.DataChannel
import OpenBroadcast.Browser.LateJoiner
import OpenBroadcast.Browser.RelayOnce
import OpenBroadcast.Browser.StreamMesh
import OpenBroadcast.Browser.RelayTtl
import OpenBroadcast.Signaling.Session
import OpenBroadcast.Framework.RunTables
import OpenBroadcast.Media.SampleExpansion
import OpenBroadcast.Framework.FoldErrors
import OpenBroadcast.Media.IndexedReads
import OpenBroadcast.Media.ChildBoxes
import OpenBroadcast.Media.ParserTotality
import OpenBroadcast.Media.Allocations
import OpenBroadcast.Media.SeparateInit
import OpenBroadcast.Media.TrackHeaders
import OpenBroadcast.Media.CodecString
import OpenBroadcast.Media.TrackHandlers
import OpenBroadcast.Media.IndexedWalks
import OpenBroadcast.Media.HandlerBounds
import OpenBroadcast.Media.FlagRewrite
import OpenBroadcast.Media.InitTracks
import OpenBroadcast.Media.TfhdSearch
import OpenBroadcast.Media.SegmentMemory
import OpenBroadcast.Media.SegmentTotality
import OpenBroadcast.Delivery.StreamMessages
import OpenBroadcast.Browser.StreamProtocol
import OpenBroadcast.Relay.Caches
import OpenBroadcast.Relay.Statistics
import OpenBroadcast.Overlay.MeshRebalance
import OpenBroadcast.Overlay.TreeFrame
import OpenBroadcast.Overlay.TreeOrphans
import OpenBroadcast.Overlay.TopologyRemoval
import OpenBroadcast.Media.BoxRoundTrip
import OpenBroadcast.Media.FragmentWriter
import OpenBroadcast.Discovery.Expiry
import OpenBroadcast.Relay.StatsReporter
import OpenBroadcast.Browser.Viewer
import OpenBroadcast.Browser.ViewerQueue
import OpenBroadcast.Framework.Windows
import OpenBroadcast.Framework.MapSizes
import OpenBroadcast.Framework.Overflow
import OpenBroadcast.Delivery.RateLimiter
import OpenBroadcast.Delivery.RateCleanup
import OpenBroadcast.Delivery.ConnectionSlots
import OpenBroadcast.Moderation.Import
import OpenBroadcast.PubSub.DataTopics
import OpenBroadcast.Browser.ChannelSessions
import OpenBroadcast.Discovery.PeerAddresses
import OpenBroadcast.Media.MediaBuffer
import OpenBroadcast.Media.MediaStream
import OpenBroadcast.Framework.FixedWidth
import OpenBroadcast.Media.TableBoxes
import OpenBroadcast.Framework.RotatingBuckets
import OpenBroadcast.PubSub.RateWindow
import OpenBroadcast.Browser.ChunkReassembly
import OpenBroadcast.Framework.Fifo
import OpenBroadcast.Framework.MapTotals
import OpenBroadcast.Framework.LruCache
import OpenBroadcast.Framework.Since
import OpenBroadcast.Delivery.EndToEnd
import OpenBroadcast.Relay.Forwarding
import OpenBroadcast.Overlay.MeshNetwork
import OpenBroadcast.Overlay.PeerTable
import OpenBroadcast.Overlay.ConnectionHealth
import OpenBroadcast.PubSub.Metrics
import OpenBroadcast.PubSub.Service
import OpenBroadcast.Discovery.Bootstrap
import OpenBroadcast.Discovery.BootstrapServer
import OpenBroadcast.Moderation.Api
import OpenBroadcast.Media.Quality
import OpenBroadcast.Media.FrameCodec
import OpenBroadcast.Browser.AppendQueue
import OpenBroadcast.Browser.WasmClient
import OpenBroadcast.Media.FragmentParser
