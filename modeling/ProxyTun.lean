import ProxyTun.Library.Transition
import ProxyTun.Library.Resumption
import ProxyTun.Library.ChainedTable
import ProxyTun.Library.Segments
import ProxyTun.Library.Rows
import ProxyTun.Library.Mirror
import ProxyTun.Library.DeferredMatch
import ProxyTun.Library.Simulation
import ProxyTun.Library.RingBuffer
import ProxyTun.Library.Conversation
import ProxyTun.Library.Counter
import ProxyTun.Library.Handles
import ProxyTun.Library.Lines
import ProxyTun.Library.Glob
import ProxyTun.Library.QuotedText
import ProxyTun.Library.Buffer
import ProxyTun.Library.CheckedReads
import ProxyTun.Library.RecentEntries
import ProxyTun.Library.NodeHeap
import ProxyTun.Library.LinkedTable
import ProxyTun.Library.PackedMessages
import ProxyTun.Library.AnswerCache
import ProxyTun.Library.Threads
import ProxyTun.Library.Datagrams
import ProxyTun.Library.Replica
import ProxyTun.Core.Types
import ProxyTun.Core.CString
import ProxyTun.Core.Numerals
import ProxyTun.Core.Scanning
import ProxyTun.Core.FormattedScan
import ProxyTun.Core.Rules
import ProxyTun.Core.Filters
import ProxyTun.Core.ProcessGlobs
import ProxyTun.Core.RuleEvaluation
import ProxyTun.Connections.Table
import ProxyTun.Connections.Cleanup
import ProxyTun.Connections.EvictionAge
import ProxyTun.Connections.Buckets
import ProxyTun.Connections.MapRefinement
import ProxyTun.Packets.Operations
import ProxyTun.Packets.Engine
import ProxyTun.Packets.LoggedConnections
import ProxyTun.Packets.ProcessRule
import ProxyTun.Windows.PacketProcessor
import ProxyTun.Windows.Handover
import ProxyTun.Windows.UdpRelay
import ProxyTun.Windows.LocalProxyServer
import ProxyTun.Windows.TrackedShortcut
import ProxyTun.Windows.ConnectionEvents
import ProxyTun.Windows.CleanupCursor
import ProxyTun.Windows.CleanupSections
import ProxyTun.Windows.FreshFlows
import ProxyTun.Windows.TcpRedirection
import ProxyTun.Windows.UdpDirection
import ProxyTun.Windows.Flows
import ProxyTun.Windows.SourceRestoration
import ProxyTun.Windows.IdleConnections
import ProxyTun.Windows.PidCache
import ProxyTun.Windows.OwnerLookups
import ProxyTun.Tunnel.Transfer
import ProxyTun.Windows.HalfClose
import ProxyTun.Rules.RuleStore
import ProxyTun.Windows.MoveRule
import ProxyTun.Windows.RuleStoreRuns
import ProxyTun.Windows.RelayLifetime
import ProxyTun.Windows.StartStop
import ProxyTun.Linux.PacketCallback
import ProxyTun.Windows.EditFailures
import ProxyTun.Linux.RuleBypass
import ProxyTun.Linux.TransferHandler
import ProxyTun.Linux.SpliceRelay
import ProxyTun.Linux.FallbackAgreement
import ProxyTun.Linux.Iptables
import ProxyTun.Linux.SharedIptables
import ProxyTun.Linux.SocketDiag
import ProxyTun.Linux.UdpTables
import ProxyTun.Linux.ProcessOwner
import ProxyTun.Linux.OwnerLookups
import ProxyTun.Relays.Replies
import ProxyTun.Relays.Association
import ProxyTun.Windows.ReconnectPacing
import ProxyTun.Linux.StartStop
import ProxyTun.Tunnel.HalfClose
import ProxyTun.Tunnel.Handshake
import ProxyTun.Tunnel.HttpConnect
import ProxyTun.Tunnel.StatusLine
import ProxyTun.Tunnel.Socks5Connect
import ProxyTun.Tunnel.Socks5Dialogue
import ProxyTun.Tunnel.Socks5Requests
import ProxyTun.Tunnel.Socks5Datagrams
import ProxyTun.Tunnel.ProxyHost
import ProxyTun.Tunnel.ProxyConfig
import ProxyTun.Tunnel.SendAll
import ProxyTun.Tunnel.ConnectionTest
import ProxyTun.Linux.AssociateBuffer
import ProxyTun.Relays.RelayAddress
import ProxyTun.Relays.Encapsulation
import ProxyTun.MacOS.Relay
import ProxyTun.MacOS.Characters
import ProxyTun.MacOS.ProxyHandshake
import ProxyTun.MacOS.TunnelTransparency
import ProxyTun.MacOS.StatusSearch
import ProxyTun.MacOS.Socks5Requests
import ProxyTun.MacOS.UdpParsers
import ProxyTun.MacOS.Ipv6Texts
import ProxyTun.MacOS.UdpEncapsulation
import ProxyTun.MacOS.UdpHandshake
import ProxyTun.MacOS.StoredRules
import ProxyTun.MacOS.RuleMatching
import ProxyTun.MacOS.RuleDecision
import ProxyTun.MacOS.ProcessGlobs
import ProxyTun.MacOS.HostnameRules
import ProxyTun.MacOS.LogQueue
import ProxyTun.MacOS.ProcessNames
import ProxyTun.MacOS.FlowHandling
import ProxyTun.MacOS.UdpFlow
import ProxyTun.MacOS.RuleMessages
import ProxyTun.MacOS.RuleEditor
import ProxyTun.MacOS.LiveRules
import ProxyTun.MacOS.ProxySettings
import ProxyTun.WindowsGui.ProxyRules
import ProxyTun.WindowsGui.RuleIds
import ProxyTun.WindowsGui.RuleOrder
import ProxyTun.WindowsGui.EnabledFlags
import ProxyTun.WindowsGui.RuleDialog
import ProxyTun.WindowsGui.StoredTexts
import ProxyTun.WindowsGui.UnchangedEdit
import ProxyTun.WindowsGui.SaveTasks
import ProxyTun.WindowsGui.LoadConfiguration
import ProxyTun.WindowsGui.ConfigFiles
import ProxyTun.WindowsGui.DragRule
import ProxyTun.WindowsGui.SavedRules
import ProxyTun.WindowsGui.CommandLine
import ProxyTun.CommandLine.RuleStrings
import ProxyTun.CommandLine.ProxyUrls
import ProxyTun.Rules.Editing
import ProxyTun.Rules.ActiveFlag
import ProxyTun.Rules.SimpleFields
import ProxyTun.Rules.Importing
import ProxyTun.Rules.HostTokens
import ProxyTun.Tunnel.Base64
import ProxyTun.Tunnel.ConnectRequest
import ProxyTun.Rules.HostPieces
import ProxyTun.Rules.HostSeparators
import ProxyTun.Rules.ProcessLists
import ProxyTun.Windows.HostPatterns
import ProxyTun.Windows.PortLists
import ProxyTun.Windows.BlankTokens
import ProxyTun.Windows.QuotedEntries
import ProxyTun.Linux.TokenLists
import ProxyTun.Linux.HostRanges
import ProxyTun.Linux.ProcessGlobs
import ProxyTun.LinuxGui.RuleList
import ProxyTun.LinuxGui.SavedRules
import ProxyTun.LinuxGui.EngineMirror
import ProxyTun.LinuxGui.Configuration
import ProxyTun.LinuxGui.RuleFiles
import ProxyTun.Library.Contracts
import ProxyTun.Tunnel.ConnectionHandler
import ProxyTun.Tunnel.Openings
import ProxyTun.Tunnel.HandshakeContracts
import ProxyTun.Tunnel.RelayedStreams
import ProxyTun.Tunnel.OpenedTunnels
