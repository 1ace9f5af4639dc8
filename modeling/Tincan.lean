import Tincan.Library.Runs
import Tincan.Library.PartialMap
import Tincan.Library.Tokens
import Tincan.Library.SignalledQueue
import Tincan.Library.SendBuffer
import Tincan.Library.Numerals
import Tincan.Library.Countdown
import Tincan.Library.AtomicObject
import Tincan.Library.Monitor
import Tincan.Library.Unwinding
import Tincan.Library.History
import Tincan.Utils
import Tincan.Libjingle
import Tincan.ConnectionManager
import Tincan.Registration
import Tincan.PacketPath
import Tincan.WorkQueue
import Tincan.LinkThreads
import Tincan.Routes
import Tincan.SendPath
import Tincan.FastLookup
import Tincan.HexIds
import Tincan.TruncatedIds
import Tincan.Roles
import Tincan.CandidateExchange
import Tincan.CandidateParser
import Tincan.InterfaceNames
import Tincan.Xmpp
import Tincan.XmppNetwork
import Tincan.XmppSocket
import Tincan.Json
import Tincan.StateReport
import Tincan.ControllerAccess
import Tincan.ForwardedFrames
import Tincan.DatagramBounds
import Tincan.Process
import Tincan.TapQueue
import Tincan.Reconnection
import Tincan.TimerChain
import Tincan.LinkChanges
import Tincan.LinkSecurity
import Tincan.Attribution
import Tincan.UnknownTransports
import Tincan.RepeatedRequests
import Tincan.WriteOnce
import Tincan.Services
import Tincan.Signalling
import Tincan.PeerStanzas
import Tincan.StateQueries
import Tincan.BadDatagrams
import Tincan.LinkHeap
import Tincan.LinkAtomicity
import Tincan.LinkStatus
import Tincan.Requests
import Tincan.Isolation
import Tincan.Trimming
import Tincan.LocalNetworks
import Tincan.Endpoints
import Tincan.Emissions
import Tincan.Overlay
import Tincan.TapRegistry
import Tincan.Exchange
import Tincan.FreeNetwork
import Tincan.Survival
