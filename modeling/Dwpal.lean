import Dwpal.Lib.Machine
import Dwpal.Serializer.Model
import Dwpal.Serializer.Ownership
import Dwpal.Serializer.Steps
import Dwpal.Serializer.Lifetime
import Dwpal.Serializer.Payload
import Dwpal.Lib.Bytes
import Dwpal.Lib.Frames
import Dwpal.Ipc.Msg
import Dwpal.Ipc.EmulateEvent
import Dwpal.Ipc.Header
import Dwpal.Ipc.Exchange
import Dwpal.Lib.Registry
import Dwpal.Daemon.HostapIface
import Dwpal.Daemon.IfaceManager
import Dwpal.Daemon.NlIface
import Dwpal.Daemon.DwpalDaemon
import Dwpal.Client.HostapEvents
import Dwpal.Client.Registration
import Dwpal.Daemon.HostapRegistration
import Dwpal.Client.RoundTrip
import Dwpal.Client.HostapAttach
import Dwpal.Client.NonInterference
import Dwpal.Client.EventService
import Dwpal.Client.AttachComplete
import Dwpal.Serializer.Wakeup
import Dwpal.Daemon.Events
import Dwpal.Client.EventCodec
import Dwpal.Client.EventDelivery
import Dwpal.Client.DriverRequests
import Dwpal.Client.Reconnect
import Dwpal.Client.Nl80211Id
import Dwpal.Ipc.Stream
import Dwpal.Ipc.ServerCmd
import Dwpal.Client.Locks
import Dwpal.Client.ListenerWait
import Dwpal.Client.Notifications
import Dwpal.Daemon.BackPressure
import Dwpal.Daemon.FinalReply
import Dwpal.Serializer.Dispatch
import Dwpal.Daemon.IfaceLifetime
import Dwpal.Ipc.Output
import Dwpal.Ipc.PendingAccounts
import Dwpal.Ipc.OutputOrder
import Dwpal.Ipc.ServerObjects
import Dwpal.Daemon.Mentions
import Dwpal.Daemon.StationRefs
import Dwpal.Daemon.Refusals
import Dwpal.Client.FailedAttach
import Dwpal.Client.AttachLifetime
import Dwpal.Daemon.EventRegistry
import Dwpal.Daemon.RegisteredClients
import Dwpal.Ext.Services
import Dwpal.Ext.SlotTable
import Dwpal.Ext.NlCmdSend
import Dwpal.Ipc.HeaderStack
import Dwpal.Client.ScanTrigger
import Dwpal.Lib.CText
import Dwpal.Parse.ArrayFields
import Dwpal.Parse.ParsersAgree
import Dwpal.Lib.CNumberText
import Dwpal.Parse.CmdBuild
import Dwpal.Parse.NamedRow
import Dwpal.Parse.ParamRoundTrip
import Dwpal.Daemon.RegisterBounds
import Dwpal.Ipc.HeaderBounds
import Dwpal.Ipc.ObjPool
import Dwpal.Ipc.PoolHistory
import Dwpal.Ipc.PayloadBytes
import Dwpal.Serializer.DelayedTime
import Dwpal.Serializer.StopAll
import Dwpal.Lib.Stores
import Dwpal.Parse.ArrayStores
import Dwpal.Parse.RowSettings
import Dwpal.Parse.RowsAlone
import Dwpal.Parse.ValueBuffer
import Dwpal.Client.HostapCmd
import Dwpal.Client.NlTransport
import Dwpal.Client.CmdStatus
import Dwpal.Parse.HexCodec
import Dwpal.Client.ScanHex
import Dwpal.Ext.EventGet
import Dwpal.Parse.CmdOutput
import Dwpal.Ipc.LinkedList
import Dwpal.Ipc.PoolReports
import Dwpal.Lib.Reads
import Dwpal.Stats.InfoElements
import Dwpal.Lib.Greatest
import Dwpal.Stats.ElementList
import Dwpal.Stats.MaxRate
import Dwpal.Ipc.ClientCmd
import Dwpal.Ipc.ClientObjects
import Dwpal.Ipc.ParkedEvents
import Dwpal.Ipc.ReplyAttribution
import Dwpal.Ipc.WholeReplies
import Dwpal.Ext.Connection
import Dwpal.Ext.ConnectionUse
import Dwpal.Ext.ConnectionLife
import Dwpal.Ext.InterfaceLives
import Dwpal.Lib.Layout
import Dwpal.Stats.CsiMatrix
import Dwpal.Ext.NlGet
import Dwpal.Ext.GetAnswers
