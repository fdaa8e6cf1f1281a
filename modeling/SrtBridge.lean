import SrtBridge.Members.Grace
import SrtBridge.Members.Linger
import SrtBridge.Members.Waiting
import SrtBridge.Members.Mirror
import SrtBridge.Members.Repairs
import SrtBridge.Members.PeerCount
import SrtBridge.Bridge.Agreement
import SrtBridge.Bridge.Statuses
import SrtBridge.Bridge.Listeners
import SrtBridge.Bridge.Groups
import SrtBridge.Bridge.Connects
import SrtBridge.Bridge.Sends
import SrtBridge.Bridge.Receives
import SrtBridge.Bridge.Channels
import SrtBridge.Handles.Handoff
import SrtBridge.Bridge.Accounts
import SrtBridge.Bridge.Encryption
import SrtBridge.Bridge.Errors
import SrtBridge.Bridge.Offers
import SrtBridge.Bridge.Settings
import SrtBridge.Protocol.StreamId
import SrtBridge.Protocol.Fec
import SrtBridge.Libsrt.Sockaddr
import SrtBridge.Protocol.KeyMaterial
import SrtBridge.Bridge.Epoll
import SrtBridge.Handles.Dropped
import SrtBridge.Bridge.Polling
import SrtBridge.Bridge.Replies
import SrtBridge.Handles.Waits
import SrtBridge.Bridge.Wire
import SrtBridge.Members.Recovery
import SrtBridge.Bridge.Bonds
import SrtBridge.Bridge.StreamIds
import SrtBridge.Handles.States
import SrtBridge.Bridge.Latency
import SrtBridge.Bridge.Timers
import SrtBridge.Handles.Asked
import SrtBridge.Members.Prompt
import SrtBridge.Handles.Order
import SrtBridge.Bridge.Granted
import SrtBridge.Handles.Promised
