import Voices.Semantics.Run
import Voices.VoiceServer.Records
import Voices.VoiceServer.Datagrams
import Voices.VoiceServer.PeerList
import Voices.VoiceServer.Addresses
import Voices.VoiceServer.Relay
import Voices.VoiceServer.Nonces
import Voices.VoiceServer.Leave
import Voices.VoiceServer.Hijack
import Voices.VoiceServer.SourceIds
import Voices.VoiceServer.Waits
import Voices.VoiceServer.Assigned
import Voices.VoiceServer.PortReuse
import Voices.VoiceServer.PortPool
import Voices.VoiceServer.FailedAssign
import Voices.VoiceServer.IdleTimer
import Voices.VoiceServer.Sizes
import Voices.Gateway.Membership
import Voices.Gateway.SharedInstance
import Voices.Gateway.Closing
import Voices.Gateway.LateLeave
import Voices.Gateway.View
import Voices.Gateway.KeptSources
import Voices.Gateway.Roster
import Voices.Registry.LateUnassign
import Voices.Gateway.ControlStream
import Voices.Gateway.Conversation
import Voices.Registry.Assignment
import Voices.Registry.HostUrl
import Voices.VoiceInstance.Discovery
import Voices.Client.Play
import Voices.Client.WrapAround
import Voices.Client.Mic
import Voices.Client.UdpRx
import Voices.VoiceServer.StatusOrder
import Voices.Gateway.ClosedPresence
import Voices.Client.Framing
import Voices.VoiceServer.PortNumbers
import Voices.Gateway.MembersHash
import Voices.Registry.Pagination
import Voices.Control.Delivery
import Voices.Call.InOrder
import Voices.Registry.LoadBalance
