import AwfulChat.PeerClaims
import AwfulChat.Inbound.SessionReset
import AwfulChat.Inbound.RoomHolds
import AwfulChat.Storage.AttachmentWrites
import AwfulChat.Storage.DeliveryStatus
import AwfulChat.Storage.WatermarkReads
import AwfulChat.Relay.MailboxCeiling
import AwfulChat.Relay.MailboxDelivery
import AwfulChat.Storage.RoomGenerations
import AwfulChat.Storage.RoomMerge
import AwfulChat.Storage.AtRestSweep
import AwfulChat.Relay.PairingProbe
import AwfulChat.DmQueue
import AwfulChat.Storage.RowBinding
import AwfulChat.RoomSecurity.FileCrypto
import AwfulChat.RoomSecurity.InvitationPairing
import AwfulChat.RoomSecurity.ChannelDelivery
import AwfulChat.Plugins.CardReplay
import AwfulChat.HeldMessages
import AwfulChat.LogicalClock
import AwfulChat.UnreadCounts
import AwfulChat.OutgoingMessages
import AwfulChat.DmAdmission
import AwfulChat.DmBindings
import AwfulChat.OpenView.ViewRuns
import AwfulChat.Relay.RoomOracle
import AwfulChat.Relay.ReadLoop
import AwfulChat.Relay.PushStoreAccounts
import AwfulChat.Relay.PushWakeUps
import AwfulChat.PlanPush
import AwfulChat.ProfileEcho
import AwfulChat.Relay.TelemetryAccounts
import AwfulChat.NodeLockSeats
import AwfulChat.Search.CorpusCompleteness
import AwfulChat.Sfu.RouterLives
import AwfulChat.Relay.MailboxEviction
import AwfulChat.RoomSecurity.ReplayRuns
import AwfulChat.SignedForm
import AwfulChat.Relay.TurnCredentials
import AwfulChat.Storage.MessagePages
import AwfulChat.Storage.SenderMaxCache
import AwfulChat.FrameAssembler
import AwfulChat.ChatWindow
import AwfulChat.Relay.ReservationGate
import AwfulChat.Relay.PublicAddress
import AwfulChat.RoomSecurity.PortableBase64url
import AwfulChat.DmLobbyBudget
import AwfulChat.DeviceSync
