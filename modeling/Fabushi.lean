import Fabushi.CommerceControl.ProductReferences
import Fabushi.CommerceControl.Settlement
import Fabushi.Gateway.ReplayRuns
import Fabushi.Gateway.ServerRequestRuns
import Fabushi.Gateway.StateFileRuns
import Fabushi.Gateway.StateLock
import Fabushi.Gateway.TurnRuns
import Fabushi.GlobalDharma.Nodes
import Fabushi.Kernel.CircuitBreakerRuns
import Fabushi.Kernel.SupervisorHistory
import Fabushi.Messaging.AccessRuns
import Fabushi.Messaging.BlobStore
import Fabushi.Messaging.EngineRegisters
import Fabushi.Messaging.Forwarding
import Fabushi.Messaging.MediaCache
import Fabushi.Messaging.MembershipAgreement
import Fabushi.Messaging.MessageAccess
import Fabushi.Messaging.MessageOrigins
import Fabushi.Messaging.PollTallies
import Fabushi.Messaging.ReadCursors
import Fabushi.Messaging.Recovery
import Fabushi.Messaging.Resends
import Fabushi.Messaging.SecretDomains
import Fabushi.Messaging.SettlementRuns
import Fabushi.Messaging.SignalingRuns
import Fabushi.Messaging.StoryRuns
import Fabushi.Messaging.WalletAtomicity
import Fabushi.Orchestrator.PromptQueue
import Fabushi.Orchestrator.WorkflowRuns
import Fabushi.Pay.Idempotency
import Fabushi.PlatformCore.CanonicalJson
import Fabushi.Plugins.Unpack
import Fabushi.Secrets.SharedStore
import Fabushi.Secrets.Store
import Fabushi.Telegram.AuthAgreement
import Fabushi.Telegram.EncryptedStreams
import Fabushi.Telegram.FactoringSound
import Fabushi.Telegram.HandshakeRuns
import Fabushi.Telegram.ReplayWindow
import Fabushi.Telegram.SchemaIds
import Fabushi.TelegramCore.RemoteHistory
import Fabushi.TelegramMedia.TransferRuns
import Fabushi.TelegramNetwork.ScanRuns
import Fabushi.TelegramRuntime.Persistence
import Fabushi.TelegramRuntime.TransportRuns
import Fabushi.TelegramStorage.MessageIndex
import Fabushi.Worker.AutomationEmissions
import Fabushi.Worker.AutomationTimes
import Fabushi.Worker.CaptureOnce
import Fabushi.Worker.PayoutRuns
import Fabushi.Worker.PurchaseRuns
import Fabushi.Worker.RefundRuns
import Fabushi.Worker.UsageRuns
import Fabushi.WorkspaceEngine.RoundTrip
