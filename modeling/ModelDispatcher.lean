import ModelDispatcher.Accounting
import ModelDispatcher.Agreement
import ModelDispatcher.AnthropicAnswers
import ModelDispatcher.ArgumentsWire
import ModelDispatcher.AttemptTrace
import ModelDispatcher.Backoff
import ModelDispatcher.Byok
import ModelDispatcher.Cancellation
import ModelDispatcher.Charges
import ModelDispatcher.ChunkBoundaries
import ModelDispatcher.ClientTypes
import ModelDispatcher.Delivery
import ModelDispatcher.Durations
import ModelDispatcher.EndToEnd
import ModelDispatcher.ErrorDecoding
import ModelDispatcher.Escapes
import ModelDispatcher.EventBus
import ModelDispatcher.ExternalChat
import ModelDispatcher.FinalMessage
import ModelDispatcher.GeminiRequest
import ModelDispatcher.GeminiUsage
import ModelDispatcher.Guards
import ModelDispatcher.HintSafety
import ModelDispatcher.Identity
import ModelDispatcher.KeyConfinement
import ModelDispatcher.KeyOrder
import ModelDispatcher.KeyPools
import ModelDispatcher.KeySecrecy
import ModelDispatcher.Ledger
import ModelDispatcher.Lib.Binary64
import ModelDispatcher.Lib.CodePoints
import ModelDispatcher.Lib.JsonText
import ModelDispatcher.Lib.Urls
import ModelDispatcher.Mediation
import ModelDispatcher.PayloadCap
import ModelDispatcher.Persistence
import ModelDispatcher.RateCap
import ModelDispatcher.Readiness
import ModelDispatcher.RedactedRuns
import ModelDispatcher.Replay
import ModelDispatcher.RequestWire
import ModelDispatcher.ReserveRace
import ModelDispatcher.ResponseWire
import ModelDispatcher.Retrying
import ModelDispatcher.SameConversation
import ModelDispatcher.Selection
import ModelDispatcher.SignIn
import ModelDispatcher.Signals
import ModelDispatcher.StoreLog
import ModelDispatcher.Streaming
import ModelDispatcher.SystemPrompts
import ModelDispatcher.TenantIsolation
import ModelDispatcher.ToolIds
import ModelDispatcher.Totality
import ModelDispatcher.Transcript
import ModelDispatcher.Triage
import ModelDispatcher.Workload
