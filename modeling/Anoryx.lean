import Anoryx.Delta.BudgetBucket
import Anoryx.Delta.KillSwitchAuthority
import Anoryx.Delta.UsageIngest
import Anoryx.Delta.AuditChain
import Anoryx.Delta.TaskGraph
import Anoryx.Delta.MicroTransactions
import Anoryx.Delta.BankImportRuns
import Anoryx.Delta.AllocationDecisions
import Anoryx.Delta.InvoicingRuns
import Anoryx.Delta.Capacity
import Anoryx.Delta.CostQuantization
import Anoryx.Sentinel.DecisionLaws
import Anoryx.Sentinel.ModelDecisions
import Anoryx.Sentinel.ChatSlots
import Anoryx.Sentinel.TerminalAudit
import Anoryx.Sentinel.AuditChain
import Anoryx.Sentinel.BulkSlots
import Anoryx.Sentinel.VirtualKeyRuns
import Anoryx.Orchestrator.SharedStateRuns
import Anoryx.Orchestrator.MailboxRuns
import Anoryx.Orchestrator.AutomationRuns
import Anoryx.Orchestrator.ExternalGateway
import Anoryx.Rendly.MessageRuns
import Anoryx.Rendly.HuddleRuns
import Anoryx.Rendly.RefreshStores
import Anoryx.Rendly.FrameCatalog
import Anoryx.KillEnforcement
import Anoryx.DeliveryOrder
import Anoryx.Delta.Forecast
import Anoryx.Delta.ErpAssets
import Anoryx.Orchestrator.MessagingBodies
import Anoryx.WebhookSignature
import Anoryx.Orchestrator.EndpointValidation
import Anoryx.Sentinel.CustomPii
import Anoryx.Sentinel.SpanMasking
import Anoryx.Rendly.DiscoveryFeed
import Anoryx.Rendly.WorkspaceAnalytics
import Anoryx.Delta.SubscriptionAnomalies
import Anoryx.Sentinel.CompliancePack
import Anoryx.Sentinel.SecretInbound
import Anoryx.Sentinel.CodeBlocks
import Anoryx.Sentinel.OperatorTokens
import Anoryx.Sentinel.ZkClient
import Anoryx.Sentinel.ProviderStreams
import Anoryx.Sentinel.ShadowAi
import Anoryx.Sentinel.Luhn
import Anoryx.Delta.WeightSplit
import Anoryx.Rendly.Summary
import Anoryx.Orchestrator.QueryRouter
import Anoryx.Sentinel.TokenVault
