import Teardrop.Accounts.Logout
import Teardrop.Agent.OutputContracts
import Teardrop.Agent.Pairing
import Teardrop.Agent.RunCost
import Teardrop.Agent.Shortlist
import Teardrop.Billing.Conservation
import Teardrop.Billing.DelegationFunds
import Teardrop.Billing.History
import Teardrop.Billing.LivePricing
import Teardrop.Billing.PriceStrings
import Teardrop.Billing.RunEarnings
import Teardrop.Billing.RunReconciliation
import Teardrop.Billing.SpendCaps
import Teardrop.Billing.TokenCost
import Teardrop.Billing.ToolOverrides
import Teardrop.Billing.TopupOnce
import Teardrop.Inbound.Tasks
import Teardrop.Labeling.Anchors
import Teardrop.Labeling.FirstBlock
import Teardrop.Labeling.Leases
import Teardrop.Labeling.Scorecards
import Teardrop.Labeling.Signing
import Teardrop.Marketplace.Breaker
import Teardrop.Marketplace.Catalog
import Teardrop.Marketplace.PaidOnce
import Teardrop.Marketplace.Selection
import Teardrop.Marketplace.Stalls
import Teardrop.Marketplace.Subscriptions
import Teardrop.Mcp.PaidCalls
import Teardrop.Migrations.Stability
import Teardrop.Mpp.Totality
import Teardrop.Onboarding.Recovery
import Teardrop.Scheduling.Chains
import Teardrop.Scheduling.Results
import Teardrop.Scheduling.Slots
import Teardrop.Service.DiscoveryCounters
import Teardrop.Service.RateLimit
import Teardrop.Service.RequestIp
import Teardrop.Service.Retention
import Teardrop.Signup.Blocking
import Teardrop.Signup.Emails
import Teardrop.Signup.Invites
import Teardrop.Streaming.Blocks
import Teardrop.Streaming.Tail
import Teardrop.Tools.FlattenSchema
import Teardrop.Tools.HttpFetch
import Teardrop.Tools.Multicall
import Teardrop.Tools.NormalizeSchema
import Teardrop.Tools.OrgTools
import Teardrop.Tools.PydanticModel
import Teardrop.Tools.RpcPermits
import Teardrop.Tools.TreasuryOutflow
