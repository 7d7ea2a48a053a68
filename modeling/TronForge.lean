import TronForge.Bot.ApiClient
import TronForge.Bot.ApiRuns
import TronForge.Bot.ApiTraffic
import TronForge.Bot.Renewals
import TronForge.Funding.ClaimOrder
import TronForge.Funding.DailyLimit
import TronForge.Funding.Payments
import TronForge.Funding.StoredPayloads
import TronForge.Funding.Turns
import TronForge.Generator.Allocation
import TronForge.Generator.Attempts
import TronForge.Generator.Epoch
import TronForge.Generator.LateStarts
import TronForge.Generator.Reports
import TronForge.Generator.ShardStatuses
import TronForge.Generator.Statuses
import TronForge.Generator.SubmitSearch
import TronForge.Generator.Terminal
import TronForge.Library.Lifecycle
import TronForge.Library.Radix
import TronForge.Native.BatchedSearch
import TronForge.Native.ChainReuse
import TronForge.Native.FleetSearch
import TronForge.Native.GroupLaw
import TronForge.Native.InverseBatch
import TronForge.Native.LegacyPasses
import TronForge.Native.NumberSyntax
import TronForge.Native.OffsetBands
import TronForge.Native.ReferenceSearch
import TronForge.Service.Base58Check
import TronForge.Service.Base58Encoders
import TronForge.Service.Patterns
import TronForge.Service.SessionLocks
import TronForge.Service.SessionRuns
import TronForge.Service.SignOut
import TronForge.Service.Validators
import TronForge.Service.Winners
import TronForge.Library.Cooperative
import TronForge.Telegram.Texts
import TronForge.Telegram.Updates
import TronForge.Telegram.Calls
import TronForge.Telegram.Handlers
import TronForge.Funding.Amounts
import TronForge.Telegram.Bot
import TronForge.Library.Accounts
import TronForge.Telegram.Offers
import TronForge.Telegram.Permissions
import TronForge.Telegram.Handling
import TronForge.Telegram.Forms
import TronForge.Telegram.Guard
import TronForge.Telegram.Deliveries
import TronForge.Telegram.MonitorRuns
import TronForge.Telegram.FundingAmounts
import TronForge.Native.SessionResults
import TronForge.Generator.StoredResults
import TronForge.Service.JobReads
import TronForge.Service.ShownWallets
import TronForge.Native.GeneratedWallets
import TronForge.Service.GpuWinners
import TronForge.Service.JobCreations
