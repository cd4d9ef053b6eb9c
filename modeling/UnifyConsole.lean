import UnifyConsole.Lib.Table
import UnifyConsole.Lib.Tx
import UnifyConsole.Lib.Act
import UnifyConsole.Lib.Prog
import UnifyConsole.Lib.Rely
import UnifyConsole.Account.Store
import UnifyConsole.Account.Tenant
import UnifyConsole.Account.Partnership
import UnifyConsole.Account.Wallets
import UnifyConsole.Account.OneWallet
import UnifyConsole.Account.Customers
import UnifyConsole.Account.Carry
import UnifyConsole.Account.Quota
import UnifyConsole.Compute.Hold
import UnifyConsole.Compute.Ledger
import UnifyConsole.Compute.Conservation
import UnifyConsole.Compute.Payer
import UnifyConsole.Compute.Replay
import UnifyConsole.Credit.Pool
import UnifyConsole.Credit.Inventory
import UnifyConsole.Credit.Conservation
import UnifyConsole.Credit.Recharge
import UnifyConsole.Billing.QuotaMath
import UnifyConsole.Billing.Funding
import UnifyConsole.Billing.Session
import UnifyConsole.Billing.Wallet
import UnifyConsole.Billing.Once
import UnifyConsole.Billing.Promo
import UnifyConsole.Billing.Request
import UnifyConsole.Billing.Realtime
import UnifyConsole.Async.Task
import UnifyConsole.Async.Billing
import UnifyConsole.Async.Source
import UnifyConsole.Async.Polling
import UnifyConsole.Async.Sweep
import UnifyConsole.Async.Progress
import UnifyConsole.Async.Ending
import UnifyConsole.Async.Once
import UnifyConsole.Async.Refund
import UnifyConsole.Outbox.Settlement
import UnifyConsole.Outbox.Once
import UnifyConsole.Supply.Lot
import UnifyConsole.Supply.Program
import UnifyConsole.Supply.Counters
import UnifyConsole.Supply.NoLostUpdate
import UnifyConsole.Supply.Sequential
import UnifyConsole.Supply.Dividend
import UnifyConsole.Supply.Lifecycle
import UnifyConsole.Subscription.Quota
import UnifyConsole.Subscription.Moves
import UnifyConsole.Subscription.Refund
import UnifyConsole.Subscription.Period
import UnifyConsole.Subscription.CatchUp
import UnifyConsole.Subscription.Group
import UnifyConsole.Payment.Order
import UnifyConsole.Payment.Calls
import UnifyConsole.Payment.Once
import UnifyConsole.Payment.Receipts
import UnifyConsole.Payment.Redemption
import UnifyConsole.Lib.Tally
import UnifyConsole.Lib.Walk
import UnifyConsole.Lib.Text
import UnifyConsole.Lib.Watch
import UnifyConsole.Invoice.Statement
import UnifyConsole.Invoice.Funding
import UnifyConsole.Invoice.Document
import UnifyConsole.Invoice.Trail
import UnifyConsole.Invoice.History
import UnifyConsole.Invoice.Covered
import UnifyConsole.Invoice.Active
import UnifyConsole.Lib.Expr
import UnifyConsole.Pricing.Usage
import UnifyConsole.Pricing.Expression
import UnifyConsole.Pricing.Ratio
import UnifyConsole.Pricing.Tables
import UnifyConsole.Pricing.BillingGuard
import UnifyConsole.Auth.Flow
import UnifyConsole.Auth.Session
import UnifyConsole.Lib.Regime
import UnifyConsole.Auth.Sealing
import UnifyConsole.Auth.Revocation
import UnifyConsole.Auth.Refresh
import UnifyConsole.Billing.Batch
import UnifyConsole.Relay.GeminiStream
import UnifyConsole.Relay.HeaderOverride
import UnifyConsole.Relay.UsageFormat
import UnifyConsole.Routing.Channels
import UnifyConsole.Routing.Keys
import UnifyConsole.Routing.Weights
import UnifyConsole.Routing.Retry
import UnifyConsole.Routing.Status
