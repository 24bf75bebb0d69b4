import LiquidStaking.Allocation
import LiquidStaking.Attempt
import LiquidStaking.Batch
import LiquidStaking.Books
import LiquidStaking.Chain
import LiquidStaking.Contract.Coin
import LiquidStaking.Contract.Config
import LiquidStaking.Contract.Dispatch
import LiquidStaking.Contract.Effects
import LiquidStaking.Contract.Error
import LiquidStaking.Contract.Execute
import LiquidStaking.Contract.Host
import LiquidStaking.Contract.Message
import LiquidStaking.Contract.Notify
import LiquidStaking.Contract.Queries
import LiquidStaking.Contract.Registration
import LiquidStaking.Contract.Request.Execution
import LiquidStaking.Contract.Request.Fields
import LiquidStaking.Contract.Request.Notification
import LiquidStaking.Contract.Request.Query
import LiquidStaking.Contract.Request.Setup
import LiquidStaking.Contract.SetUp
import LiquidStaking.ControlPort
import LiquidStaking.Decimal
import LiquidStaking.Hub.Deposits
import LiquidStaking.Hub.Epochs
import LiquidStaking.Hub.Error
import LiquidStaking.Hub.Redemptions
import LiquidStaking.Hub.Registration
import LiquidStaking.Hub.Request
import LiquidStaking.Hub.Resolution
import LiquidStaking.Hub.Response
import LiquidStaking.Hub.Rewards
import LiquidStaking.Hub.View
import LiquidStaking.Json.Document
import LiquidStaking.Json.Printer
import LiquidStaking.Json.Reader
import LiquidStaking.Json.Value
import LiquidStaking.Proofs.Accounts
import LiquidStaking.Proofs.Allocation
import LiquidStaking.Proofs.Answered
import LiquidStaking.Proofs.Answers
import LiquidStaking.Proofs.Arithmetic
import LiquidStaking.Proofs.Attempts
import LiquidStaking.Proofs.Attribution
import LiquidStaking.Proofs.Awaited
import LiquidStaking.Proofs.Backing
import LiquidStaking.Proofs.Books
import LiquidStaking.Proofs.Calls
import LiquidStaking.Proofs.Capping
import LiquidStaking.Proofs.Changes
import LiquidStaking.Proofs.Claims
import LiquidStaking.Proofs.Closings
import LiquidStaking.Proofs.Conversions
import LiquidStaking.Proofs.Delivery
import LiquidStaking.Proofs.Dilution
import LiquidStaking.Proofs.Dispatches
import LiquidStaking.Proofs.Effects
import LiquidStaking.Proofs.EpochStarts
import LiquidStaking.Proofs.Errands
import LiquidStaking.Proofs.Escrow
import LiquidStaking.Proofs.Fairness
import LiquidStaking.Proofs.Figures
import LiquidStaking.Proofs.Funding
import LiquidStaking.Proofs.Holdings
import LiquidStaking.Proofs.Instructions
import LiquidStaking.Proofs.Isolation
import LiquidStaking.Proofs.Issuing
import LiquidStaking.Proofs.Json.Documents
import LiquidStaking.Proofs.Json.Operations
import LiquidStaking.Proofs.Json.Records
import LiquidStaking.Proofs.Json.Stored
import LiquidStaking.Proofs.Json.Strings
import LiquidStaking.Proofs.KeySpace
import LiquidStaking.Proofs.Keys
import LiquidStaking.Proofs.Lifecycle
import LiquidStaking.Proofs.Maturity
import LiquidStaking.Proofs.Moves
import LiquidStaking.Proofs.Moves.Acknowledgements
import LiquidStaking.Proofs.Moves.Epochs
import LiquidStaking.Proofs.Moves.Requests
import LiquidStaking.Proofs.Numerals
import LiquidStaking.Proofs.Openings
import LiquidStaking.Proofs.Ordered
import LiquidStaking.Proofs.Orderly
import LiquidStaking.Proofs.PaidOnce
import LiquidStaking.Proofs.Passes
import LiquidStaking.Proofs.Payouts
import LiquidStaking.Proofs.Ports
import LiquidStaking.Proofs.Prepaid
import LiquidStaking.Proofs.Privileges
import LiquidStaking.Proofs.Quotes
import LiquidStaking.Proofs.Registry
import LiquidStaking.Proofs.Remittances
import LiquidStaking.Proofs.Rewards
import LiquidStaking.Proofs.Rosters
import LiquidStaking.Proofs.Runs
import LiquidStaking.Proofs.Settings
import LiquidStaking.Proofs.Settlement
import LiquidStaking.Proofs.SharedVouchers
import LiquidStaking.Proofs.Shares
import LiquidStaking.Proofs.Solvency
import LiquidStaking.Proofs.Started
import LiquidStaking.Proofs.Storage
import LiquidStaking.Proofs.Succession
import LiquidStaking.Proofs.Tally
import LiquidStaking.Proofs.Transactions
import LiquidStaking.Proofs.Unbondings
import LiquidStaking.Proofs.UnderWay
import LiquidStaking.Proofs.Vouchers
import LiquidStaking.Proofs.Waiting
import LiquidStaking.Proofs.Widths
import LiquidStaking.Proofs.Wire.Contents
import LiquidStaking.Proofs.Wire.Extensions
import LiquidStaking.Proofs.Wire.Fields
import LiquidStaking.Proofs.Wire.Messages
import LiquidStaking.Proofs.Wire.Reports
import LiquidStaking.Proofs.Wire.Writing
import LiquidStaking.Proofs.Written
import LiquidStaking.Rate
import LiquidStaking.Records
import LiquidStaking.Remote
import LiquidStaking.Roles
import LiquidStaking.Run
import LiquidStaking.Store.Basic
import LiquidStaking.Store.Key
import LiquidStaking.Store.Records
import LiquidStaking.Store.Registry
import LiquidStaking.Text.Base64
import LiquidStaking.Text.Bytes
import LiquidStaking.Text.Digits
import LiquidStaking.Text.Sha256
import LiquidStaking.Voucher
import LiquidStaking.Width
import LiquidStaking.Wire.Acknowledgement
import LiquidStaking.Wire.Field
import LiquidStaking.Wire.Message
