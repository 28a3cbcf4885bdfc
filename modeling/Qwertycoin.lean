import Qwertycoin.Lib.Sorting
import Qwertycoin.Lib.Bytes
import Qwertycoin.Lib.Encoding
import Qwertycoin.Lib.Varint
import Qwertycoin.Lib.UndoLog
import Qwertycoin.Lib.Reorg
import Qwertycoin.Lib.Rotation
import Qwertycoin.Lib.Greedy
import Qwertycoin.Lib.Chunks
import Qwertycoin.Lib.Words
import Qwertycoin.Lib.Pacing
import Qwertycoin.Lib.Keyed
import Qwertycoin.Crypto
import Qwertycoin.Probe
import Qwertycoin.Timing
import Qwertycoin.TxExtra
import Qwertycoin.Envelope
import Qwertycoin.EnvelopeCodec
import Qwertycoin.Lifecycle
import Qwertycoin.Receipt
import Qwertycoin.Membership
import Qwertycoin.RecordCodec
import Qwertycoin.Transaction
import Qwertycoin.Reward
import Qwertycoin.ExtraCodec
import Qwertycoin.Carrier
import Qwertycoin.RecordRoundTrip
import Qwertycoin.Semantic
import Qwertycoin.BlockTransition
import Qwertycoin.Coordinator
import Qwertycoin.Journal
import Qwertycoin.Replay
import Qwertycoin.Epochs
import Qwertycoin.Histories
import Qwertycoin.Frozen
import Qwertycoin.Budget
import Qwertycoin.Atomicity
import Qwertycoin.Chain
import Qwertycoin.Payout
import Qwertycoin.ServiceKeys
import Qwertycoin.Carried
import Qwertycoin.Enrolment
import Qwertycoin.Evidence
import Qwertycoin.Payment
import Qwertycoin.Earned
import Qwertycoin.Wallet
import Qwertycoin.OneTimeKeys
import Qwertycoin.Supply
import Qwertycoin.Settled
import Qwertycoin.Ledger
import Qwertycoin.Quiet
import Qwertycoin.RewardMapping
import Qwertycoin.Producer
import Qwertycoin.Reenrolment
import Qwertycoin.Preview
import Qwertycoin.Shares
import Qwertycoin.RelayQueue
import Qwertycoin.RelayTemplate
import Qwertycoin.DeadLeases
import Qwertycoin.ExtraOrder
import Qwertycoin.Qms
import Qwertycoin.QmsCarrier
import Qwertycoin.QmsMessage
import Qwertycoin.Utf8
import Qwertycoin.ProofOfWork
import Qwertycoin.Penalty
import Qwertycoin.Windows
import Qwertycoin.Collecting
import Qwertycoin.RelayLimiter
import Qwertycoin.RetryTracker
import Qwertycoin.EndpointGossip
import Qwertycoin.Diagnostics
import Qwertycoin.Difficulty
import Qwertycoin.ReceiptCounters
import Qwertycoin.RelayPool
import Qwertycoin.RelayAdmission
