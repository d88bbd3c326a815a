import TransactionAttempts.Accounts.Bank
import TransactionAttempts.Async.Joint
import TransactionAttempts.Config.Decoder
import TransactionAttempts.Context.Handles
import TransactionAttempts.Context.Wakeup
import TransactionAttempts.Executor
import TransactionAttempts.Failure.Walk
import TransactionAttempts.Guarded
import TransactionAttempts.Rehearsal.Stage
import TransactionAttempts.Proofs.Execution
import TransactionAttempts.Proofs.Watching
import TransactionAttempts.Proofs.Retrying
import TransactionAttempts.Proofs.Attempts
import TransactionAttempts.Proofs.Calls
import TransactionAttempts.Proofs.Logs
import TransactionAttempts.Proofs.Lifecycle
import TransactionAttempts.Proofs.LiveWork
import TransactionAttempts.Proofs.Rounds
import TransactionAttempts.Proofs.Schedule
import TransactionAttempts.Proofs.SingleAttempt
import TransactionAttempts.Proofs.Chronicle
import TransactionAttempts.Proofs.Records
import TransactionAttempts.Proofs.Parts
import TransactionAttempts.Proofs.Publication
import TransactionAttempts.Proofs.Explanations
import TransactionAttempts.Proofs.Causes
import TransactionAttempts.Proofs.Rollbacks
import TransactionAttempts.Proofs.Wakeups
import TransactionAttempts.Proofs.Histories
import TransactionAttempts.Proofs.Waiters
import TransactionAttempts.Proofs.Families
import TransactionAttempts.Proofs.Sites
import TransactionAttempts.Proofs.Taming
import TransactionAttempts.Proofs.Simulation
import TransactionAttempts.Proofs.Panicking
import TransactionAttempts.Proofs.Delays
import TransactionAttempts.Proofs.Decoding
import TransactionAttempts.Proofs.Interleaving
import TransactionAttempts.Proofs.Concurrency
import TransactionAttempts.Proofs.WaitOrder
import TransactionAttempts.Proofs.Joins
import TransactionAttempts.Proofs.Searches
import TransactionAttempts.Proofs.Sources
import TransactionAttempts.Proofs.Marks
import TransactionAttempts.Proofs.Messages
import TransactionAttempts.Proofs.Settings
import TransactionAttempts.Proofs.Racing
import TransactionAttempts.Proofs.ShownWaits
import TransactionAttempts.Proofs.Counters
import TransactionAttempts.Proofs.Captures
import TransactionAttempts.Proofs.Nesting
