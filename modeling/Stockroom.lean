import Stockroom.Batches
import Stockroom.Desk.Answer
import Stockroom.Launch
import Stockroom.Main
import Stockroom.Service.Sweep
import Stockroom.Settings.Connection
import Stockroom.Snapshots.Place
import Stockroom.Proofs.Steps
import Stockroom.Proofs.Statements
import Stockroom.Proofs.Rows
import Stockroom.Proofs.Stock
import Stockroom.Proofs.Orders
import Stockroom.Proofs.Assortment
import Stockroom.Proofs.Leaving
import Stockroom.Proofs.Commands
import Stockroom.Proofs.Quantities
import Stockroom.Proofs.Soundness
import Stockroom.Proofs.Runs
import Stockroom.Proofs.Retries
import Stockroom.Proofs.Conservation
import Stockroom.Proofs.Rollback
import Stockroom.Proofs.Amounts
import Stockroom.Proofs.Readable
import Stockroom.Proofs.Exactness
import Stockroom.Proofs.Nearest
import Stockroom.Proofs.Stranding
import Stockroom.Proofs.Race
import Stockroom.Proofs.Within
import Stockroom.Proofs.Coherence
import Stockroom.Proofs.Lifecycle
import Stockroom.Proofs.Money
import Stockroom.Proofs.StoredTime
import Stockroom.Proofs.Window
import Stockroom.Proofs.Likeness
import Stockroom.Proofs.Sweeping
import Stockroom.Proofs.Batching
import Stockroom.Proofs.Backlog
import Stockroom.Proofs.BinaryOrder
import Stockroom.Proofs.Recency
import Stockroom.Proofs.Numerals
import Stockroom.Proofs.Documents
import Stockroom.Proofs.Agreement
import Stockroom.Proofs.Withdrawal
import Stockroom.Proofs.Revisions
import Stockroom.Proofs.Prices
import Stockroom.Proofs.Requests
import Stockroom.Proofs.Replies
import Stockroom.Proofs.Locked
import Stockroom.Proofs.Abreast
import Stockroom.Proofs.Commuting
import Stockroom.Proofs.Editions
import Stockroom.Proofs.Separation
import Stockroom.Proofs.Spelling
import Stockroom.Proofs.Addresses
import Stockroom.Proofs.Course
import Stockroom.Proofs.Rounding
import Stockroom.Proofs.Powers
import Stockroom.Proofs.Waits
import Stockroom.Proofs.Endings
import Stockroom.Proofs.Reserving
import Stockroom.Proofs.Placing
import Stockroom.Proofs.Totals
import Stockroom.Proofs.Listing
import Stockroom.Proofs.Repetition
