import Lexing.Main
import Lexing.Segmentation
import Lexing.Proofs.Lemmas.Pieces
import Lexing.Proofs.Lemmas.Position
import Lexing.Proofs.Lemmas.Scan
import Lexing.Proofs.Lemmas.Delivery
import Lexing.Proofs.Lemmas.Classification
import Lexing.Proofs.Theorems.Languages
import Lexing.Proofs.Theorems.Segmentation
import Lexing.Proofs.Lemmas.LineIndex
import Lexing.Proofs.Lemmas.Calls
import Lexing.Proofs.Lemmas.Analysis
import Lexing.Proofs.Theorems.Spans
import Lexing.Proofs.Theorems.Offers
import Lexing.Proofs.Lemmas.Success
import Lexing.Proofs.Theorems.Concatenation
import Lexing.Proofs.Lemmas.Layout
import Lexing.Proofs.Lemmas.Listing
import Lexing.Proofs.Theorems.Layout
import Lexing.Proofs.Lemmas.Feeding
import Lexing.Proofs.Theorems.Feeding
import Lexing.Proofs.Lemmas.Tables
import Lexing.Proofs.Lemmas.Counts
import Lexing.Proofs.Lemmas.LineRange
import Lexing.Proofs.Theorems.Faultless
import Lexing.Proofs.Lemmas.JsonReading
import Lexing.Proofs.Lemmas.ListingReading
import Lexing.Proofs.Theorems.Listings
import Lexing.Proofs.Lemmas.Budget
import Lexing.Proofs.Theorems.Budget
import Lexing.Proofs.Lemmas.Admission
import Lexing.Proofs.Lemmas.Run
import Lexing.Proofs.Theorems.Runs
import Lexing.Proofs.Lemmas.Ledger
import Lexing.Proofs.Theorems.Ledger
import Lexing.Proofs.Theorems.Admission
import Lexing.Proofs.Lemmas.Logging
import Lexing.Proofs.Theorems.Attribution
import Lexing.Proofs.Lemmas.Reports
import Lexing.Proofs.Lemmas.Writing
import Lexing.Proofs.Lemmas.Failures
import Lexing.Proofs.Theorems.Failures
import Lexing.Proofs.Lemmas.Buffers
import Lexing.Proofs.Theorems.Buffers
import Lexing.Proofs.Lemmas.Options
import Lexing.Proofs.Lemmas.Settings
import Lexing.Proofs.Theorems.Precedence
import Lexing.Proofs.Lemmas.Program
import Lexing.Proofs.Theorems.Program
import Lexing.Proofs.Lemmas.Metrics
import Lexing.Proofs.Theorems.Metrics
import Lexing.Proofs.Lemmas.Columns
import Lexing.Proofs.Theorems.Positions
import Lexing.Proofs.Lemmas.Excerpts
import Lexing.Proofs.Theorems.Excerpts
import Lexing.Proofs.Lemmas.Lines
import Lexing.Proofs.Theorems.Lines
import Lexing.Proofs.Lemmas.Signals
import Lexing.Proofs.Theorems.Signals
import Lexing.Proofs.Lemmas.Symbols
import Lexing.Proofs.Theorems.Symbols
import Lexing.Proofs.Lemmas.Sequences
import Lexing.Proofs.Theorems.Sequences
import Lexing.Proofs.Lemmas.Summaries
import Lexing.Proofs.Theorems.Summaries
import Lexing.Proofs.Lemmas.Totals
import Lexing.Proofs.Theorems.Totals
import Lexing.Proofs.Lemmas.Sections
import Lexing.Proofs.Theorems.Sections
import Lexing.Proofs.Lemmas.EventReading
import Lexing.Proofs.Theorems.EventReading
import Lexing.Proofs.Lemmas.Clamping
import Lexing.Proofs.Theorems.Clamping
import Lexing.Proofs.Lemmas.Uses
import Lexing.Proofs.Theorems.Arguments
import Lexing.Proofs.Lemmas.Lookahead
import Lexing.Proofs.Theorems.Lookahead
import Lexing.Proofs.Lemmas.Nesting
import Lexing.Proofs.Theorems.Nesting
