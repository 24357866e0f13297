import QuadStore.Algebra.GraphPattern
import QuadStore.Algebra.QuadPattern
import QuadStore.Algebra.Sexp
import QuadStore.Bindings
import QuadStore.Cursor
import QuadStore.Eval.Arithmetic
import QuadStore.Eval.Comparison
import QuadStore.Eval.Dataset
import QuadStore.Eval.Datum
import QuadStore.Eval.Fault
import QuadStore.Eval.FunctionCall
import QuadStore.Eval.Query
import QuadStore.Eval.Row
import QuadStore.Eval.Rows
import QuadStore.Eval.SortOrder
import QuadStore.Journal.Frames
import QuadStore.Journal.Record
import QuadStore.Number.Arithmetic
import QuadStore.Number.Binary
import QuadStore.Number.Numeral
import QuadStore.Number.Rounding
import QuadStore.Number.Shortest
import QuadStore.Proofs.Adapters
import QuadStore.Proofs.Alike
import QuadStore.Proofs.Answering
import QuadStore.Proofs.Approximation
import QuadStore.Proofs.Coherence
import QuadStore.Proofs.Collection
import QuadStore.Proofs.Contents
import QuadStore.Proofs.Contexts
import QuadStore.Proofs.Correlation
import QuadStore.Proofs.Cursors
import QuadStore.Proofs.Dictionary
import QuadStore.Proofs.Digits
import QuadStore.Proofs.Drafts
import QuadStore.Proofs.Durability
import QuadStore.Proofs.Encoding
import QuadStore.Proofs.Equality
import QuadStore.Proofs.Evaluation
import QuadStore.Proofs.Evaluators
import QuadStore.Proofs.Exactness
import QuadStore.Proofs.Expiring
import QuadStore.Proofs.Expressions
import QuadStore.Proofs.Extending
import QuadStore.Proofs.Filling
import QuadStore.Proofs.FirstRows
import QuadStore.Proofs.Genuine
import QuadStore.Proofs.Grammars
import QuadStore.Proofs.Hiding
import QuadStore.Proofs.Independence
import QuadStore.Proofs.Index
import QuadStore.Proofs.Interning
import QuadStore.Proofs.Isolation
import QuadStore.Proofs.Learning
import QuadStore.Proofs.Ledger
import QuadStore.Proofs.Legibility
import QuadStore.Proofs.Lists
import QuadStore.Proofs.Literals
import QuadStore.Proofs.Membership
import QuadStore.Proofs.Merging
import QuadStore.Proofs.Moves
import QuadStore.Proofs.Nearness
import QuadStore.Proofs.Numbering
import QuadStore.Proofs.Parts
import QuadStore.Proofs.Pins
import QuadStore.Proofs.Pipelines
import QuadStore.Proofs.Plans
import QuadStore.Proofs.Publishing
import QuadStore.Proofs.Pulling
import QuadStore.Proofs.Quoting
import QuadStore.Proofs.Readability
import QuadStore.Proofs.Recording
import QuadStore.Proofs.Registering
import QuadStore.Proofs.Rejection
import QuadStore.Proofs.Releasing
import QuadStore.Proofs.Renaming
import QuadStore.Proofs.Rendering
import QuadStore.Proofs.Reparsing
import QuadStore.Proofs.Replanning
import QuadStore.Proofs.Replay
import QuadStore.Proofs.Restoring
import QuadStore.Proofs.Rounding
import QuadStore.Proofs.Rows
import QuadStore.Proofs.Scope
import QuadStore.Proofs.Selection
import QuadStore.Proofs.Shortest
import QuadStore.Proofs.Showing
import QuadStore.Proofs.Slots
import QuadStore.Proofs.Solutions
import QuadStore.Proofs.SortAgreement
import QuadStore.Proofs.SortRank
import QuadStore.Proofs.Spelling
import QuadStore.Proofs.StableSort
import QuadStore.Proofs.Staging
import QuadStore.Proofs.Substrings
import QuadStore.Proofs.Surviving
import QuadStore.Proofs.Tearing
import QuadStore.Proofs.Tuples
import QuadStore.Proofs.Unambiguity
import QuadStore.Proofs.Undoing
import QuadStore.Proofs.Validity
import QuadStore.Proofs.Visibility
import QuadStore.Proofs.Writes
import QuadStore.Rdf.Iri
import QuadStore.Rdf.Iri.Syntax
import QuadStore.Rdf.LanguageTag
import QuadStore.Rdf.Literal
import QuadStore.Rdf.Name
import QuadStore.Rdf.Term
import QuadStore.Rdf.Vocabulary
import QuadStore.Regex.Basic
import QuadStore.Regex.CharSet
import QuadStore.Regex.Parser
import QuadStore.Session.Basic
import QuadStore.Session.Step
import QuadStore.Store.Basic
import QuadStore.Store.Corruption
import QuadStore.Store.Dictionary
import QuadStore.Store.Encoded
import QuadStore.Store.Evaluator
import QuadStore.Store.Index
import QuadStore.Store.Interner
import QuadStore.Store.Namespaces
import QuadStore.Store.OpenCursor
import QuadStore.Store.Opening
import QuadStore.Store.Plan
import QuadStore.Store.Snapshots
import QuadStore.Store.Table
import QuadStore.Store.Transaction
import QuadStore.Store.View
import QuadStore.Text.Digits
import QuadStore.Text.Quoted
import QuadStore.Text.Split
import QuadStore.Text.Utf8
import QuadStore.Unicode.Case
import QuadStore.Unicode.Category
import QuadStore.Unicode.Property
import QuadStore.Unicode.Runs
import QuadStore.Unicode.Script
import QuadStore.Xsd.Calendar
import QuadStore.Xsd.Decimal
import QuadStore.Xsd.Floating
import QuadStore.Xsd.Integer
import QuadStore.Xsd.Value
