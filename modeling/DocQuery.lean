import DocQuery.Connection
import DocQuery.Entity.TestEntity
import DocQuery.Filter.Match
import DocQuery.Filter.OfQuery
import DocQuery.Main
import DocQuery.Proofs.Addressing
import DocQuery.Proofs.Attempts
import DocQuery.Proofs.ByValue
import DocQuery.Proofs.Canonical
import DocQuery.Proofs.Comparison
import DocQuery.Proofs.Complement
import DocQuery.Proofs.Composition
import DocQuery.Proofs.Covering
import DocQuery.Proofs.Delimiters
import DocQuery.Proofs.Duplicates
import DocQuery.Proofs.Equivalence
import DocQuery.Proofs.Head
import DocQuery.Proofs.Indexing
import DocQuery.Proofs.Literals
import DocQuery.Proofs.Loading
import DocQuery.Proofs.Location
import DocQuery.Proofs.OrderText
import DocQuery.Proofs.Outline
import DocQuery.Proofs.Padding
import DocQuery.Proofs.Paging
import DocQuery.Proofs.Presence
import DocQuery.Proofs.Progress
import DocQuery.Proofs.References
import DocQuery.Proofs.Refusal
import DocQuery.Proofs.Removal
import DocQuery.Proofs.Reordering
import DocQuery.Proofs.Replacement
import DocQuery.Proofs.Resaving
import DocQuery.Proofs.Reserved
import DocQuery.Proofs.Saving
import DocQuery.Proofs.Shorthand
import DocQuery.Proofs.Soundness
import DocQuery.Proofs.Teardown
import DocQuery.Query.Cursor
import DocQuery.Repository.Basic
import DocQuery.Settings.Toml
