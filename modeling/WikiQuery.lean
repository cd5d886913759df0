import WikiQuery.Catalog
import WikiQuery.Compile.Basic
import WikiQuery.Compile.Leaf
import WikiQuery.Compile.Merge
import WikiQuery.Compile.Recursion
import WikiQuery.Compile.Session
import WikiQuery.Compile.Sorting
import WikiQuery.Condition
import WikiQuery.Config.Basic
import WikiQuery.Config.Json
import WikiQuery.Config.Load
import WikiQuery.Config.Reading
import WikiQuery.Description
import WikiQuery.Event
import WikiQuery.Filter
import WikiQuery.Json.Basic
import WikiQuery.Json.Printer
import WikiQuery.Json.Source
import WikiQuery.JsonForm.Condition
import WikiQuery.JsonForm.Description
import WikiQuery.JsonForm.Filter
import WikiQuery.JsonForm.Pattern
import WikiQuery.JsonForm.Value
import WikiQuery.KeyMap
import WikiQuery.Number.Basic
import WikiQuery.Number.Layout
import WikiQuery.Number.Nearest
import WikiQuery.Number.Shortest
import WikiQuery.Pattern
import WikiQuery.Proofs.Compile.Adequacy
import WikiQuery.Proofs.Compile.Closures
import WikiQuery.Proofs.Compile.Erasure
import WikiQuery.Proofs.Compile.Expansion
import WikiQuery.Proofs.Compile.Identity
import WikiQuery.Proofs.Compile.Invariant
import WikiQuery.Proofs.Compile.Leaf
import WikiQuery.Proofs.Compile.Lockstep
import WikiQuery.Proofs.Compile.Mirror
import WikiQuery.Proofs.Compile.Names
import WikiQuery.Proofs.Compile.Neutral
import WikiQuery.Proofs.Compile.Normal
import WikiQuery.Proofs.Compile.Outcome
import WikiQuery.Proofs.Compile.Parallel
import WikiQuery.Proofs.Compile.Registry
import WikiQuery.Proofs.Compile.Renaming
import WikiQuery.Proofs.Compile.ResultSort
import WikiQuery.Proofs.Compile.Rules
import WikiQuery.Proofs.Compile.Scope
import WikiQuery.Proofs.Compile.Selection
import WikiQuery.Proofs.Compile.SortOnce
import WikiQuery.Proofs.Compile.SortVariables
import WikiQuery.Proofs.Compile.Sorting
import WikiQuery.Proofs.Compile.Sorts
import WikiQuery.Proofs.Compile.Stack
import WikiQuery.Proofs.Compile.Status
import WikiQuery.Proofs.Compile.Subqueries
import WikiQuery.Proofs.Compile.Totality
import WikiQuery.Proofs.Compile.Trace
import WikiQuery.Proofs.Compile.Unclosed
import WikiQuery.Proofs.Compile.Unsorted
import WikiQuery.Proofs.Compile.Vocabularies
import WikiQuery.Proofs.Compile.Weak
import WikiQuery.Proofs.Condition.Alike
import WikiQuery.Proofs.Condition.Atoms
import WikiQuery.Proofs.Condition.Attachments
import WikiQuery.Proofs.Condition.Compatible
import WikiQuery.Proofs.Condition.Gather
import WikiQuery.Proofs.Condition.Joins
import WikiQuery.Proofs.Condition.Normal
import WikiQuery.Proofs.Condition.Numbers
import WikiQuery.Proofs.Condition.Reordering
import WikiQuery.Proofs.Condition.Same
import WikiQuery.Proofs.Condition.Scope
import WikiQuery.Proofs.Config.Validity
import WikiQuery.Proofs.Json.Finite
import WikiQuery.Proofs.JsonForm.Condition
import WikiQuery.Proofs.JsonForm.Description
import WikiQuery.Proofs.JsonForm.Pattern
import WikiQuery.Proofs.JsonForm.Query
import WikiQuery.Proofs.JsonForm.Value
import WikiQuery.Proofs.KeyMap
import WikiQuery.Proofs.Meaning.Agreement
import WikiQuery.Proofs.Meaning.Compile
import WikiQuery.Proofs.Meaning.Description
import WikiQuery.Proofs.Meaning.Faithful
import WikiQuery.Proofs.Meaning.Interpretation
import WikiQuery.Proofs.Meaning.Merge
import WikiQuery.Proofs.Text.Quoted
import WikiQuery.Proofs.Text.Wildcard
import WikiQuery.Proofs.Thinned
import WikiQuery.Resource
import WikiQuery.SortKey
import WikiQuery.Subquery
import WikiQuery.Text.Basic
import WikiQuery.Text.Literal
import WikiQuery.Toml.Basic
import WikiQuery.Toml.Document
import WikiQuery.Toml.Scalar
import WikiQuery.Value
import WikiQuery.Yaml.Basic
import WikiQuery.Yaml.Document
import WikiQuery.Yaml.Scalar
import WikiQuery.Yaml.Token
