import SchemaSampler.Binary64
import SchemaSampler.Calendar.Civil
import SchemaSampler.Calendar.Instant
import SchemaSampler.Calendar.Timestamp
import SchemaSampler.Decimal.Shortest
import SchemaSampler.Decimal.Text
import SchemaSampler.Json.Basic
import SchemaSampler.Json.Reader
import SchemaSampler.Json.Writer
import SchemaSampler.Members
import SchemaSampler.Net.Address
import SchemaSampler.Pattern.Basic
import SchemaSampler.Pattern.CharSet
import SchemaSampler.Pattern.Class
import SchemaSampler.Pattern.Escape
import SchemaSampler.Pattern.Reader
import SchemaSampler.Proofs.Binary64.Accuracy
import SchemaSampler.Proofs.Binary64.Adjacent
import SchemaSampler.Proofs.Binary64.Equal
import SchemaSampler.Proofs.Binary64.Form
import SchemaSampler.Proofs.Binary64.Integral
import SchemaSampler.Proofs.Binary64.Operations
import SchemaSampler.Proofs.Binary64.Order
import SchemaSampler.Proofs.Binary64.Rounding
import SchemaSampler.Proofs.Calendar.Civil
import SchemaSampler.Proofs.Calendar.Outline
import SchemaSampler.Proofs.Calendar.Timestamp
import SchemaSampler.Proofs.Calendar.TimestampForm
import SchemaSampler.Proofs.Lists
import SchemaSampler.Proofs.Net.Address
import SchemaSampler.Proofs.Parse.Acceptance
import SchemaSampler.Proofs.Parse.Calls
import SchemaSampler.Proofs.Parse.CollectionSize
import SchemaSampler.Proofs.Parse.Composition
import SchemaSampler.Proofs.Parse.Congruence
import SchemaSampler.Proofs.Parse.Decisions
import SchemaSampler.Proofs.Parse.Depth
import SchemaSampler.Proofs.Parse.Discrimination
import SchemaSampler.Proofs.Parse.Grouping
import SchemaSampler.Proofs.Parse.Guarded
import SchemaSampler.Proofs.Parse.Idempotence
import SchemaSampler.Proofs.Parse.ObjectIntersection
import SchemaSampler.Proofs.Parse.ObjectPolicies
import SchemaSampler.Proofs.Parse.ObjectResult
import SchemaSampler.Proofs.Parse.Outcome
import SchemaSampler.Proofs.Parse.Refusal
import SchemaSampler.Proofs.Parse.Relocation
import SchemaSampler.Proofs.Parse.Renaming
import SchemaSampler.Proofs.Parse.Sorted
import SchemaSampler.Proofs.Parse.Termination
import SchemaSampler.Proofs.Parse.TextStages
import SchemaSampler.Proofs.Pattern.Language
import SchemaSampler.Proofs.Random.Number
import SchemaSampler.Proofs.Random.Yields
import SchemaSampler.Proofs.Schema.BigintCheck
import SchemaSampler.Proofs.Schema.Format
import SchemaSampler.Proofs.Schema.Multiples
import SchemaSampler.Proofs.Schema.NumberCheck
import SchemaSampler.Proofs.Schema.Parts
import SchemaSampler.Proofs.Schema.StringCheck
import SchemaSampler.Proofs.Schema.TagFaults
import SchemaSampler.Proofs.Schema.Tags
import SchemaSampler.Proofs.Strategy.Accepted
import SchemaSampler.Proofs.Strategy.BigintContradictions
import SchemaSampler.Proofs.Strategy.BigintWords
import SchemaSampler.Proofs.Strategy.Breaker
import SchemaSampler.Proofs.Strategy.BreakerAccuracy
import SchemaSampler.Proofs.Strategy.Cells
import SchemaSampler.Proofs.Strategy.Compiled
import SchemaSampler.Proofs.Strategy.DateCandidates
import SchemaSampler.Proofs.Strategy.Defaults
import SchemaSampler.Proofs.Strategy.ExactMultiples
import SchemaSampler.Proofs.Strategy.Factories
import SchemaSampler.Proofs.Strategy.FormatSampler
import SchemaSampler.Proofs.Strategy.FunctionCalls
import SchemaSampler.Proofs.Strategy.IntegerCandidates
import SchemaSampler.Proofs.Strategy.IntegerReach
import SchemaSampler.Proofs.Strategy.Locality
import SchemaSampler.Proofs.Strategy.NumberAdmission
import SchemaSampler.Proofs.Strategy.NumberCandidates
import SchemaSampler.Proofs.Strategy.NumberContradictions
import SchemaSampler.Proofs.Strategy.NumberPlan
import SchemaSampler.Proofs.Strategy.Origin
import SchemaSampler.Proofs.Strategy.Output
import SchemaSampler.Proofs.Strategy.PathText
import SchemaSampler.Proofs.Strategy.RecordKeys
import SchemaSampler.Proofs.Strategy.Search
import SchemaSampler.Proofs.Strategy.Session
import SchemaSampler.Proofs.Strategy.Shrink
import SchemaSampler.Proofs.Strategy.SmallDomains
import SchemaSampler.Proofs.Strategy.TagContradictions
import SchemaSampler.Proofs.Strategy.Tested
import SchemaSampler.Proofs.Strategy.TextCandidates
import SchemaSampler.Proofs.Strategy.TextContradictions
import SchemaSampler.Proofs.Strategy.Unrolling
import SchemaSampler.Proofs.Strategy.Walk
import SchemaSampler.Proofs.Strategy.Yields
import SchemaSampler.Proofs.Text.Length
import SchemaSampler.Proofs.Text.Numeral
import SchemaSampler.Proofs.Value.Collection
import SchemaSampler.Proofs.Value.Congruence
import SchemaSampler.Proofs.Value.Document
import SchemaSampler.Proofs.Value.Equality
import SchemaSampler.Proofs.Value.Members
import SchemaSampler.Proofs.Value.Merge
import SchemaSampler.Proofs.Value.Occurrences
import SchemaSampler.Proofs.Value.Renaming
import SchemaSampler.Proofs.Value.Sorted
import SchemaSampler.Proofs.Value.Support
import SchemaSampler.Random.Choice
import SchemaSampler.Random.Number
import SchemaSampler.Random.Stream
import SchemaSampler.Random.Text
import SchemaSampler.Schema.Basic
import SchemaSampler.Schema.Build
import SchemaSampler.Schema.Call
import SchemaSampler.Schema.Check
import SchemaSampler.Schema.Display
import SchemaSampler.Schema.Format
import SchemaSampler.Schema.Kind
import SchemaSampler.Schema.Parse
import SchemaSampler.Schema.Problem
import SchemaSampler.Schema.Tags
import SchemaSampler.Strategy.AnyValue
import SchemaSampler.Strategy.Basic
import SchemaSampler.Strategy.BigintCandidate
import SchemaSampler.Strategy.Breaker
import SchemaSampler.Strategy.Candidate
import SchemaSampler.Strategy.Compile
import SchemaSampler.Strategy.Compiler
import SchemaSampler.Strategy.Config
import SchemaSampler.Strategy.ConfigDocument
import SchemaSampler.Strategy.DateCandidate
import SchemaSampler.Strategy.Draw
import SchemaSampler.Strategy.Event
import SchemaSampler.Strategy.Failure
import SchemaSampler.Strategy.FormatSampler
import SchemaSampler.Strategy.Memory
import SchemaSampler.Strategy.NumberCandidate
import SchemaSampler.Strategy.Override
import SchemaSampler.Strategy.Path
import SchemaSampler.Strategy.Shrink
import SchemaSampler.Strategy.TextCandidate
import SchemaSampler.Text.Blank
import SchemaSampler.Text.CaseTable
import SchemaSampler.Text.Casing
import SchemaSampler.Text.Numeral
import SchemaSampler.Text.Quoted
import SchemaSampler.Text.Ranges
import SchemaSampler.Text.Unprintable
import SchemaSampler.Text.Word
import SchemaSampler.Value.Basic
import SchemaSampler.Value.Collection
import SchemaSampler.Value.Display
import SchemaSampler.Value.Document
import SchemaSampler.Value.Equality
import SchemaSampler.Value.Mapping
import SchemaSampler.Value.Merge
import SchemaSampler.Value.Predicate
