import FilterQuery.Builder
import FilterQuery.Filter.Compile
import FilterQuery.Filter.Fields
import FilterQuery.Json.Writer
import FilterQuery.Predicate.Reader
import FilterQuery.Proofs.Conversion
import FilterQuery.Proofs.DayNumber
import FilterQuery.Proofs.Delimiters
import FilterQuery.Proofs.Desugaring
import FilterQuery.Proofs.Document
import FilterQuery.Proofs.Entries
import FilterQuery.Proofs.Escaping
import FilterQuery.Proofs.ExplicitDatatype
import FilterQuery.Proofs.Expression
import FilterQuery.Proofs.Faults
import FilterQuery.Proofs.Fields
import FilterQuery.Proofs.Foreign
import FilterQuery.Proofs.Grammar
import FilterQuery.Proofs.History
import FilterQuery.Proofs.Instant
import FilterQuery.Proofs.JsonReading
import FilterQuery.Proofs.LiteralReading
import FilterQuery.Proofs.Meaning
import FilterQuery.Proofs.Membership
import FilterQuery.Proofs.Numeral
import FilterQuery.Proofs.Outline
import FilterQuery.Proofs.Parts
import FilterQuery.Proofs.Percent
import FilterQuery.Proofs.PredicateReading
import FilterQuery.Proofs.Printable
import FilterQuery.Proofs.Provider
import FilterQuery.Proofs.QueryString
import FilterQuery.Proofs.Rule
import FilterQuery.Proofs.Timestamp
import FilterQuery.Proofs.TimestampOrder
import FilterQuery.Proofs.Url
import FilterQuery.Proofs.UrlSafe
import FilterQuery.Proofs.WellFormed
import FilterQuery.Request.Step
import FilterQuery.Settings.Session
import FilterQuery.Proofs.Rounding
import FilterQuery.Proofs.SortRuns
import FilterQuery.Proofs.NumberReading
import FilterQuery.Proofs.FloatReading
import FilterQuery.Proofs.NumberTokens
import FilterQuery.Proofs.IsoReading
import FilterQuery.Proofs.Spelling
import FilterQuery.Proofs.Normalization
import FilterQuery.Proofs.Initialization
import FilterQuery.Proofs.FieldSequence
import FilterQuery.Proofs.SortSpelling
