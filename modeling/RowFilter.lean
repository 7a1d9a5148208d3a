import RowFilter.Content
import RowFilter.Form.FilterSet
import RowFilter.Form.TypedInput
import RowFilter.Query.Step
import RowFilter.Response.Basic
import RowFilter.Schema.Assembly
import RowFilter.Proofs.BracketKeys
import RowFilter.Proofs.Collecting
import RowFilter.Proofs.RoundTrip
import RowFilter.Proofs.Conjunction
import RowFilter.Proofs.Coherence
import RowFilter.Proofs.Assemblies
import RowFilter.Proofs.Linked
import RowFilter.Proofs.Registries
import RowFilter.Proofs.Exists
import RowFilter.Proofs.FrontEnds
import RowFilter.Proofs.Failures
import RowFilter.Proofs.Lifetimes
import RowFilter.Proofs.Indices
import RowFilter.Proofs.FieldUses
import RowFilter.Proofs.Spellings
import RowFilter.Proofs.Qualifiers
import RowFilter.Proofs.PullBack
import RowFilter.Proofs.Duality
import RowFilter.Proofs.ErrorSources
import RowFilter.Proofs.Holders
import RowFilter.Proofs.Columns
import RowFilter.Proofs.Objections
import RowFilter.Proofs.Comparisons
import RowFilter.Proofs.Nulls
import RowFilter.Proofs.Refilling
import RowFilter.Proofs.Searches
import RowFilter.Proofs.Attribution
import RowFilter.Proofs.Standing
import RowFilter.Proofs.Registrations
import RowFilter.Proofs.Recognition
import RowFilter.Proofs.Tokens
