import Criteria.Main
import Criteria.Proofs.Matching
import Criteria.Session
import Criteria.Settings.Fields
import Criteria.Proofs.Path
import Criteria.Proofs.Satisfaction
import Criteria.Proofs.Eligibility
import Criteria.Proofs.Showing
import Criteria.Proofs.Explanation
import Criteria.Proofs.Nesting
import Criteria.Proofs.Shape
import Criteria.Proofs.Soundness
import Criteria.Proofs.SideBySide
import Criteria.Proofs.DepthLimit
import Criteria.Proofs.ExactValue
import Criteria.Proofs.Keys
import Criteria.Proofs.NullEntries
import Criteria.Proofs.Regrouping
import Criteria.Proofs.Breakdowns
import Criteria.Proofs.Coercion
import Criteria.Proofs.Reordering
import Criteria.Proofs.Horizon
import Criteria.Proofs.Session
import Criteria.Proofs.Rounding
import Criteria.Proofs.Ascii
import Criteria.Proofs.Canonical
import Criteria.Proofs.Identity
import Criteria.Proofs.RoundTrip
import Criteria.Proofs.PrintedVerdict
import Criteria.Proofs.Answer
import Criteria.Proofs.Resolution
import Criteria.Proofs.Levels
import Criteria.Proofs.Malformed
import Criteria.Proofs.OperatorForms
import Criteria.Proofs.DayCount
import Criteria.Proofs.ExactOrder
import Criteria.Proofs.WellShaped
import Criteria.Proofs.EntryByEntry
import Criteria.Proofs.Rendering
import Criteria.Proofs.DatePass
import Criteria.Proofs.Log
import Criteria.Proofs.Environment
