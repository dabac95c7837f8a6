import Tabletop.Account
import Tabletop.Attempt
import Tabletop.Collection
import Tabletop.Die
import Tabletop.Formula.Basic
import Tabletop.Formula.Canonical
import Tabletop.Formula.Parse
import Tabletop.Formula.Rejection
import Tabletop.Formula.Written
import Tabletop.Handle
import Tabletop.Interchange.Container
import Tabletop.Interchange.Datum
import Tabletop.Interchange.Json
import Tabletop.Interchange.Reading
import Tabletop.Journal
import Tabletop.Main
import Tabletop.Play
import Tabletop.Proofs.Acts
import Tabletop.Proofs.Canonical
import Tabletop.Proofs.Catalogue
import Tabletop.Proofs.Checked
import Tabletop.Proofs.Chunks
import Tabletop.Proofs.Containers
import Tabletop.Proofs.Decimal
import Tabletop.Proofs.Draws
import Tabletop.Proofs.Exact
import Tabletop.Proofs.Faces
import Tabletop.Proofs.Fairness
import Tabletop.Proofs.Fields
import Tabletop.Proofs.Grammar
import Tabletop.Proofs.Handles
import Tabletop.Proofs.Json
import Tabletop.Proofs.Likeness
import Tabletop.Proofs.Members
import Tabletop.Proofs.Messages
import Tabletop.Proofs.Normalization
import Tabletop.Proofs.Numerals
import Tabletop.Proofs.Outcomes
import Tabletop.Proofs.Pattern
import Tabletop.Proofs.Pieces
import Tabletop.Proofs.Reading
import Tabletop.Proofs.Refreshing
import Tabletop.Proofs.Reports
import Tabletop.Proofs.Requests
import Tabletop.Proofs.Runs
import Tabletop.Proofs.Sameness
import Tabletop.Proofs.Transport
import Tabletop.Proofs.Trials
import Tabletop.Random.Bytes
import Tabletop.Random.Fraction
import Tabletop.Random.Supply
import Tabletop.Report
import Tabletop.Request
import Tabletop.Roll
import Tabletop.Session
import Tabletop.Text.Decimal
import Tabletop.Text.Extender
import Tabletop.Text.Ignorable
import Tabletop.Text.Json
import Tabletop.Text.Quoted
import Tabletop.Text.Ranges
import Tabletop.Text.Unprintable
