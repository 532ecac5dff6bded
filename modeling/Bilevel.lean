import Bilevel.Scalar.Extended
import Bilevel.Scalar.Double
import Bilevel.Program.Session
import Bilevel.Sampling.Dense
import Bilevel.Toll.Session
import Bilevel.Proofs.Feasibility
import Bilevel.Proofs.History
import Bilevel.Proofs.Acceptance
import Bilevel.Proofs.Diagnostics
import Bilevel.Proofs.Sampling.Delivery
import Bilevel.Proofs.Toll.Options
import Bilevel.Proofs.Toll.Answer
import Bilevel.Proofs.Graph.Orientation
import Bilevel.Proofs.Toll.Conservation
import Bilevel.Proofs.Toll.Trails
import Bilevel.Proofs.Toll.Admission
import Bilevel.Proofs.Toll.Untolled
import Bilevel.Proofs.Toll.Walks
import Bilevel.Proofs.Toll.Decoding
import Bilevel.Proofs.Precedence
import Bilevel.Proofs.Text.Parts
import Bilevel.Proofs.Toll.Numbering
import Bilevel.Proofs.Objectives
