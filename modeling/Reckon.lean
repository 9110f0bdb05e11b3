import Reckon.Main
import Reckon.Session
import Reckon.Proofs.Writing
import Reckon.Proofs.Calculation
import Reckon.Proofs.Summands
import Reckon.Proofs.Faults
import Reckon.Proofs.Groups
import Reckon.Proofs.Unclosed
import Reckon.Proofs.Spaces
import Reckon.Proofs.Loading
import Reckon.Proofs.Positions
import Reckon.Proofs.Shapes
import Reckon.Proofs.Checks
import Reckon.Proofs.Progress
import Reckon.Proofs.Pairs
import Reckon.Proofs.Delimiters
import Reckon.Proofs.Absorption
import Reckon.Proofs.SignedGroups
import Reckon.Proofs.Sweeps
import Reckon.Proofs.Turns
import Reckon.Proofs.Precision
import Reckon.Proofs.Answers
import Reckon.Proofs.Lookahead
import Reckon.Proofs.Literals
