import Lispette.Main
import Lispette.Session
import Lispette.Proofs.Printing
import Lispette.Proofs.Metering
import Lispette.Proofs.Frames
import Lispette.Proofs.Limits
import Lispette.Proofs.Answers
import Lispette.Proofs.Places
import Lispette.Proofs.Standards
import Lispette.Proofs.Furnishing
import Lispette.Proofs.Reading
import Lispette.Proofs.Blame
import Lispette.Proofs.PromptLines
import Lispette.Proofs.Carets
import Lispette.Proofs.Mirrors
import Lispette.Proofs.Mirroring
import Lispette.Proofs.SessionStandards
import Lispette.Proofs.Isolation
import Lispette.Proofs.Repetition
import Lispette.Proofs.Relocation
import Lispette.Proofs.Layout
import Lispette.Proofs.Moves
import Lispette.Proofs.Seams
import Lispette.Proofs.Joining
import Lispette.Proofs.PromptRun
import Lispette.Proofs.Rewording
import Lispette.Proofs.Lexical
import Lispette.Proofs.Parameters
import Lispette.Proofs.Equations
import Lispette.Proofs.Stages
import Lispette.Proofs.StageStandards
import Lispette.Proofs.Literals
import Lispette.Proofs.Identity
import Lispette.Proofs.Bindings
import Lispette.Proofs.Choosing
import Lispette.Proofs.Missing
import Lispette.Proofs.Nodes
import Lispette.Proofs.SourceLines
import Lispette.Proofs.Visibility
import Lispette.Proofs.Comparing
import Lispette.Proofs.Shallow
import Lispette.Proofs.Retention
