import Idl.Inspect
import Idl.Main
import Idl.Proofs.Resolution
import Idl.Proofs.Growth
import Idl.Proofs.Frozen
import Idl.Proofs.Relocation
import Idl.Proofs.Spelling
import Idl.Proofs.Course
import Idl.Proofs.EvaluationOrder
import Idl.Proofs.Standing
import Idl.Proofs.Faults
import Idl.Proofs.Handover
import Idl.Proofs.Steady
import Idl.Proofs.WholeLines
import Idl.Proofs.Roster
import Idl.Proofs.Composition
import Idl.Proofs.Effects
import Idl.Proofs.Sections
import Idl.Proofs.Readings
import Idl.Proofs.Recovery
import Idl.Proofs.Blame
import Idl.Proofs.Enrolment
import Idl.Proofs.Legible
import Idl.Proofs.Redeclaration
import Idl.Proofs.Uniqueness
import Idl.Proofs.Acceptance
import Idl.Proofs.Translation
import Idl.Proofs.Ancestry
import Idl.Proofs.Numbering
import Idl.Proofs.Qualification
import Idl.Proofs.Siblings
import Idl.Proofs.Parameters
import Idl.Proofs.Comments
import Idl.Proofs.Rereading
import Idl.Proofs.Handles
import Idl.Proofs.Places
import Idl.Proofs.Interleaving
import Idl.Proofs.Objections
