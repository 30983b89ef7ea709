import WorkloadAdmission.Service
import WorkloadAdmission.Proofs.Fallible
import WorkloadAdmission.Proofs.Fields
import WorkloadAdmission.Proofs.Path
import WorkloadAdmission.Proofs.Rounding
import WorkloadAdmission.Proofs.Shortest
import WorkloadAdmission.Proofs.Manifest
import WorkloadAdmission.Proofs.Quantity
import WorkloadAdmission.Proofs.Reduction
import WorkloadAdmission.Proofs.Shrinking
import WorkloadAdmission.Proofs.Settling
import WorkloadAdmission.Proofs.Hosts
import WorkloadAdmission.Proofs.Steering
import WorkloadAdmission.Proofs.Reinvocation
import WorkloadAdmission.Proofs.AdmissionRun
import WorkloadAdmission.Proofs.Answering
import WorkloadAdmission.Proofs.FailOpen
import WorkloadAdmission.Proofs.Taints
import WorkloadAdmission.Proofs.Draining
import WorkloadAdmission.Proofs.Reconciling
import WorkloadAdmission.Proofs.Footprint
import WorkloadAdmission.Proofs.Applicability
import WorkloadAdmission.Proofs.Coherence
import WorkloadAdmission.Proofs.Magnitude
import WorkloadAdmission.Proofs.Publication
import WorkloadAdmission.Proofs.Writability
import WorkloadAdmission.Proofs.Status
import WorkloadAdmission.Proofs.Reordering
import WorkloadAdmission.Proofs.Consistency
import WorkloadAdmission.Proofs.Encoding
import WorkloadAdmission.Proofs.Literal
import WorkloadAdmission.Proofs.Nearest
import WorkloadAdmission.Proofs.Notation
import WorkloadAdmission.Proofs.Document
import WorkloadAdmission.Proofs.Wire
import WorkloadAdmission.Proofs.Convergence
import WorkloadAdmission.Proofs.Overflow
import WorkloadAdmission.Proofs.Visibility
import WorkloadAdmission.Proofs.Countability
import WorkloadAdmission.Proofs.Precision
import WorkloadAdmission.Proofs.Exactness
import WorkloadAdmission.Proofs.Spelling
import WorkloadAdmission.Proofs.Printing
import WorkloadAdmission.Proofs.Decrease
import WorkloadAdmission.Proofs.Tens
import WorkloadAdmission.Proofs.Relabelling
import WorkloadAdmission.Proofs.Shape
import WorkloadAdmission.Proofs.Classifying
import WorkloadAdmission.Proofs.Consultation
import WorkloadAdmission.Proofs.Exclusion
import WorkloadAdmission.Proofs.Concatenation
import WorkloadAdmission.Proofs.Segments
import WorkloadAdmission.Proofs.Serialization
import WorkloadAdmission.Proofs.Configuration
import WorkloadAdmission.Proofs.Monotonicity
