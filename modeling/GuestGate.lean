import GuestGate.Session
import GuestGate.Proofs.ProcessControl
import GuestGate.Proofs.CopyBack
import GuestGate.Proofs.Locality
import GuestGate.Proofs.Trichotomy
import GuestGate.Proofs.Segments
import GuestGate.Proofs.Discretion
import GuestGate.Proofs.History
import GuestGate.Proofs.RoundTrip
import GuestGate.Proofs.Holds
import GuestGate.Proofs.TrappedReceive
import GuestGate.Proofs.CopyIn
import GuestGate.Proofs.Crashes
import GuestGate.Proofs.CrashFree
import GuestGate.Proofs.Growth
import GuestGate.Proofs.Pops
import GuestGate.Proofs.AuditTrail
import GuestGate.Proofs.FloatLiteral
import GuestGate.Proofs.Rendering
import GuestGate.Proofs.Reports
