import MemStream.Session.Command
import MemStream.Store.Tally
import MemStream.Proofs.Expiry
import MemStream.Proofs.Mirror
import MemStream.Proofs.Safety
import MemStream.Proofs.Counting
import MemStream.Proofs.Standing
import MemStream.Proofs.Harvest
import MemStream.Proofs.Authenticity
import MemStream.Proofs.Delivery
import MemStream.Proofs.Availability
import MemStream.Proofs.Discretion
import MemStream.Proofs.Sides
import MemStream.Proofs.History
import MemStream.Proofs.Replay
import MemStream.Proofs.Lives
import MemStream.Proofs.Lifecycle
import MemStream.Proofs.Encoding
import MemStream.Proofs.RoundTrip
import MemStream.Proofs.InPlace
import MemStream.Proofs.Landing
import MemStream.Proofs.Settling
import MemStream.Proofs.Draining
import MemStream.Proofs.Piecewise
import MemStream.Proofs.Insisting
import MemStream.Proofs.Warning
