import Guardianship.Command
import Guardianship.Guardian.Journal
import Guardianship.Main
import Guardianship.Mediator.Journal
import Guardianship.Proofs.Ceremony.Accusations
import Guardianship.Proofs.Ceremony.Honest
import Guardianship.Proofs.Dealing
import Guardianship.Proofs.Disputes
import Guardianship.Proofs.Guardian.Arrivals
import Guardianship.Proofs.Guardian.Consistency
import Guardianship.Proofs.Guardian.Peers
import Guardianship.Proofs.Guardian.Places
import Guardianship.Proofs.Guardian.Quorum
import Guardianship.Proofs.Mediator.Batches
import Guardianship.Proofs.Mediator.Delivery
import Guardianship.Proofs.Mediator.Disclosures
import Guardianship.Proofs.Mediator.EarlyVerdicts
import Guardianship.Proofs.Mediator.Rosters
import Guardianship.Proofs.Mediator.Threshold
import Guardianship.Proofs.Message.Kinds
import Guardianship.Proofs.Octets.Fields
import Guardianship.Proofs.Suite.Canonical
import Guardianship.Proofs.Transcript
import Guardianship.Randomness.KeyStream
import Guardianship.Suite.Standard
