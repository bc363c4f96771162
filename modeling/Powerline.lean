import Powerline.Main
import Powerline.Script.Line
import Powerline.Script.Waits
import Powerline.Script.Playbook
import Powerline.Script.Rehearsal
import Powerline.Proofs.Conservation
import Powerline.Proofs.Pairing
import Powerline.Proofs.Deadline
import Powerline.Proofs.Switch.Session
import Powerline.Proofs.Switch.Collision
import Powerline.Proofs.Switch.Completeness
import Powerline.Proofs.Switch.Clock
import Powerline.Proofs.Switch.Release
import Powerline.Proofs.Keeping
import Powerline.Proofs.Slot
import Powerline.Proofs.Interruption
import Powerline.Proofs.Owed
import Powerline.Proofs.Switch.Attempts
import Powerline.Proofs.Switch.Budget
import Powerline.Proofs.Switch.Retries
import Powerline.Proofs.Fragmentation
import Powerline.Proofs.Interest
import Powerline.Proofs.Calls
import Powerline.Proofs.Failure
import Powerline.Proofs.Switch.Atomicity
import Powerline.Proofs.Departure
import Powerline.Proofs.Registration
import Powerline.Proofs.Silence
import Powerline.Proofs.Rounding
import Powerline.Proofs.ClockFrame
import Powerline.Proofs.Listing
import Powerline.Proofs.Settings
import Powerline.Proofs.Switch.Accord
import Powerline.Proofs.Checked.Accepted
