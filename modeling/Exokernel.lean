import Exokernel.EnvId.Decimal
import Exokernel.Cpu.LockSet
import Exokernel.Machine.Boot
import Exokernel.User.Messages
import Exokernel.User.Program
import Exokernel.User.Scripted
import Exokernel.Kernel.View
import Exokernel.Machine.Service
import Exokernel.Proofs.Effects
import Exokernel.Proofs.Changes
import Exokernel.Proofs.Answers
import Exokernel.Proofs.Calls
import Exokernel.Proofs.Ownership
import Exokernel.Proofs.Memory
import Exokernel.Proofs.Usage
import Exokernel.Proofs.Spaces
import Exokernel.Proofs.Pages
import Exokernel.Proofs.Refusals
import Exokernel.Proofs.Entries
import Exokernel.Proofs.Isolation
import Exokernel.Proofs.Deferral
import Exokernel.Proofs.Histories
import Exokernel.Proofs.Reaping
import Exokernel.Proofs.Turns
import Exokernel.Proofs.Mailboxes
import Exokernel.Proofs.Waiting
import Exokernel.Proofs.Contexts
import Exokernel.Proofs.Rounds
import Exokernel.Proofs.Exits
import Exokernel.Proofs.Rights
import Exokernel.Proofs.Origins
import Exokernel.Proofs.Descent
import Exokernel.Proofs.Generations
import Exokernel.Proofs.Replies
import Exokernel.Proofs.Fairness
import Exokernel.Proofs.Worlds
import Exokernel.Proofs.Mappings
import Exokernel.Proofs.Sharing
import Exokernel.Proofs.Remapping
import Exokernel.Proofs.Obedience
import Exokernel.Proofs.Coherence
import Exokernel.Proofs.Turning
import Exokernel.Proofs.Plays
import Exokernel.Proofs.CopyOnWrite
import Exokernel.Proofs.Alone
import Exokernel.Proofs.Children
import Exokernel.Proofs.Tables
import Exokernel.Proofs.Topologies
import Exokernel.Proofs.Acceptance
import Exokernel.Proofs.Discovery
import Exokernel.Proofs.Reads
import Exokernel.Proofs.Filling
import Exokernel.Proofs.Reservation
import Exokernel.Proofs.Strokes
import Exokernel.Proofs.Startup
import Exokernel.Proofs.Setup
import Exokernel.Proofs.Seating
import Exokernel.Proofs.Populating
import Exokernel.Proofs.Boot
import Exokernel.Proofs.Locks
import Exokernel.Proofs.Marked
import Exokernel.Proofs.Tandem
import Exokernel.Proofs.Accord
import Exokernel.Proofs.Independence
import Exokernel.Proofs.Policies
import Exokernel.Proofs.Picking
import Exokernel.Proofs.Rotation
import Exokernel.Proofs.Exchanges
import Exokernel.Proofs.Forking
import Exokernel.Proofs.Handling
import Exokernel.Proofs.Lines
