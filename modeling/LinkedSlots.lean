import LinkedSlots.Store.Step
import LinkedSlots.Value.Policy
import LinkedSlots.Proofs.Joining
import LinkedSlots.Proofs.Rotation
import LinkedSlots.Proofs.UpdatingWalk
import LinkedSlots.Proofs.PlainStore
import LinkedSlots.Proofs.ChainSimulation
import LinkedSlots.Proofs.Mirroring
import LinkedSlots.Proofs.Clearing
import LinkedSlots.Proofs.Copying
import LinkedSlots.Proofs.Refinement
import LinkedSlots.Proofs.Links
import LinkedSlots.Proofs.Exhaustion
import LinkedSlots.Proofs.Account
import LinkedSlots.Proofs.Keeping
import LinkedSlots.Proofs.Settling
import LinkedSlots.Proofs.Copies
import LinkedSlots.Proofs.StoreSettling
import LinkedSlots.Proofs.CopySettling
import LinkedSlots.Proofs.Ownership
import LinkedSlots.Proofs.Faults
import LinkedSlots.Proofs.Turning
import LinkedSlots.Proofs.Lasting
import LinkedSlots.Proofs.Stability
import LinkedSlots.Proofs.Reservation
import LinkedSlots.Proofs.Twins
import LinkedSlots.Proofs.Lockstep
import LinkedSlots.Proofs.TwinStores
import LinkedSlots.Proofs.Layouts
import LinkedSlots.Proofs.Growth
import LinkedSlots.Proofs.Peak
import LinkedSlots.Proofs.Stacking
import LinkedSlots.Proofs.Recycling
import LinkedSlots.Proofs.Deque
import LinkedSlots.Proofs.Emptying
import LinkedSlots.Proofs.HandingOver
import LinkedSlots.Proofs.Discarding
import LinkedSlots.Proofs.Bystanders
import LinkedSlots.Proofs.Duplicating
import LinkedSlots.Proofs.Releasing
import LinkedSlots.Proofs.Reinserting
import LinkedSlots.Proofs.Coinciding
import LinkedSlots.Proofs.Rotating
import LinkedSlots.Proofs.InPlace
import LinkedSlots.Proofs.Positions
import LinkedSlots.Proofs.DeletionOrder
import LinkedSlots.Proofs.Searching
import LinkedSlots.Proofs.Consuming
import LinkedSlots.Proofs.Dialogue
import LinkedSlots.Proofs.Conversing
import LinkedSlots.Proofs.Speaking
import LinkedSlots.Proofs.Outfitting
import LinkedSlots.Proofs.Sharing
import LinkedSlots.Proofs.Complaining
import LinkedSlots.Proofs.Logging
