import ManagedObjects.Options.Document
import ManagedObjects.Proofs.Arena.Cells
import ManagedObjects.Proofs.Machine.Calls
import ManagedObjects.Proofs.Machine.Contents
import ManagedObjects.Proofs.Machine.Failure
import ManagedObjects.Proofs.Machine.Fields
import ManagedObjects.Proofs.Machine.Finalization
import ManagedObjects.Proofs.Machine.Identity
import ManagedObjects.Proofs.Machine.Immutability
import ManagedObjects.Proofs.Machine.References
import ManagedObjects.Proofs.Machine.Refusal
import ManagedObjects.Proofs.Machine.Release
import ManagedObjects.Proofs.Machine.TypeObjects
import ManagedObjects.Proofs.Machine.Typing
import ManagedObjects.Proofs.Options.Limits
import ManagedObjects.Proofs.Output.Lines
import ManagedObjects.Proofs.Protocol.IdentityText
import ManagedObjects.Proofs.Registry.Bindings
import ManagedObjects.Proofs.Registry.Extension
import ManagedObjects.Proofs.Registry.Freezing
import ManagedObjects.Proofs.Registry.Overriding
import ManagedObjects.Proofs.Signature.Diagnostics
import ManagedObjects.Proofs.Slot.Exactness
import ManagedObjects.Proofs.Trap.Contract
import ManagedObjects.Proofs.Trap.Direct
import ManagedObjects.Proofs.Trap.Entering
import ManagedObjects.Proofs.Trap.Nesting
import ManagedObjects.Proofs.Trap.Reentry
import ManagedObjects.Recording
import ManagedObjects.Registry.Text
import ManagedObjects.Slot.Codec
import ManagedObjects.Slot.Text
