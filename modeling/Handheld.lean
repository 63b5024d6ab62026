import Handheld.FlatMemory
import Handheld.Machine.Query
import Handheld.Proofs.CircularMemory
import Handheld.Proofs.Machine.Addresses
import Handheld.Proofs.Machine.Attention
import Handheld.Proofs.Machine.Backup
import Handheld.Proofs.Machine.Batching
import Handheld.Proofs.Machine.Bounds
import Handheld.Proofs.Machine.Buttons
import Handheld.Proofs.Machine.ByteLanes
import Handheld.Proofs.Machine.Forgetting
import Handheld.Proofs.Machine.Header
import Handheld.Proofs.Machine.NarrowBus
import Handheld.Proofs.Machine.Progress
import Handheld.Proofs.Machine.RegisterBytes
import Handheld.Proofs.Machine.Requests
import Handheld.Proofs.Machine.Slices
import Handheld.Proofs.Machine.Stopped
import Handheld.Proofs.Machine.Triggers
import Handheld.Proofs.Machine.Wakeup
import Handheld.Proofs.Machine.WorkRam
import Handheld.Proofs.Processor.Banks
import Handheld.Proofs.Processor.BlockTransfer
import Handheld.Proofs.Processor.Calls
import Handheld.Proofs.Processor.CarryChains
import Handheld.Proofs.Processor.Confinement
import Handheld.Proofs.Processor.DataProcessing
import Handheld.Proofs.Processor.Equivalents
import Handheld.Proofs.Processor.LongProducts
import Handheld.Proofs.Processor.Multiplier
import Handheld.Proofs.Processor.RepeatedShifts
import Handheld.Proofs.Processor.Retiming
import Handheld.Proofs.Processor.SingleTransfers
import Handheld.Proofs.Processor.Stack
import Handheld.Proofs.Processor.Storage
import Handheld.Proofs.Processor.Undefined
import Handheld.Proofs.Processor.UserSlot
