import ClockGating.Footprint
import ClockGating.Interleaving
import ClockGating.Mask.Table
import ClockGating.Mask.Text
import ClockGating.Replay
import ClockGating.Proofs.Assignment
import ClockGating.Proofs.Modification
import ClockGating.Proofs.Course
import ClockGating.Proofs.LastWriter
import ClockGating.Proofs.Confinement
import ClockGating.Proofs.Serialisation
import ClockGating.Proofs.SharedHandles
import ClockGating.Proofs.Resolution
import ClockGating.Proofs.Validity
import ClockGating.Proofs.Reserved
import ClockGating.Proofs.TradedGroups
import ClockGating.Proofs.AccessOrder
import ClockGating.Proofs.HandlesByGroups
import ClockGating.Proofs.SharedGroups
import ClockGating.Proofs.Exchange
import ClockGating.Proofs.LowPower
import ClockGating.Proofs.Omission
import ClockGating.Proofs.Possession
import ClockGating.Proofs.SecureWorld
import ClockGating.Proofs.Portability
import ClockGating.Proofs.Reconstruction
import ClockGating.Proofs.WrittenForm
import ClockGating.Proofs.ValidSets
import ClockGating.Proofs.ModeChange
import ClockGating.Proofs.SavedMode
import ClockGating.Proofs.Control
import ClockGating.Proofs.Undoing
import ClockGating.Proofs.MaskMeaning
