import SliceRecovery.Files.OnTree
import SliceRecovery.Main
import SliceRecovery.Proofs.Account
import SliceRecovery.Proofs.AppendOnly
import SliceRecovery.Proofs.Atomicity
import SliceRecovery.Proofs.Batches
import SliceRecovery.Proofs.BlockScope
import SliceRecovery.Proofs.Cancelling
import SliceRecovery.Proofs.Clearing
import SliceRecovery.Proofs.Contents
import SliceRecovery.Proofs.Decoding
import SliceRecovery.Proofs.ExactWidths
import SliceRecovery.Proofs.FinalVariables
import SliceRecovery.Proofs.FirstReference
import SliceRecovery.Proofs.Forms
import SliceRecovery.Proofs.Independence
import SliceRecovery.Proofs.Initialising
import SliceRecovery.Proofs.Integers
import SliceRecovery.Proofs.JsonTokens
import SliceRecovery.Proofs.JsonTrees
import SliceRecovery.Proofs.Layout
import SliceRecovery.Proofs.Listing
import SliceRecovery.Proofs.Loading
import SliceRecovery.Proofs.Numerals
import SliceRecovery.Proofs.Overflows
import SliceRecovery.Proofs.Placing
import SliceRecovery.Proofs.ReadOnlyReach
import SliceRecovery.Proofs.Rearranging
import SliceRecovery.Proofs.Recording
import SliceRecovery.Proofs.Records
import SliceRecovery.Proofs.Rejections
import SliceRecovery.Proofs.Repeating
import SliceRecovery.Proofs.Resizing
import SliceRecovery.Proofs.Saving
import SliceRecovery.Proofs.StoredDetails
import SliceRecovery.Proofs.UndoUnits
import SliceRecovery.Proofs.Upgrading
import SliceRecovery.Proofs.Validating
import SliceRecovery.Proofs.Versions
