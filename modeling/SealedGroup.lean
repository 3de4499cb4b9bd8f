import SealedGroup.Main
import SealedGroup.Service.Fault
import SealedGroup.Json.Number
import SealedGroup.Json.Reader
import SealedGroup.Proofs.Rotation.Interleaving
import SealedGroup.Proofs.Edit.Refusal
import SealedGroup.Proofs.Edit.Retention
import SealedGroup.Proofs.Edit.Removal
import SealedGroup.Proofs.Edit.Order
import SealedGroup.Proofs.Edit.Messages
import SealedGroup.Proofs.Edit.Administrators
import SealedGroup.Proofs.Rotation.Outcomes
import SealedGroup.Proofs.Rotation.Registry
import SealedGroup.Proofs.Edit.Repetition
import SealedGroup.Proofs.Edit.Independence
import SealedGroup.Proofs.Json.Forms
import SealedGroup.Proofs.Edit.Storing
import SealedGroup.Proofs.Ledger.Histories
import SealedGroup.Proofs.Ledger.GroupLog
import SealedGroup.Proofs.Service.Partition
import SealedGroup.Proofs.Edit.Classification
import SealedGroup.Proofs.Edit.FailedRotation
import SealedGroup.Proofs.KeyPair.Frames
import SealedGroup.Proofs.KeyPair.Batch
import SealedGroup.Proofs.Edit.Silence
import SealedGroup.Proofs.Edit.Invitation
import SealedGroup.Proofs.KeyPair.HexForm
import SealedGroup.Proofs.Identifier.Correspondence
import SealedGroup.Proofs.Edit.Notices
import SealedGroup.Proofs.Edit.Snapshots
import SealedGroup.Proofs.Demo.Runs
