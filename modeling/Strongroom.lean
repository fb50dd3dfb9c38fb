import Strongroom.Settings.Load
import Strongroom.Wire.ResponseReader
import Strongroom.Wire.Server
import Strongroom.Proofs.Path.Shown
import Strongroom.Proofs.Registry.Interchange
import Strongroom.Proofs.Access.SessionHistory
import Strongroom.Proofs.Vault.Atomicity
import Strongroom.Proofs.Vault.Limits
import Strongroom.Proofs.Vault.Integrity
import Strongroom.Proofs.Vault.Contents
import Strongroom.Proofs.Vault.Whereabouts
import Strongroom.Proofs.Vault.Privacy
import Strongroom.Proofs.Vault.Passwords
import Strongroom.Proofs.Wire.Framing
import Strongroom.Proofs.Json.Written
import Strongroom.Proofs.Bytes.Base64
import Strongroom.Proofs.Json.Reading
import Strongroom.Proofs.Wire.Acceptance
import Strongroom.Proofs.Wire.RoundTrip
import Strongroom.Proofs.Access.Interleaving
import Strongroom.Proofs.Access.SignupRace
import Strongroom.Proofs.Access.SessionRace
import Strongroom.Proofs.FileTree.Refusals
import Strongroom.Proofs.Vault.Checks
import Strongroom.Proofs.Vault.Admission
import Strongroom.Proofs.Quota
import Strongroom.Proofs.FileTree.Grounded
import Strongroom.Proofs.FileTree.Places
import Strongroom.Proofs.Vault.SingleEntry
import Strongroom.Proofs.Registry.UserRows
import Strongroom.Proofs.Access.NewAccounts
import Strongroom.Proofs.FileTree.Removal
import Strongroom.Proofs.Vault.Deletion
import Strongroom.Proofs.Text.Fields
import Strongroom.Proofs.UsageReport
import Strongroom.Proofs.Path.Canonical
import Strongroom.Proofs.Wire.Serving
import Strongroom.Proofs.Decimal.Spelling
import Strongroom.Proofs.Settings.Overrides
import Strongroom.Proofs.Access.Verification
