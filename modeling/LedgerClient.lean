import LedgerClient.Client.Config
import LedgerClient.Form.Schema
import LedgerClient.Json.Text
import LedgerClient.Proofs.Schema.RoundTrip
import LedgerClient.Proofs.Signing.Unambiguous
import LedgerClient.Proofs.Wait.Decision
import LedgerClient.Session
import LedgerClient.Client.Shared
import LedgerClient.Proofs.Ledger.History
import LedgerClient.Proofs.Shared.Steps
import LedgerClient.Proofs.Shared.Expiration
import LedgerClient.Proofs.Threshold.Verification
import LedgerClient.Proofs.Wait.Timing
import LedgerClient.Proofs.Wait.Cancellation
import LedgerClient.Proofs.Wait.Resubmission
import LedgerClient.Proofs.Schema.Truncation
import LedgerClient.Proofs.Text.Hex
import LedgerClient.Proofs.Signing.Delivery
import LedgerClient.Proofs.Signing.Composition
import LedgerClient.Proofs.Ledger.Convergence
import LedgerClient.Proofs.Threshold.Representation
import LedgerClient.Proofs.Account.Separation
import LedgerClient.Proofs.Wire.Shortest
import LedgerClient.Proofs.Wire.Refusal
import LedgerClient.Proofs.Schema.Nesting
import LedgerClient.Proofs.Signing.Contributions
import LedgerClient.Proofs.Wait.Polling
import LedgerClient.Proofs.Wait.Expiry
import LedgerClient.Proofs.Wait.Recognition
import LedgerClient.Proofs.Wait.LateToken
import LedgerClient.Proofs.Signing.Attestation
import LedgerClient.Proofs.Threshold.KeyBytes
import LedgerClient.Proofs.Rpc.Reply
import LedgerClient.Proofs.Record.Fields
import LedgerClient.Proofs.Rpc.Envelope
import LedgerClient.Proofs.Rpc.Precedence
import LedgerClient.Octets.Json
import LedgerClient.Proofs.Wire.ByteString
import LedgerClient.Proofs.TypeTag.Readability
import LedgerClient.Proofs.Octets.Reading
import LedgerClient.Proofs.Record.Changes
import LedgerClient.Proofs.Schema.Progress
import LedgerClient.Proofs.Schema.Session
import LedgerClient.Proofs.Schema.Names
