import SoftConfirm.Api
import SoftConfirm.Attestation
import SoftConfirm.Binary64
import SoftConfirm.Bytes
import SoftConfirm.Chain
import SoftConfirm.Chain.Production
import SoftConfirm.Chain.Wire
import SoftConfirm.CommandLine
import SoftConfirm.CommandLine.Grammar
import SoftConfirm.Crypto.Ecdsa
import SoftConfirm.Crypto.Keccak
import SoftConfirm.Crypto.Scheme
import SoftConfirm.Crypto.Secp256k1
import SoftConfirm.Crypto.Sha256
import SoftConfirm.Description
import SoftConfirm.ErrorReport
import SoftConfirm.FileSystem
import SoftConfirm.Hex
import SoftConfirm.Http
import SoftConfirm.Identifier
import SoftConfirm.Issuance
import SoftConfirm.Issuance.Call
import SoftConfirm.Issuance.Interleaving
import SoftConfirm.Json.Number
import SoftConfirm.Json.Reader
import SoftConfirm.Json.Term
import SoftConfirm.Json.Token
import SoftConfirm.Json.Value
import SoftConfirm.KeyFile
import SoftConfirm.KeySource
import SoftConfirm.Launch
import SoftConfirm.LogFilter
import SoftConfirm.Main
import SoftConfirm.Metrics
import SoftConfirm.Node
import SoftConfirm.Node.Live
import SoftConfirm.Proofs.Binding
import SoftConfirm.Proofs.Hex
import SoftConfirm.Proofs.Json.Building
import SoftConfirm.Proofs.Json.Canonical
import SoftConfirm.Proofs.Json.Scanning
import SoftConfirm.Proofs.Json.Tokens
import SoftConfirm.Proofs.Production
import SoftConfirm.Proofs.ProvedSigners
import SoftConfirm.Proofs.Quantity
import SoftConfirm.Proofs.Quantity.Digits
import SoftConfirm.Proofs.Receipt.Columns
import SoftConfirm.Proofs.Receipt.Filling
import SoftConfirm.Proofs.Receipt.RoundTrip
import SoftConfirm.Proofs.Rely
import SoftConfirm.Proofs.Visibility
import SoftConfirm.Quantity
import SoftConfirm.Receipt
import SoftConfirm.Receipt.Verification
import SoftConfirm.Receipt.Wire
import SoftConfirm.Rpc
import SoftConfirm.Settings
import SoftConfirm.Signal
import SoftConfirm.Signature
import SoftConfirm.SignerSet
import SoftConfirm.Simulation
import SoftConfirm.Text.Alphanumeric
import SoftConfirm.Text.Blank
import SoftConfirm.Text.CommaList
import SoftConfirm.Text.Numeral
import SoftConfirm.Text.Quoted
import SoftConfirm.Text.Unprintable
import SoftConfirm.Text.Utf8
import SoftConfirm.Timestamp
import SoftConfirm.Transaction
import SoftConfirm.Proofs.Offline
import SoftConfirm.Node.Managed
import SoftConfirm.Proofs.Turns
import SoftConfirm.Proofs.OneSet
import SoftConfirm.Issuance.Conduct
import SoftConfirm.Proofs.Stopping
import SoftConfirm.Proofs.Targets
import SoftConfirm.Node.History
import SoftConfirm.Proofs.Routes
import SoftConfirm.Proofs.Attempts
import SoftConfirm.Proofs.History
import SoftConfirm.Proofs.Heights
import SoftConfirm.Proofs.SignerSet
import SoftConfirm.Proofs.Receipt.Entries
import SoftConfirm.Proofs.Conservation
import SoftConfirm.Proofs.Promise
import SoftConfirm.Proofs.ActiveSet
import SoftConfirm.Node.Service
import SoftConfirm.Proofs.Json.Agreement
import SoftConfirm.Proofs.Json.Members
import SoftConfirm.Proofs.Json.Reading
import SoftConfirm.Proofs.Receipt.Format
import SoftConfirm.Proofs.Receipt.Streaming
import SoftConfirm.Proofs.Spelling
import SoftConfirm.Proofs.Trimming
import SoftConfirm.Proofs.Gateways
import SoftConfirm.Proofs.Requests
import SoftConfirm.Proofs.Metrics
import SoftConfirm.Proofs.Resolving
import SoftConfirm.Proofs.AllOrNothing
import SoftConfirm.Proofs.Effects
import SoftConfirm.Proofs.KeyFile
import SoftConfirm.Proofs.FileSystem.Paths
import SoftConfirm.Proofs.KeyFile.Secrets
import SoftConfirm.Proofs.KeyFile.Safety
import SoftConfirm.Proofs.KeySource.Entries
import SoftConfirm.Proofs.CommandLine.Environment
import SoftConfirm.Proofs.KeySource.Loading
import SoftConfirm.Proofs.KeySource.Selection
import SoftConfirm.Proofs.Presentation
import SoftConfirm.Proofs.Blocks
import SoftConfirm.Proofs.Hex.Reading
import SoftConfirm.Proofs.Submissions
import SoftConfirm.Proofs.Envelopes
import SoftConfirm.Proofs.KeySource.Secrecy
import SoftConfirm.Proofs.CommaList
import SoftConfirm.Proofs.Numerals
import SoftConfirm.Proofs.Settings
