import Veriai.Core.Alone
import Veriai.Core.Base64
import Veriai.Core.Bytes
import Veriai.Core.Cbor
import Veriai.Core.Checklist
import Veriai.Core.Fields
import Veriai.Core.HashTree
import Veriai.Core.Json
import Veriai.Core.Ledger
import Veriai.Core.Loops
import Veriai.Core.PosixPath
import Veriai.Core.Program
import Veriai.Core.Progress
import Veriai.Core.Protocol
import Veriai.Core.Search
import Veriai.Core.SelfDelimiting
import Veriai.Core.Text
import Veriai.Types.Claims
import Veriai.Types.ClaimsMap
import Veriai.Types.Cose
import Veriai.Types.Document
import Veriai.Types.Error
import Veriai.Types.Schema
import Veriai.Types.Wire
import Veriai.Hashing.Identity
import Veriai.Hashing.ModelHash
import Veriai.Hashing.Reference
import Veriai.Receipt.Acceptance
import Veriai.Receipt.Agreement
import Veriai.Receipt.Concurrent
import Veriai.Receipt.Fingerprint
import Veriai.Receipt.Generate
import Veriai.Receipt.Payload
import Veriai.Receipt.Replay
import Veriai.Receipt.Restart
import Veriai.Receipt.Returned
import Veriai.Receipt.Shared
import Veriai.Receipt.Stages
import Veriai.Receipt.Timing
import Veriai.Receipt.Tolerance
import Veriai.Receipt.Transparent
import Veriai.Receipt.Truthful
import Veriai.Receipt.Verify
import Veriai.Attestation.Certificate
import Veriai.Attestation.Chain
import Veriai.Attestation.Mock
import Veriai.Attestation.Providers
import Veriai.Attestation.RootPem
import Veriai.Runtime.Completion
import Veriai.Runtime.LlamaCpp
import Veriai.Runtime.Prompt
import Veriai.Service.AtMostOnce
import Veriai.Service.Cancellation
import Veriai.Service.ChallengeParts
import Veriai.Service.Challenges
import Veriai.Service.Desk
import Veriai.Service.Ends
import Veriai.Service.Handlers
import Veriai.Service.Holding
import Veriai.Service.Ledger
import Veriai.Service.LedgerParts
import Veriai.Service.LedgerRules
import Veriai.Service.Locks
import Veriai.Service.OneTime
import Veriai.Service.Operations
import Veriai.Service.Outcomes
import Veriai.Service.Owners
import Veriai.Service.Persistence
import Veriai.Service.Reading
import Veriai.Service.Recorded
import Veriai.Service.Records
import Veriai.Service.Replay
import Veriai.Service.ReplayRules
import Veriai.Service.RoundTrip
import Veriai.Service.Runs
import Veriai.Service.Serving
import Veriai.Service.Solo
import Veriai.Service.Spending
import Veriai.Service.Standstill
import Veriai.Service.Startup
import Veriai.Service.StateFile
import Veriai.Service.Surroundings
import Veriai.Service.System
import Veriai.Service.Transaction
import Veriai.Service.Transparent
import Veriai.Service.Visits
import Veriai.Chat.Answers
import Veriai.Chat.Backed
import Veriai.Chat.Calls
import Veriai.Chat.Canonical
import Veriai.Chat.Handler
import Veriai.Chat.Inline
import Veriai.Chat.Slots
import Veriai.Chat.Startup
import Veriai.Chat.Transparent
import Veriai.Clients.Cli
import Veriai.Clients.Generate
import Veriai.Clients.Hardware
import Veriai.Clients.Session
import Veriai.Clients.SessionAlone
import Veriai.Clients.SessionFile
import Veriai.Clients.SessionProtocol
import Veriai.Clients.SessionRuns
import Veriai.Clients.Transport
import Veriai.Clients.Wasm
