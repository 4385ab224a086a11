import Confium.Lib.Hash
import Confium.Lib.Run
import Confium.Lib.Simulation
import Confium.Lib.Heap
import Confium.Lib.Progress
import Confium.Lib.Network
import Confium.Lib.Value
import Confium.Lib.Hex
import Confium.Lib.Base64
import Confium.Lib.Lines
import Confium.Lib.Json
import Confium.Lib.RString
import Confium.Lib.Raises
import Confium.Lib.Effect
import Confium.Lib.Merkle
import Confium.Lib.MerkleTree
import Confium.Lib.Radix
import Confium.Lib.JsonText
import Confium.Lib.Crc
import Confium.Lib.LinearPower
import Confium.Lib.CrcFlips
import Confium.Core.Errors
import Confium.Core.Fields
import Confium.Core.SigningSession
import Confium.Core.Coordinator
import Confium.Core.NetworkCoordinator
import Confium.Core.SignerClient
import Confium.Core.Connections
import Confium.Core.Serve
import Confium.Core.OpenPGP
import Confium.Core.NativeWindows
import Confium.Core.TypedErrors
import Confium.Core.ShareFile
import Confium.Core.Composite
import Confium.Core.Cms
import Confium.Core.Reports
import Confium.Core.Policy
import Confium.Core.OtlpSink
import Confium.Core.Native
import Confium.Core.Transparency
import Confium.Core.Audit
import Confium.Core.Mta
import Confium.Core.Signing
import Confium.Core.CallerVerifiers
import Confium.Core.Threshold
import Confium.Core.Parsers
import Confium.Core.TransportClient
import Confium.Core.OpenPgpVerify
import Confium.Core.SecureBytes
import Confium.Core.Sinks
import Confium.Core.MerkleTree
import Confium.Core.SignedDataBuilder
import Confium.Core.Combine
import Confium.Core.AcceptLoop
import Confium.Core.CalendarClient
import Confium.Core.DigestCalls
import Confium.Theory.Loader
import Confium.Theory.ErrorForms
import Confium.Theory.Lifecycle
import Confium.Theory.Registry
import Confium.Theory.Atomicity
import Confium.Theory.Quorum
import Confium.Theory.WirePath
import Confium.Theory.Framing
import Confium.Theory.ArmorReader
import Confium.Theory.ArmorRejection
import Confium.Theory.Armor
import Confium.Theory.ArmorTexts
import Confium.Theory.Checksum
import Confium.Theory.BitwiseCrc
import Confium.Theory.FlippedBits
import Confium.Theory.Transport
import Confium.Theory.HexFields
import Confium.Theory.Signers
import Confium.Theory.Reports
import Confium.Theory.CallerVerifiers
import Confium.Theory.Fips
import Confium.Theory.AllowList
import Confium.Theory.Delivery
import Confium.Theory.Retries
import Confium.Theory.LogRecords
import Confium.Theory.Inclusion
import Confium.Theory.MtaCodec
import Confium.Theory.Leakage
import Confium.Theory.ShareFiles
import Confium.Theory.Confluence
import Confium.Theory.EmptyQuorum
import Confium.Theory.AuditTrail
import Confium.Theory.Screens
import Confium.Theory.SizeCap
import Confium.Theory.SessionMessages
import Confium.Theory.SecureBytes
import Confium.Theory.Sinks
import Confium.Theory.MerkleTree
import Confium.Theory.SignedDataBuilder
import Confium.Theory.CompositeTravels
import Confium.Theory.MtaOverJson
import Confium.Theory.Combine
import Confium.Theory.Ceremony
import Confium.Theory.AcceptLoop
import Confium.Theory.SessionRuns
import Confium.Theory.CalendarClient
