import UnidppTrust.Outcome
import UnidppTrust.Text
import UnidppTrust.Json
import UnidppTrust.JsonText
import UnidppTrust.JsonParser
import UnidppTrust.JsonRoundTrip
import UnidppTrust.JsonScan
import UnidppTrust.JsonShape
import UnidppTrust.SerdeJson
import UnidppTrust.LineLog
import UnidppTrust.Distinct
import UnidppTrust.LastWrite
import UnidppTrust.KeyedUnion
import UnidppTrust.Refill
import UnidppTrust.Shuffle
import UnidppTrust.Hex
import UnidppTrust.Calendar
import UnidppTrust.Time
import UnidppTrust.Signatif
import UnidppTrust.Wire
import UnidppTrust.WireForms
import UnidppTrust.WireRoundTrip
import UnidppTrust.Record
import UnidppTrust.RecordRoundTrip
import UnidppTrust.Quorum
import UnidppTrust.Seed
import UnidppTrust.SeedLaws
import UnidppTrust.Store
import UnidppTrust.Nodes
import UnidppTrust.Mutation
import UnidppTrust.Accepted
import UnidppTrust.Journal
import UnidppTrust.JournalLines
import UnidppTrust.Run
import UnidppTrust.Http
import UnidppTrust.Reference
import UnidppTrust.Restart
import UnidppTrust.Crash
import UnidppTrust.WriteFailure
import UnidppTrust.Distrust
import UnidppTrust.Gating
import UnidppTrust.Views
import UnidppTrust.Api
import UnidppTrust.Keyed
import UnidppTrust.Lists
import UnidppTrust.Registrations
import UnidppTrust.Ceremony
import UnidppTrust.CeremonyBodies
import UnidppTrust.PointInTime
import UnidppTrust.Shadow
import UnidppTrust.Confidential
import UnidppTrust.Unauthenticated
import UnidppTrust.Handlers
import UnidppTrust.Instants
import UnidppTrust.Witnesses
import UnidppTrust.Attestations
import UnidppTrust.Windows
import UnidppTrust.Numbering
import UnidppTrust.Decoders
import UnidppTrust.Refusals
import UnidppTrust.Replay
import UnidppTrust.Verdict
import UnidppTrust.Acceptance
import UnidppTrust.Unordered
import UnidppTrust.Releases
import UnidppTrust.Gregorian
import UnidppTrust.CivilDays
import UnidppTrust.TimeGrammar
import UnidppTrust.Httpc
import UnidppTrust.ChunkGrammar
import UnidppTrust.ChunkedStream
import UnidppTrust.Incremental
import UnidppTrust.Locking
import UnidppTrust.Url
import UnidppTrust.Client
import UnidppTrust.ClientReads
import UnidppTrust.ClientMessages
import UnidppTrust.Statuses
import UnidppTrust.Service
import UnidppTrust.Reading
import UnidppTrust.Declarations
import UnidppTrust.CeremonyPosts
import UnidppTrust.ServiceRestarts
import UnidppTrust.Mirroring
import UnidppTrust.MasterMirroring
import UnidppTrust.Operators
import UnidppTrust.Concurrent
import UnidppTrust.Regions
import UnidppTrust.Keyring
import UnidppTrust.FlagLine
import UnidppTrust.CommandLine
