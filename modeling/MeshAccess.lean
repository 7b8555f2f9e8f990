import MeshAccess.Address.Endpoint
import MeshAccess.Address.IPv4
import MeshAccess.Address.IPv6
import MeshAccess.Alias
import MeshAccess.CommandLine.Command
import MeshAccess.CommandLine.Level
import MeshAccess.CommandLine.Run
import MeshAccess.Compiler
import MeshAccess.Duration
import MeshAccess.Email
import MeshAccess.Fixture
import MeshAccess.Json.Decode
import MeshAccess.Json.Fault
import MeshAccess.Json.Literal
import MeshAccess.Json.Number
import MeshAccess.Json.Printer
import MeshAccess.Json.Reading
import MeshAccess.Json.Record
import MeshAccess.Json.Token
import MeshAccess.Json.Value
import MeshAccess.LogLevel
import MeshAccess.Logins
import MeshAccess.Main
import MeshAccess.Matching
import MeshAccess.Node
import MeshAccess.OwnedNode
import MeshAccess.Policy.Document
import MeshAccess.Policy.Rule
import MeshAccess.Proofs.Accumulation
import MeshAccess.Proofs.Addresses
import MeshAccess.Proofs.Authorisation
import MeshAccess.Proofs.ByteOrder
import MeshAccess.Proofs.CandidateSources
import MeshAccess.Proofs.CheckUrls
import MeshAccess.Proofs.Destinations
import MeshAccess.Proofs.Encodings
import MeshAccess.Proofs.Entries
import MeshAccess.Proofs.FirstOccurrences
import MeshAccess.Proofs.GrantedLogins
import MeshAccess.Proofs.GroupMembers
import MeshAccess.Proofs.InsertedMembers
import MeshAccess.Proofs.JsonGrammar
import MeshAccess.Proofs.ListedLogins
import MeshAccess.Proofs.LiteralGrammar
import MeshAccess.Proofs.Matching
import MeshAccess.Proofs.NumberGrammar
import MeshAccess.Proofs.Numerals
import MeshAccess.Proofs.OwnEmail
import MeshAccess.Proofs.OwnScope
import MeshAccess.Proofs.PolicyFaults
import MeshAccess.Proofs.RecordingEndpoints
import MeshAccess.Proofs.Reordering
import MeshAccess.Proofs.RuleFaults
import MeshAccess.Proofs.SavedPolicies
import MeshAccess.Proofs.SavedSnapshots
import MeshAccess.Proofs.Selection
import MeshAccess.Proofs.SelfGrants
import MeshAccess.Proofs.SnapshotFaults
import MeshAccess.Proofs.SourceAddresses
import MeshAccess.Proofs.TagGrammar
import MeshAccess.Proofs.TaggedSources
import MeshAccess.Proofs.TokenGrammar
import MeshAccess.Proofs.Tokens
import MeshAccess.Proofs.UnrelatedMembers
import MeshAccess.Proofs.WellFormed
import MeshAccess.Proofs.WellFormedJson
import MeshAccess.Proofs.Widening
import MeshAccess.Proofs.WireDocuments
import MeshAccess.Proofs.WrittenJson
import MeshAccess.Recorder
import MeshAccess.Report
import MeshAccess.Settings
import MeshAccess.SettingsFile
import MeshAccess.Snapshot
import MeshAccess.SortedMap
import MeshAccess.StringSet
import MeshAccess.Tag
import MeshAccess.Text.Alphanumeric
import MeshAccess.Text.Blank
import MeshAccess.Text.DoublePrecision
import MeshAccess.Text.Hidden
import MeshAccess.Text.Positional
import MeshAccess.Text.Quoted
import MeshAccess.Text.RangeTable
import MeshAccess.Text.Split
import MeshAccess.Toml.Document
import MeshAccess.Toml.Scalar
import MeshAccess.Toml.Table
import MeshAccess.User
import MeshAccess.Wire
import MeshAccess.Yaml.Plain
import MeshAccess.Yaml.Printer
import MeshAccess.Yaml.Scalar
