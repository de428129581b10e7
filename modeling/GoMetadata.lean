import GoMetadata.Bazel.Client
import GoMetadata.Bazel.Recording
import GoMetadata.BuildEvent
import GoMetadata.CommandLine
import GoMetadata.Decimal
import GoMetadata.Dialogue
import GoMetadata.Error
import GoMetadata.FileSet
import GoMetadata.FileTree
import GoMetadata.Host
import GoMetadata.Json.Basic
import GoMetadata.Json.Reader
import GoMetadata.Json.Writer
import GoMetadata.Label
import GoMetadata.Main
import GoMetadata.Package
import GoMetadata.Proofs.Bazel.Client
import GoMetadata.Proofs.Bazel.Commands
import GoMetadata.Proofs.BuildEvent.Concatenation
import GoMetadata.Proofs.BuildEvent.Extension
import GoMetadata.Proofs.BuildEvent.Fields
import GoMetadata.Proofs.BuildEvent.Flags
import GoMetadata.Proofs.BuildEvent.Frames
import GoMetadata.Proofs.BuildEvent.Grammar
import GoMetadata.Proofs.BuildEvent.Log
import GoMetadata.Proofs.BuildEvent.Progress
import GoMetadata.Proofs.BuildEvent.Reading
import GoMetadata.Proofs.BuildEvent.RoundTrip
import GoMetadata.Proofs.BuildEvent.WrittenLog
import GoMetadata.Proofs.FileSet.Accumulation
import GoMetadata.Proofs.FileSet.Observation
import GoMetadata.Proofs.FileSet.Reachability
import GoMetadata.Proofs.FileSet.Resolution
import GoMetadata.Proofs.FileSet.Streaming
import GoMetadata.Proofs.FileSet.Termination
import GoMetadata.Proofs.FileTree
import GoMetadata.Proofs.Json.Ascii
import GoMetadata.Proofs.Json.Checking
import GoMetadata.Proofs.Json.Numbers
import GoMetadata.Proofs.Json.Overlong
import GoMetadata.Proofs.Json.Regular
import GoMetadata.Proofs.Json.RoundTrip
import GoMetadata.Proofs.Json.Strings
import GoMetadata.Proofs.Label.Selection
import GoMetadata.Proofs.Label.SourceFile
import GoMetadata.Proofs.Label.Spelling
import GoMetadata.Proofs.Messages
import GoMetadata.Proofs.Package.Encoding
import GoMetadata.Proofs.Package.Integrity
import GoMetadata.Proofs.Package.Linking
import GoMetadata.Proofs.Package.Loading
import GoMetadata.Proofs.Package.Payload
import GoMetadata.Proofs.Package.Precedence
import GoMetadata.Proofs.Package.Unusable
import GoMetadata.Proofs.Session.Calls
import GoMetadata.Proofs.Session.Course
import GoMetadata.Proofs.Session.Failure
import GoMetadata.Proofs.Session.Output
import GoMetadata.Proofs.Session.Reports
import GoMetadata.Proofs.Session.Request
import GoMetadata.Proofs.Session.Response
import GoMetadata.Proofs.Session.Targets
import GoMetadata.Proofs.Settings.Fallback
import GoMetadata.Proofs.Settings.Flags
import GoMetadata.Proofs.Settings.Precedence
import GoMetadata.Proofs.Text.Basic
import GoMetadata.Proofs.Text.Lines
import GoMetadata.Proofs.Text.Runs
import GoMetadata.Proofs.Text.Utf8
import GoMetadata.Proofs.Wire.Cursor
import GoMetadata.Proofs.Wire.Digits
import GoMetadata.Proofs.Wire.Index
import GoMetadata.Proofs.Wire.Message
import GoMetadata.Proofs.Wire.Varint
import GoMetadata.Protocol
import GoMetadata.Session
import GoMetadata.Settings
import GoMetadata.Text.Basic
import GoMetadata.Text.Quoted
import GoMetadata.Text.Utf8
import GoMetadata.Toml.Basic
import GoMetadata.Toml.Reader
import GoMetadata.Wire
