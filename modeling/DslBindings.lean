import DslBindings.Accessors
import DslBindings.Archive.Basic
import DslBindings.Archive.BlockSorting
import DslBindings.Archive.ChainCoding
import DslBindings.Archive.Checksum
import DslBindings.Archive.Chunked
import DslBindings.Archive.Decompression
import DslBindings.Archive.EndRecord
import DslBindings.Archive.Entry
import DslBindings.Archive.Inflate
import DslBindings.Archive.LaneDigest
import DslBindings.Archive.Method
import DslBindings.Archive.PrefixCode
import DslBindings.Archive.RangeCode
import DslBindings.Archive.StateCoding
import DslBindings.Archive.StateMachine
import DslBindings.Build.Compilation
import DslBindings.Build.DirectoryCache
import DslBindings.Build.Project
import DslBindings.Build.Resolver
import DslBindings.Build.Snapshot
import DslBindings.Build.Workspace
import DslBindings.ByteReader
import DslBindings.CacheKey
import DslBindings.ClassFile.Attribute
import DslBindings.ClassFile.Basic
import DslBindings.ClassFile.ConstantPool
import DslBindings.ClassFile.Conversion
import DslBindings.ClassFile.ModifiedUtf8
import DslBindings.ClassPath.Scan
import DslBindings.ClassPath.Scope
import DslBindings.Command.Accessors
import DslBindings.Command.Error
import DslBindings.Command.Generation
import DslBindings.Command.Invocation
import DslBindings.Command.Run
import DslBindings.Command.Table
import DslBindings.Command.Words
import DslBindings.Configuration
import DslBindings.Digest
import DslBindings.Documentation
import DslBindings.Extension.Callback
import DslBindings.Extension.Eligible
import DslBindings.Extension.Function
import DslBindings.Extension.Sweep
import DslBindings.Files.Error
import DslBindings.Files.FileSystem
import DslBindings.Files.JsonFile
import DslBindings.Files.Path
import DslBindings.Header
import DslBindings.Json.Basic
import DslBindings.Json.NumberRange
import DslBindings.Json.Printer
import DslBindings.Json.Reader
import DslBindings.Json.Record
import DslBindings.Main
import DslBindings.Naming
import DslBindings.Rendering
import DslBindings.Schema
import DslBindings.Signature.Class
import DslBindings.Signature.Encoding
import DslBindings.Signature.Reader
import DslBindings.Signature.Type
import DslBindings.Sink
import DslBindings.Text.Basic
import DslBindings.Text.Blank
import DslBindings.Text.Fresh
import DslBindings.Text.Lossy
import DslBindings.Text.Ranges
import DslBindings.Text.Reading
import DslBindings.Text.Width
import DslBindings.Text.Width.Emoji
import DslBindings.Text.Width.Ligature
import DslBindings.Text.Width.Single
import DslBindings.Proofs.KeyText
import DslBindings.Proofs.Files.Entries
import DslBindings.Proofs.Files.Growth
import DslBindings.Proofs.Files.Joining
import DslBindings.Proofs.Files.Writing
import DslBindings.Proofs.DirectoryCache.Staging
import DslBindings.Proofs.DirectoryCache.Call
import DslBindings.Proofs.DirectoryCache.Runs
import DslBindings.Proofs.Build.Recording
import DslBindings.Proofs.Resolver.Steps
import DslBindings.Proofs.Resolver.Runs
import DslBindings.Proofs.Signature.Grammar
import DslBindings.Proofs.Signature.Steps
import DslBindings.Proofs.Signature.Decision
import DslBindings.Proofs.Rendering.Spellings
import DslBindings.Proofs.Extension.Conflicts
import DslBindings.Proofs.Documentation.Comments
import DslBindings.Proofs.Sink
import DslBindings.Proofs.Extension.Accounting
import DslBindings.Proofs.Extension.Closedness
import DslBindings.Proofs.Extension.Sweeps
import DslBindings.Proofs.Extension.Isolation
import DslBindings.Proofs.Signature.Format
import DslBindings.Proofs.Signature.Completeness
import DslBindings.Proofs.Signature.Parameters
import DslBindings.Proofs.Signature.Erasure
import DslBindings.Proofs.ClassFile.ErasedNames
import DslBindings.Proofs.ClassPath.Scan
import DslBindings.Proofs.Command.Running
import DslBindings.Proofs.Command.Generation
import DslBindings.Proofs.Json.Depth
import DslBindings.Proofs.Json.Printing
import DslBindings.Proofs.Json.Coding
import DslBindings.Proofs.Signature.Encoding
import DslBindings.Proofs.Json.RoundTrip
import DslBindings.Proofs.Build.Compiling
import DslBindings.Proofs.DirectoryCache.Filling
import DslBindings.Proofs.Command.Accessors
import DslBindings.Proofs.Build.Snapshot
import DslBindings.Proofs.Signature.Failures
import DslBindings.Proofs.Signature.Pointing
import DslBindings.Proofs.Signature.Offsets
import DslBindings.Proofs.Extension.Receivers
import DslBindings.Proofs.Extension.Forwarding
import DslBindings.Proofs.Documentation.Placeholders
import DslBindings.Proofs.Documentation.Expansion
import DslBindings.Proofs.Extension.Discovery
import DslBindings.Proofs.Accessors.Blocks
import DslBindings.Proofs.Schema.Registering
import DslBindings.Proofs.ClassPath.Scope
import DslBindings.Proofs.ClassFile.Conversion
import DslBindings.Proofs.Naming.Tokens
import DslBindings.Proofs.Accessors.Tokens
