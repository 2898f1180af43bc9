import PlainSchema.Alias
import PlainSchema.Codec.JsonDecode
import PlainSchema.Codec.JsonEncode
import PlainSchema.Contract.Basic
import PlainSchema.Contract.Render
import PlainSchema.Contract.Token
import PlainSchema.Contract.TokenTree
import PlainSchema.Contract.TypeExpr
import PlainSchema.Contract.TypeReader
import PlainSchema.Convert.Basic
import PlainSchema.Convert.Converter
import PlainSchema.Convert.ToPlain
import PlainSchema.Convert.ToSource
import PlainSchema.Crf.Escape
import PlainSchema.Crf.Path
import PlainSchema.Decimal.Binary
import PlainSchema.Decimal.Reading
import PlainSchema.Decimal.Shortest
import PlainSchema.Derive
import PlainSchema.Diagnostic
import PlainSchema.Discriminator
import PlainSchema.Generator.Options
import PlainSchema.Generator.Part
import PlainSchema.Generator.Request
import PlainSchema.Generator.Response
import PlainSchema.Json.Basic
import PlainSchema.Json.Parser
import PlainSchema.Json.Printer
import PlainSchema.Main
import PlainSchema.Plan.Basic
import PlainSchema.Plan.Build
import PlainSchema.Plan.Collision
import PlainSchema.Plan.Expand
import PlainSchema.Plan.Flatten
import PlainSchema.Plan.Json
import PlainSchema.Plan.Numbering
import PlainSchema.Plan.Renames
import PlainSchema.Plan.Strategy
import PlainSchema.Pool.Check
import PlainSchema.Pool.Load
import PlainSchema.Pool.Names
import PlainSchema.Pool.Resolve
import PlainSchema.Pool.Types
import PlainSchema.Proto.Builtin
import PlainSchema.Proto.Declaration
import PlainSchema.Proto.FieldNumber
import PlainSchema.Proto.Kind
import PlainSchema.Proto.Options
import PlainSchema.Schema.Basic
import PlainSchema.Schema.Json
import PlainSchema.Schema.OfPool
import PlainSchema.Settings
import PlainSchema.Sorting
import PlainSchema.Text.Alphanumeric
import PlainSchema.Text.Base64
import PlainSchema.Text.Blank
import PlainSchema.Text.Glyphless
import PlainSchema.Text.Integer
import PlainSchema.Text.Layout
import PlainSchema.Text.LetterCase
import PlainSchema.Text.Letters
import PlainSchema.Text.Quoted
import PlainSchema.Text.Ranges
import PlainSchema.Text.Split
import PlainSchema.Text.Utf8
import PlainSchema.Text.Words
import PlainSchema.Validate
import PlainSchema.Value.Basic
import PlainSchema.Value.Message
import PlainSchema.Value.Path
import PlainSchema.Value.InPlace
import PlainSchema.Wire.Decode
import PlainSchema.Wire.Encode
import PlainSchema.Wire.Record
import PlainSchema.Wire.Scalar
import PlainSchema.Proofs.Data.Lists
import PlainSchema.Proofs.Data.Except
import PlainSchema.Proofs.Names.Dots
import PlainSchema.Proofs.Names.Paths
import PlainSchema.Proofs.Text.Utf8
import PlainSchema.Proofs.Text.Split
import PlainSchema.Proofs.Text.Integer
import PlainSchema.Proofs.Crf.Escaped
import PlainSchema.Proofs.Crf.RoundTrip
import PlainSchema.Proofs.Renames.Lookup
import PlainSchema.Proofs.Renames.Index
import PlainSchema.Proofs.Pool.Resolved
import PlainSchema.Proofs.Pool.Loaded
import PlainSchema.Proofs.Pool.Linked
import PlainSchema.Proofs.Schema.Scopes
import PlainSchema.Proofs.Schema.Types
import PlainSchema.Proofs.Schema.Valid
import PlainSchema.Proofs.Schema.Declared
import PlainSchema.Proofs.Schema.EmbedCycles
import PlainSchema.Proofs.Schema.CycleFindings
import PlainSchema.Proofs.Schema.VirtualNumbers
import PlainSchema.Proofs.Schema.MemberOrder
import PlainSchema.Proofs.Plan.Planned
import PlainSchema.Proofs.Plan.Numbers
import PlainSchema.Proofs.Plan.Leaves
import PlainSchema.Proofs.Plan.Expanded
import PlainSchema.Proofs.Plan.Sources
import PlainSchema.Proofs.Plan.Merged
import PlainSchema.Proofs.Plan.OwnPaths
import PlainSchema.Proofs.Plan.OriginTexts
import PlainSchema.Proofs.Plan.Shapes
import PlainSchema.Proofs.Plan.Oneofs
import PlainSchema.Proofs.Plan.Entries
import PlainSchema.Proofs.Plan.Members
import PlainSchema.Proofs.Plan.Discriminated
import PlainSchema.Proofs.Plan.Copied
import PlainSchema.Proofs.Plan.CopiedMembers
import PlainSchema.Proofs.Plan.Collisions
import PlainSchema.Proofs.Plan.Inlining
import PlainSchema.Proofs.Plan.Walks
import PlainSchema.Proofs.Plan.Slots
import PlainSchema.Proofs.Plan.Complete
import PlainSchema.Proofs.Plan.Numbered
import PlainSchema.Proofs.Plan.NumberRange
import PlainSchema.Proofs.Plan.VirtualTypes
import PlainSchema.Proofs.Plan.Dispatched
import PlainSchema.Proofs.Derive.Counterparts
import PlainSchema.Proofs.Derive.Places
import PlainSchema.Proofs.Derive.Names
import PlainSchema.Proofs.Derive.NewNames
import PlainSchema.Proofs.Derive.Lookup
import PlainSchema.Proofs.Derive.MapEntries
import PlainSchema.Proofs.Derive.Fields
import PlainSchema.Proofs.Derive.References
import PlainSchema.Proofs.Derive.RenamedOnce
import PlainSchema.Proofs.Derive.Generated
import PlainSchema.Proofs.Derive.PlainTypes
import PlainSchema.Proofs.Derive.PlainFields
import PlainSchema.Proofs.Derive.PlannedFields
import PlainSchema.Proofs.Derive.CopiedOneofs
import PlainSchema.Proofs.Text.Layout
import PlainSchema.Proofs.Contract.TraitNames
import PlainSchema.Proofs.Value.Fields
import PlainSchema.Proofs.Value.Paths
import PlainSchema.Proofs.Value.Conflicts
import PlainSchema.Proofs.Value.Hops
import PlainSchema.Proofs.Value.WellTyped
import PlainSchema.Proofs.Value.Written
import PlainSchema.Proofs.Value.Typed
import PlainSchema.Proofs.Value.InPlace
import PlainSchema.Proofs.Value.KeptTypes
import PlainSchema.Proofs.Value.ReadBack
import PlainSchema.Proofs.Wire.Decoded
import PlainSchema.Proofs.Convert.Restored
import PlainSchema.Proofs.Convert.Held
import PlainSchema.Proofs.Convert.Kept
import PlainSchema.Proofs.Convert.Strict
import PlainSchema.Proofs.Convert.Filled
import PlainSchema.Proofs.Convert.Flattened
import PlainSchema.Proofs.Convert.Stored
import PlainSchema.Proofs.Convert.Local
import PlainSchema.Proofs.Convert.Recorded
import PlainSchema.Proofs.Convert.Companions
import PlainSchema.Proofs.Convert.Tags
import PlainSchema.Proofs.Convert.MemberOrder
import PlainSchema.Proofs.Convert.Carried
import PlainSchema.Proofs.Convert.Built
import PlainSchema.Proofs.Convert.Transcoded
import PlainSchema.Proofs.Convert.Returned
import PlainSchema.Proofs.Convert.Payloads
import PlainSchema.Proofs.Convert.Undone
import PlainSchema.Proofs.Convert.Returning
import PlainSchema.Proofs.Convert.Received
import PlainSchema.Proofs.Convert.Delivered
import PlainSchema.Proofs.Convert.Agreeing
import PlainSchema.Proofs.Convert.Omitted
import PlainSchema.Proofs.Convert.Unpacked
import PlainSchema.Proofs.Convert.PayloadPlaces
import PlainSchema.Proofs.Convert.Packed
import PlainSchema.Proofs.Convert.Repacked
import PlainSchema.Proofs.Convert.Discriminated
import PlainSchema.Proofs.Convert.VirtualFields
import PlainSchema.Proofs.Schema.EnumValues
import PlainSchema.Proofs.Text.Words
import PlainSchema.Proofs.Contract.CasterNames
import PlainSchema.Proofs.Contract.LeadingNames
import PlainSchema.Proofs.Contract.CapturedNames
import PlainSchema.Proofs.Value.Same
import PlainSchema.Proofs.Value.Part
import PlainSchema.Proofs.Plan.Covered
import PlainSchema.Proofs.Plan.Grouped
import PlainSchema.Proofs.Plan.Alike
import PlainSchema.Proofs.Convert.Regained
import PlainSchema.Proofs.Convert.Levels
import PlainSchema.Proofs.Convert.Reproduces
import PlainSchema.Proofs.Convert.Reproduced
import PlainSchema.Proofs.Convert.Rebuilt
import PlainSchema.Proofs.Convert.Retraced
import PlainSchema.Proofs.Convert.Mirrored
import PlainSchema.Proofs.Convert.RoundTrip
import PlainSchema.Proofs.Convert.Unmerged
import PlainSchema.Proofs.Convert.Merged
