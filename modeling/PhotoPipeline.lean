import PhotoPipeline.Argument.Reader
import PhotoPipeline.Cache.Fingerprint
import PhotoPipeline.Cache.Store
import PhotoPipeline.Colour.Basic
import PhotoPipeline.Colour.Blend
import PhotoPipeline.Command.Convert
import PhotoPipeline.Command.Desk
import PhotoPipeline.Command.Format
import PhotoPipeline.Command.Listing
import PhotoPipeline.Command.Perform
import PhotoPipeline.Command.Run
import PhotoPipeline.CommandLine.Basic
import PhotoPipeline.CommandLine.Flag
import PhotoPipeline.CommandLine.Usage
import PhotoPipeline.Config.Basic
import PhotoPipeline.Digest.Blake3
import PhotoPipeline.Element.Adjustment
import PhotoPipeline.Element.Basic
import PhotoPipeline.Element.Operation
import PhotoPipeline.Element.Render
import PhotoPipeline.Engine.Context
import PhotoPipeline.Engine.Extensions
import PhotoPipeline.Engine.Run
import PhotoPipeline.Engine.Session
import PhotoPipeline.Error
import PhotoPipeline.Expr.Basic
import PhotoPipeline.Expr.Parser
import PhotoPipeline.Expr.Token
import PhotoPipeline.Files.Path
import PhotoPipeline.Files.Tree
import PhotoPipeline.Image.Basic
import PhotoPipeline.Image.Geometry
import PhotoPipeline.Image.Resample
import PhotoPipeline.Image.Sample
import PhotoPipeline.Image.Tone
import PhotoPipeline.Kind.Basic
import PhotoPipeline.Kind.Builtin
import PhotoPipeline.Main
import PhotoPipeline.Mode
import PhotoPipeline.Number.Binary
import PhotoPipeline.Number.Fixed
import PhotoPipeline.Number.Numeral
import PhotoPipeline.Number.Remainder
import PhotoPipeline.Number.Shortest
import PhotoPipeline.Picture.Checksum
import PhotoPipeline.Picture.Deflate
import PhotoPipeline.Picture.File
import PhotoPipeline.Picture.Png
import PhotoPipeline.Recipe.Basic
import PhotoPipeline.Recipe.Decode
import PhotoPipeline.Report.Json
import PhotoPipeline.Report.Status
import PhotoPipeline.Script.Entry
import PhotoPipeline.Script.Error
import PhotoPipeline.Script.Location
import PhotoPipeline.Script.Quote
import PhotoPipeline.Script.Scanner
import PhotoPipeline.Text.Basic
import PhotoPipeline.Text.Blank
import PhotoPipeline.Text.Hidden
import PhotoPipeline.Text.Letter
import PhotoPipeline.Text.Literal
import PhotoPipeline.Value
import PhotoPipeline.Yaml.Cell
import PhotoPipeline.Yaml.Node
import PhotoPipeline.Yaml.Scalar
import PhotoPipeline.Yaml.Tag
import PhotoPipeline.Yaml.Token
import PhotoPipeline.Proofs.Script.Reading
import PhotoPipeline.Proofs.Script.Nesting
import PhotoPipeline.Proofs.Script.Marks
import PhotoPipeline.Proofs.Script.Steps
import PhotoPipeline.Proofs.Script.Outcome
import PhotoPipeline.Proofs.Script.Grammar
import PhotoPipeline.Proofs.Script.Verbatim
import PhotoPipeline.Proofs.Script.Depth
import PhotoPipeline.Proofs.Script.Printing
import PhotoPipeline.Proofs.Script.Substitution
import PhotoPipeline.Proofs.Script.Layout
import PhotoPipeline.Proofs.Script.Blame
import PhotoPipeline.Proofs.Script.Places
import PhotoPipeline.Proofs.Script.Relocation
import PhotoPipeline.Proofs.Script.Concatenation
import PhotoPipeline.Proofs.Script.CommentLines
import PhotoPipeline.Proofs.Element.Written
import PhotoPipeline.Proofs.Argument.Reader
import PhotoPipeline.Proofs.Argument.Cursor
import PhotoPipeline.Proofs.Kind.Builtin
import PhotoPipeline.Proofs.Recipe.Decode
import PhotoPipeline.Proofs.Recipe.Gathering
import PhotoPipeline.Proofs.Recipe.RoundTrip
import PhotoPipeline.Proofs.Recipe.Names
import PhotoPipeline.Proofs.Recipe.Positions
import PhotoPipeline.Proofs.Recipe.Heads
import PhotoPipeline.Proofs.Recipe.Depth
import PhotoPipeline.Proofs.Recipe.References
import PhotoPipeline.Proofs.Cache.Fingerprint
import PhotoPipeline.Proofs.Cache.Recency
import PhotoPipeline.Proofs.Cache.Accounting
import PhotoPipeline.Proofs.Cache.Simulation
import PhotoPipeline.Proofs.Cache.Transparency
import PhotoPipeline.Proofs.Cache.Modes
import PhotoPipeline.Proofs.Engine.Session
import PhotoPipeline.Proofs.Command.Conversion
import PhotoPipeline.Proofs.Engine.Trace
import PhotoPipeline.Proofs.Engine.Cancellation
import PhotoPipeline.Proofs.Engine.Marker
import PhotoPipeline.Proofs.Element.Size
import PhotoPipeline.Proofs.Engine.Size
import PhotoPipeline.Proofs.Command.Formatting
import PhotoPipeline.Proofs.Engine.Grouping
import PhotoPipeline.Proofs.Cache.Separation
import PhotoPipeline.Proofs.Expr.Derivation
import PhotoPipeline.Proofs.Expr.Token
import PhotoPipeline.Proofs.Expr.Grammar
import PhotoPipeline.Proofs.Engine.Stash
import PhotoPipeline.Proofs.Engine.History
import PhotoPipeline.Proofs.Engine.Specialise
import PhotoPipeline.Proofs.Recipe.Shape
import PhotoPipeline.Proofs.Argument.Writing
import PhotoPipeline.Proofs.Image.Rotation
import PhotoPipeline.Proofs.Expr.Dimensions
import PhotoPipeline.Proofs.Kind.Registration
import PhotoPipeline.Proofs.Colour.Hexadecimal
