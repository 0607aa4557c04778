import ThemedSvg.Asset
import ThemedSvg.Build
import ThemedSvg.Cache
import ThemedSvg.Catalog
import ThemedSvg.CommandLine
import ThemedSvg.Config
import ThemedSvg.DataUri
import ThemedSvg.Declaration.Expansion
import ThemedSvg.Declaration.Invocation
import ThemedSvg.Declaration.Token
import ThemedSvg.Files.Basic
import ThemedSvg.Files.Tree
import ThemedSvg.Keyed
import ThemedSvg.Main
import ThemedSvg.Markup.Entity
import ThemedSvg.Markup.Event
import ThemedSvg.Markup.Fault
import ThemedSvg.Markup.Parse
import ThemedSvg.Markup.Report
import ThemedSvg.Markup.Tag
import ThemedSvg.Markup.Tree
import ThemedSvg.Number.Binary32
import ThemedSvg.Number.Binary64
import ThemedSvg.Number.Decimal
import ThemedSvg.Optimizer
import ThemedSvg.Paint.Hsl
import ThemedSvg.Paint.Named
import ThemedSvg.Paint.Notation
import ThemedSvg.Paint.Rgba
import ThemedSvg.Params
import ThemedSvg.Proofs.Accepted
import ThemedSvg.Proofs.Agreement
import ThemedSvg.Proofs.Alternation
import ThemedSvg.Proofs.Asking
import ThemedSvg.Proofs.Balance
import ThemedSvg.Proofs.CallSites
import ThemedSvg.Proofs.CanonicalColors
import ThemedSvg.Proofs.Commands
import ThemedSvg.Proofs.DataUris
import ThemedSvg.Proofs.Direct
import ThemedSvg.Proofs.Entities
import ThemedSvg.Proofs.EqualColors
import ThemedSvg.Proofs.Filing
import ThemedSvg.Proofs.Filling
import ThemedSvg.Proofs.HiddenSprites
import ThemedSvg.Proofs.Holes
import ThemedSvg.Proofs.Inheritance
import ThemedSvg.Proofs.Items
import ThemedSvg.Proofs.JoinedAssets
import ThemedSvg.Proofs.Joining
import ThemedSvg.Proofs.Lexemes
import ThemedSvg.Proofs.Lineages
import ThemedSvg.Proofs.Locality
import ThemedSvg.Proofs.LookupOrder
import ThemedSvg.Proofs.Nesting
import ThemedSvg.Proofs.NormalForm
import ThemedSvg.Proofs.Options
import ThemedSvg.Proofs.Outcomes
import ThemedSvg.Proofs.Overrides
import ThemedSvg.Proofs.Painting
import ThemedSvg.Proofs.Phrases
import ThemedSvg.Proofs.Pieces
import ThemedSvg.Proofs.Readable
import ThemedSvg.Proofs.Reading
import ThemedSvg.Proofs.Recording
import ThemedSvg.Proofs.Repetition
import ThemedSvg.Proofs.ReportedLines
import ThemedSvg.Proofs.Resolution
import ThemedSvg.Proofs.RoundTrip
import ThemedSvg.Proofs.Scanning
import ThemedSvg.Proofs.Serialization
import ThemedSvg.Proofs.Sessions
import ThemedSvg.Proofs.Settled
import ThemedSvg.Proofs.Shorthand
import ThemedSvg.Proofs.SinglePrecision
import ThemedSvg.Proofs.Spans
import ThemedSvg.Proofs.SpelledColors
import ThemedSvg.Proofs.SpelledKeys
import ThemedSvg.Proofs.Splicing
import ThemedSvg.Proofs.SpriteCount
import ThemedSvg.Proofs.SpriteKeys
import ThemedSvg.Proofs.SpritePaths
import ThemedSvg.Proofs.SpriteWeight
import ThemedSvg.Proofs.Standalone
import ThemedSvg.Proofs.StyleHooks
import ThemedSvg.Proofs.Tags
import ThemedSvg.Proofs.Theme
import ThemedSvg.Proofs.Theming
import ThemedSvg.Proofs.Thousandths
import ThemedSvg.Proofs.Trees
import ThemedSvg.Proofs.Walk
import ThemedSvg.Proofs.WarmCaches
import ThemedSvg.Proofs.Weight
import ThemedSvg.Proofs.Writing
import ThemedSvg.Proofs.WrittenCalls
import ThemedSvg.Shell.Arithmetic
import ThemedSvg.Shell.Builtin.Basic
import ThemedSvg.Shell.Builtin.Control
import ThemedSvg.Shell.Builtin.Settings
import ThemedSvg.Shell.Builtin.Table
import ThemedSvg.Shell.Builtin.Variables
import ThemedSvg.Shell.Condition
import ThemedSvg.Shell.Execution
import ThemedSvg.Shell.Executor
import ThemedSvg.Shell.Expansion
import ThemedSvg.Shell.Launch
import ThemedSvg.Shell.Machine
import ThemedSvg.Shell.Parse
import ThemedSvg.Shell.Pattern
import ThemedSvg.Shell.Printing
import ThemedSvg.Shell.Redirection
import ThemedSvg.Shell.Session
import ThemedSvg.Shell.Signal
import ThemedSvg.Shell.State
import ThemedSvg.Shell.Syntax
import ThemedSvg.Shell.Target
import ThemedSvg.Shell.Token
import ThemedSvg.Shell.Word
import ThemedSvg.Sprite
import ThemedSvg.Template.Basic
import ThemedSvg.Template.Compile
import ThemedSvg.Template.Hole
import ThemedSvg.Terminal.Arguments
import ThemedSvg.Terminal.Listing
import ThemedSvg.Terminal.Run
import ThemedSvg.Text.Bytes
import ThemedSvg.Text.Extending
import ThemedSvg.Text.Line
import ThemedSvg.Text.Quoted
import ThemedSvg.Text.Ranges
import ThemedSvg.Text.Space
import ThemedSvg.Text.Unprintable
import ThemedSvg.Text.Width
import ThemedSvg.Toml.Document
import ThemedSvg.Toml.Scalar
import ThemedSvg.Toml.Text
import ThemedSvg.Toml.Value
import ThemedSvg.Tool.Copying
import ThemedSvg.Tool.Exchange
import ThemedSvg.Tool.Octets
import ThemedSvg.Tool.Options
import ThemedSvg.Tool.Places
import ThemedSvg.Tool.Program
import ThemedSvg.Tool.Programs
import ThemedSvg.Tool.Quoting
