import ConsoleLens.Console.Basic
import ConsoleLens.Console.Entry
import ConsoleLens.Console.Event
import ConsoleLens.Console.Position
import ConsoleLens.Decimal.Basic
import ConsoleLens.Decimal.Double
import ConsoleLens.Decimal.Shortest
import ConsoleLens.Editor.Decorator
import ConsoleLens.Editor.DocumentPath
import ConsoleLens.Json.Basic
import ConsoleLens.Json.Printer
import ConsoleLens.Json.Reader
import ConsoleLens.Json.Record
import ConsoleLens.Page.Build
import ConsoleLens.Page.Request
import ConsoleLens.Page.Runtime
import ConsoleLens.Page.Session
import ConsoleLens.Preview.Basic
import ConsoleLens.Preview.Layout
import ConsoleLens.Preview.Number
import ConsoleLens.Proofs.Console.Agreement
import ConsoleLens.Proofs.Console.Attribution
import ConsoleLens.Proofs.Console.Decoration
import ConsoleLens.Proofs.Console.Gate
import ConsoleLens.Proofs.Console.Location
import ConsoleLens.Proofs.Console.Run
import ConsoleLens.Proofs.Editor.Screen
import ConsoleLens.Proofs.Json.Fields
import ConsoleLens.Proofs.Json.Kept
import ConsoleLens.Proofs.Json.Number
import ConsoleLens.Proofs.Json.Text
import ConsoleLens.Proofs.Keyed
import ConsoleLens.Proofs.Page.Rebuild
import ConsoleLens.Proofs.Page.Registering
import ConsoleLens.Proofs.Preview.Entries
import ConsoleLens.Proofs.Preview.Reflowed
import ConsoleLens.Proofs.Preview.Reworded
import ConsoleLens.Proofs.Preview.Truncated
import ConsoleLens.Proofs.Property.Reordered
import ConsoleLens.Proofs.Property.Shown
import ConsoleLens.Proofs.Remote.Preview
import ConsoleLens.Proofs.Remote.Wire
import ConsoleLens.Proofs.Settings.File
import ConsoleLens.Proofs.SourceMap.Absolute
import ConsoleLens.Proofs.SourceMap.Digits
import ConsoleLens.Proofs.SourceMap.Group
import ConsoleLens.Proofs.SourceMap.Headroom
import ConsoleLens.Proofs.SourceMap.Leaves
import ConsoleLens.Proofs.SourceMap.Line
import ConsoleLens.Proofs.SourceMap.OneBased
import ConsoleLens.Proofs.SourceMap.Rectangle
import ConsoleLens.Proofs.SourceMap.Section
import ConsoleLens.Proofs.SourceMap.Spelling
import ConsoleLens.Proofs.SourceMap.Union
import ConsoleLens.Proofs.SourceMap.Written
import ConsoleLens.Proofs.Text.Bytes
import ConsoleLens.Proofs.Text.Digits
import ConsoleLens.Proofs.Text.Words
import ConsoleLens.Proofs.Toml.Document
import ConsoleLens.Proofs.Toml.Quoted
import ConsoleLens.Proofs.Toml.Written
import ConsoleLens.Proofs.Tree.Anchor
import ConsoleLens.Proofs.Tree.Arena
import ConsoleLens.Proofs.Tree.Arrival
import ConsoleLens.Proofs.Tree.Browsing
import ConsoleLens.Proofs.Tree.Deferral
import ConsoleLens.Proofs.Tree.Expansion
import ConsoleLens.Proofs.Tree.Filing
import ConsoleLens.Proofs.Tree.Identity
import ConsoleLens.Proofs.Tree.Level
import ConsoleLens.Proofs.Tree.Listing
import ConsoleLens.Proofs.Tree.Naming
import ConsoleLens.Proofs.Tree.Place
import ConsoleLens.Proofs.Tree.Recall
import ConsoleLens.Proofs.Tree.Segment
import ConsoleLens.Proofs.Tree.Shape
import ConsoleLens.Proofs.Tree.Siblings
import ConsoleLens.Proofs.Tree.Walk
import ConsoleLens.Proofs.Url.Rooted
import ConsoleLens.Property.Basic
import ConsoleLens.Remote.Codec
import ConsoleLens.Remote.Kind
import ConsoleLens.Remote.Object
import ConsoleLens.Remote.Property
import ConsoleLens.Settings.Basic
import ConsoleLens.Settings.File
import ConsoleLens.SourceMap.Basic
import ConsoleLens.SourceMap.Document
import ConsoleLens.SourceMap.Fault
import ConsoleLens.SourceMap.Mapping
import ConsoleLens.SourceMap.Registry
import ConsoleLens.SourceMap.Sample
import ConsoleLens.SourceMap.Vlq
import ConsoleLens.Table
import ConsoleLens.Text.Blank
import ConsoleLens.Text.CharLiteral
import ConsoleLens.Text.Digits
import ConsoleLens.Text.Direction
import ConsoleLens.Text.Joining
import ConsoleLens.Text.Runs
import ConsoleLens.Text.Split
import ConsoleLens.Text.Visible
import ConsoleLens.Toml.Document
import ConsoleLens.Toml.Line
import ConsoleLens.Toml.Printer
import ConsoleLens.Toml.Quoted
import ConsoleLens.Toml.Scalar
import ConsoleLens.Toml.Table
import ConsoleLens.Toml.Value
import ConsoleLens.Tree.Arena
import ConsoleLens.Tree.Basic
import ConsoleLens.Tree.Item
import ConsoleLens.Tree.PathIndex
import ConsoleLens.Tree.Query
import ConsoleLens.Url.Address
import ConsoleLens.Url.Basic
import ConsoleLens.Url.Domain
import ConsoleLens.Url.Host
import ConsoleLens.Url.Letters
import ConsoleLens.Url.Path
import ConsoleLens.Url.Percent
import ConsoleLens.Url.Punycode
