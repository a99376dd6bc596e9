import NodeQuery.Main
import NodeQuery.Proofs.Attribute.Paths
import NodeQuery.Proofs.Attribute.Rebuilding
import NodeQuery.Proofs.CommandLine.Uncolored
import NodeQuery.Proofs.Files.RoundTrip
import NodeQuery.Proofs.Json.Ascii
import NodeQuery.Proofs.Json.Number
import NodeQuery.Proofs.Json.RoundTrip
import NodeQuery.Proofs.Json.Text
import NodeQuery.Proofs.Match.Caseless
import NodeQuery.Proofs.Match.Subsequence
import NodeQuery.Proofs.Number.Notation
import NodeQuery.Proofs.Number.Numeral
import NodeQuery.Proofs.Number.Rounding
import NodeQuery.Proofs.Query.Concatenation
import NodeQuery.Proofs.Query.Confinement
import NodeQuery.Proofs.Query.EndToken
import NodeQuery.Proofs.Query.Isolation
import NodeQuery.Proofs.Query.Literals
import NodeQuery.Proofs.Query.Names
import NodeQuery.Proofs.Query.Order
import NodeQuery.Proofs.Query.PlainPattern
import NodeQuery.Proofs.Query.Rearrangement
import NodeQuery.Proofs.Query.RoundTrip
import NodeQuery.Proofs.Query.Succession
import NodeQuery.Proofs.Query.Threshold
import NodeQuery.Proofs.Query.Tiling
import NodeQuery.Proofs.Query.Within
import NodeQuery.Proofs.Settings.RoundTrip
import NodeQuery.Proofs.Text.Utf8
import NodeQuery.Proofs.Time.Reading
import NodeQuery.Proofs.Timeline.Restriction
import NodeQuery.Proofs.Timeline.Sorting
import NodeQuery.Proofs.Tree.Decoding
import NodeQuery.Proofs.Tree.History
import NodeQuery.Proofs.Tree.RoundTrip
import NodeQuery.Proofs.Tree.Subtree
import NodeQuery.Proofs.Tree.Traversal
import NodeQuery.Proofs.Tree.Walk
