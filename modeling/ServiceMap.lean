import ServiceMap.Main
import ServiceMap.Proofs.Tree.Ancestry
import ServiceMap.Proofs.Tree.Levels
import ServiceMap.Proofs.Tree.Declared
import ServiceMap.Proofs.Tree.Linked
import ServiceMap.Proofs.Tree.Offered
import ServiceMap.Proofs.Tree.Finished
import ServiceMap.Proofs.Tree.Circular
import ServiceMap.Proofs.FirstSeen
import ServiceMap.Proofs.Results
import ServiceMap.Proofs.Link.Tally
import ServiceMap.Proofs.Text.LowerCase
import ServiceMap.Proofs.Tree.Consistent
import ServiceMap.Proofs.Tree.Reordered
import ServiceMap.Proofs.Tree.Renamed
import ServiceMap.Proofs.Tree.Repeated
import ServiceMap.Proofs.Tree.Interposed
import ServiceMap.Proofs.Trace.SpanTree
import ServiceMap.Proofs.Trace.Placement
import ServiceMap.Proofs.Link.Calls
import ServiceMap.Proofs.Link.Order
import ServiceMap.Proofs.Link.Halves
import ServiceMap.Proofs.Span.Identified
import ServiceMap.Proofs.Json.RoundTrip
import ServiceMap.Proofs.Link.Report
import ServiceMap.Proofs.Link.Rows
import ServiceMap.Proofs.Trace.Grouping
import ServiceMap.Proofs.Link.Merge
import ServiceMap.Proofs.Link.Buckets
import ServiceMap.Proofs.Link.Interleaved
import ServiceMap.Proofs.Tree.Arranged
import ServiceMap.Proofs.Link.RemoteCall
import ServiceMap.Proofs.Link.LocalSpans
import ServiceMap.Proofs.Json.Ascii
import ServiceMap.Proofs.Link.Growth
import ServiceMap.Proofs.Cli.Delivery
import ServiceMap.Proofs.Json.Grammar
import ServiceMap.Proofs.Json.Soundness
import ServiceMap.Proofs.Json.Completeness
import ServiceMap.Proofs.Span.Lines
import ServiceMap.Proofs.Span.Spelling
import ServiceMap.Proofs.Span.CamelCase
import ServiceMap.Proofs.Number.Numeral
import ServiceMap.Proofs.Span.Encodings
import ServiceMap.Proofs.Span.Concatenated
import ServiceMap.Proofs.Span.Agreement
import ServiceMap.Proofs.Text.Utf8
import ServiceMap.Proofs.Span.Bytes
import ServiceMap.Proofs.Tree.Attributed
import ServiceMap.Proofs.Tree.Idle
import ServiceMap.Proofs.Trace.Coarser
import ServiceMap.Proofs.Tree.Growing
import ServiceMap.Proofs.Span.Attributes
import ServiceMap.Proofs.Span.Canonical
