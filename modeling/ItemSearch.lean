import ItemSearch.Geometry.View
import ItemSearch.Query.Item
import ItemSearch.SearchArea
import ItemSearch.Wkt.Reader
import ItemSearch.Proofs.Binary64.Rounding
import ItemSearch.Proofs.Decimal.Shortest
import ItemSearch.Proofs.Decimal.ReadBack
import ItemSearch.Proofs.Outcome
import ItemSearch.Proofs.FirstDefect
import ItemSearch.Proofs.Text.Parts
import ItemSearch.Proofs.Wkt.Group
import ItemSearch.Proofs.Wkt.Grammar
import ItemSearch.Proofs.Wkt.RoundTrip
import ItemSearch.Proofs.Wkt.Writable
import ItemSearch.Proofs.Wkt.Normal
import ItemSearch.Proofs.Wkt.Splitting
import ItemSearch.Proofs.Wkt.Defect
import ItemSearch.Proofs.Binary64.Integer
import ItemSearch.Proofs.Binary64.Order
import ItemSearch.Proofs.Binary64.Extreme
import ItemSearch.Proofs.Geometry.Box
import ItemSearch.Proofs.Geometry.Tightest
import ItemSearch.Proofs.Filter.Coercion
import ItemSearch.Proofs.Filter.Nodes
import ItemSearch.Proofs.Filter.Grammar
import ItemSearch.Proofs.Filter.Defect
import ItemSearch.Proofs.Filter.RoundTrip
import ItemSearch.Proofs.Query.Extend
import ItemSearch.Proofs.Query.Filling
import ItemSearch.Proofs.Query.Run
import ItemSearch.Proofs.Query.Accumulation
import ItemSearch.Proofs.Query.Sequence
import ItemSearch.Proofs.Query.Typing
import ItemSearch.Proofs.Query.Defect
import ItemSearch.Proofs.Query.Atomicity
import ItemSearch.Proofs.Query.Agreement
import ItemSearch.Proofs.Query.Meaning
import ItemSearch.Proofs.Query.Exactness
import ItemSearch.Proofs.Query.Reordering
import ItemSearch.Proofs.Query.Fields
import ItemSearch.Proofs.Query.Warnings
import ItemSearch.Proofs.Json.Numeral
import ItemSearch.Proofs.Json.Scanning
import ItemSearch.Proofs.Json.Reading
import ItemSearch.Proofs.Filter.Text
import ItemSearch.Proofs.Query.Chaining
import ItemSearch.Proofs.Query.History
import ItemSearch.Proofs.Query.Integers
import ItemSearch.Proofs.Geometry.Reading
import ItemSearch.Proofs.Geometry.RoundTrip
import ItemSearch.Proofs.Geometry.Shape
import ItemSearch.Proofs.SearchArea
