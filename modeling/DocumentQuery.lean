import DocumentQuery.Main
import DocumentQuery.Source.Answers
import DocumentQuery.Proofs.Numeral.Words
import DocumentQuery.Proofs.Paths.Brackets
import DocumentQuery.Proofs.Paths.Tokens
import DocumentQuery.Proofs.Paths.RoundTrip
import DocumentQuery.Proofs.Paths.Plans
import DocumentQuery.Proofs.Paths.Seams
import DocumentQuery.Proofs.Paths.Canonical
import DocumentQuery.Proofs.Paths.Classification
import DocumentQuery.Proofs.Query.Walks
import DocumentQuery.Proofs.Json.Locations
import DocumentQuery.Proofs.Query.FirstHit
import DocumentQuery.Proofs.Query.Addresses
import DocumentQuery.Proofs.Query.Specimens
import DocumentQuery.Proofs.Command.Segments
import DocumentQuery.Proofs.Json.Decoding
import DocumentQuery.Proofs.Json.Plain
import DocumentQuery.Proofs.Json.Spacing
import DocumentQuery.Proofs.Json.Lexemes
import DocumentQuery.Proofs.Json.Rereading
import DocumentQuery.Proofs.Yaml.Conversion
import DocumentQuery.Proofs.Yaml.Navigation
import DocumentQuery.Proofs.Source.Paths
import DocumentQuery.Proofs.Source.Trees
import DocumentQuery.Proofs.Source.FoundFiles
import DocumentQuery.Proofs.Source.Changes
import DocumentQuery.Proofs.Source.Resolution
import DocumentQuery.Proofs.Text.Expressions
import DocumentQuery.Proofs.Source.Globs
import DocumentQuery.Proofs.Source.Reading
import DocumentQuery.Proofs.Query.Answers
import DocumentQuery.Proofs.Query.SeveralPaths
import DocumentQuery.Proofs.Source.Answers
import DocumentQuery.Proofs.Command.Runs
import DocumentQuery.Proofs.Command.Inputs
import DocumentQuery.Proofs.Command.Answers
import DocumentQuery.Proofs.Command.Origins
import DocumentQuery.Proofs.Command.Shapes
import DocumentQuery.Proofs.Command.Printing
import DocumentQuery.Proofs.Source.Streams
import DocumentQuery.Proofs.Yaml.JsonForm
import DocumentQuery.Proofs.Yaml.Reordering
