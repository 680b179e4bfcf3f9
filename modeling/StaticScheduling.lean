import StaticScheduling.Main
import StaticScheduling.Proofs.Token.Runs
import StaticScheduling.Proofs.Token.Spelling
import StaticScheduling.Proofs.Token.Lexemes
import StaticScheduling.Proofs.Token.Stream
import StaticScheduling.Proofs.Token.Scanning
import StaticScheduling.Proofs.Instance.Printable
import StaticScheduling.Proofs.Instance.RecordOrder
import StaticScheduling.Proofs.Instance.Derivation
import StaticScheduling.Proofs.Instance.Readers
import StaticScheduling.Proofs.Instance.Recognition
import StaticScheduling.Proofs.Instance.Printing
import StaticScheduling.Proofs.Instance.Printability
import StaticScheduling.Proofs.Instance.Combinators
import StaticScheduling.Proofs.Instance.Lookahead
import StaticScheduling.Proofs.Instance.ViablePrefix
import StaticScheduling.Proofs.Instance.EarliestFault
import StaticScheduling.Proofs.Instance.InPlace
import StaticScheduling.Proofs.Instance.Following
import StaticScheduling.Proofs.Instance.Reuse
import StaticScheduling.Proofs.Instance.Respelling
import StaticScheduling.Proofs.Property.Decoding
import StaticScheduling.Proofs.Property.Annotation
import StaticScheduling.Proofs.Property.Attachments
import StaticScheduling.Proofs.Property.FirstMatch
import StaticScheduling.Proofs.Instance.Resolution
import StaticScheduling.Proofs.Loading.Meaning
import StaticScheduling.Proofs.Loading.Declarations
import StaticScheduling.Proofs.Problem.Reachable
import StaticScheduling.Proofs.Problem.InPlace
import StaticScheduling.Proofs.Problem.Cycles
import StaticScheduling.Proofs.Problem.Readiness
import StaticScheduling.Proofs.Problem.EdgeViews
import StaticScheduling.Proofs.Loading.Connections
import StaticScheduling.Proofs.Loading.InPlace
import StaticScheduling.Proofs.Loading.Agreement
import StaticScheduling.Proofs.Naming
import StaticScheduling.Proofs.Naming.InPlace
import StaticScheduling.Proofs.Loading.Loaded
import StaticScheduling.Proofs.Loading.Registration
import StaticScheduling.Proofs.Loading.Description
import StaticScheduling.Proofs.Instance.OperandLists
import StaticScheduling.Proofs.Instance.JsonForms
import StaticScheduling.Proofs.Loading.Correspondence
import StaticScheduling.Proofs.Loading.Invariance
import StaticScheduling.Proofs.Saving.Document
import StaticScheduling.Proofs.Saving.Identity
import StaticScheduling.Proofs.Saving.NormalForm
import StaticScheduling.Proofs.Saving.Resaving
import StaticScheduling.Proofs.CommandLine.Formatting
import StaticScheduling.Proofs.CommandLine.Roundtrip
