import BinaryQuadratic.CommandLine
import BinaryQuadratic.Json.Reader
import BinaryQuadratic.Main
import BinaryQuadratic.Proofs.ExactEnergy
import BinaryQuadratic.Proofs.Exhaustive
import BinaryQuadratic.Proofs.RoundTrip
import BinaryQuadratic.QuadraticModel
import BinaryQuadratic.Workspace
import BinaryQuadratic.Proofs.Binary64.SignedZero
import BinaryQuadratic.Proofs.CoefficientHistory
import BinaryQuadratic.Proofs.NormalForm
import BinaryQuadratic.Proofs.RecordInsertion
import BinaryQuadratic.Proofs.WorkspaceCalls
import BinaryQuadratic.Proofs.SampleIsolation
import BinaryQuadratic.Proofs.CursorSnapshot
import BinaryQuadratic.Proofs.InsertionOrder
import BinaryQuadratic.Proofs.SamplingOutcome
import BinaryQuadratic.Proofs.ConfiguredProblem
import BinaryQuadratic.Proofs.DirectoryTree
import BinaryQuadratic.Proofs.Binary64.Fields
import BinaryQuadratic.Proofs.CommandOutcome
import BinaryQuadratic.Proofs.AlikeConfigurations
import BinaryQuadratic.Proofs.Binary64.NearestRatio
import BinaryQuadratic.Proofs.Binary64.ShortestDecimal
import BinaryQuadratic.Proofs.Binary64.WrittenDigits
import BinaryQuadratic.Proofs.Binary64.Numerals
import BinaryQuadratic.Proofs.ConfigurationChanges
import BinaryQuadratic.Proofs.Json.ReadBack
import BinaryQuadratic.Proofs.ReadableTexts
import BinaryQuadratic.Proofs.RestoredConfigurations
import BinaryQuadratic.Proofs.RepeatedRuns
import BinaryQuadratic.Proofs.CountingRuns
import BinaryQuadratic.Proofs.ChosenPairs
import BinaryQuadratic.Proofs.InsertedCopies
import BinaryQuadratic.Proofs.NumericRows
import BinaryQuadratic.Proofs.Binary64.WholeNumbers
import BinaryQuadratic.Proofs.UniformRows
import BinaryQuadratic.Proofs.IntegerEnergy
import BinaryQuadratic.Proofs.Json.RearrangedValues
import BinaryQuadratic.Proofs.SavedDocuments
import BinaryQuadratic.Proofs.Binary64.PlainNumerals
import BinaryQuadratic.Proofs.ShownEnergies
