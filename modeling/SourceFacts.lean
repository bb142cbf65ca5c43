import SourceFacts.Main
import SourceFacts.Language.Json
import SourceFacts.Proofs.CallOrder.Layers
import SourceFacts.Proofs.CallOrder.SameCalls
import SourceFacts.Proofs.CallOrder.Counters
import SourceFacts.Proofs.Outline.InCallOrder
import SourceFacts.Proofs.QueryCache.FeatureRuns
import SourceFacts.Proofs.QueryCache.SetRuns
import SourceFacts.Proofs.Detector.Eligibility
import SourceFacts.Proofs.Engine.TakenKey
import SourceFacts.Proofs.FeatureQuery.Predicates
import SourceFacts.Proofs.Catalog.Loads
import SourceFacts.Proofs.Engine.Independence
import SourceFacts.Proofs.Engine.Outcomes
import SourceFacts.Proofs.Engine.Containment
import SourceFacts.Proofs.Json.Records
import SourceFacts.Proofs.Outline.Completeness
import SourceFacts.Proofs.FeatureQuery.Reading
import SourceFacts.Proofs.FeatureQuery.Seams
import SourceFacts.Proofs.FeatureQuery.MethodCapture
import SourceFacts.Proofs.DataModel.Strategies
import SourceFacts.Proofs.Imports.Closure
import SourceFacts.Proofs.Imports.FirstBindings
import SourceFacts.Proofs.Detector.Libraries
import SourceFacts.Proofs.Detector.Members
import SourceFacts.Proofs.Syntax.Reading
import SourceFacts.Proofs.Syntax.Terminals
import SourceFacts.Proofs.Syntax.ClassBodies
import SourceFacts.Proofs.DataModel.Namesakes
import SourceFacts.Proofs.Catalog.Union
import SourceFacts.Proofs.PackageManager.Keys
import SourceFacts.Proofs.Outline.Locality
import SourceFacts.Proofs.Syntax.Traversal
import SourceFacts.Proofs.Outline.Calls
import SourceFacts.Proofs.Outline.Spans
import SourceFacts.Proofs.CommandLine.Scan
