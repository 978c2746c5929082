import CodeSurvey.Main
import CodeSurvey.Records.Decoding
import CodeSurvey.Proofs.Excludes
import CodeSurvey.Proofs.Path
import CodeSurvey.Proofs.FileTree
import CodeSurvey.Proofs.Reach
import CodeSurvey.Proofs.FileChanges
import CodeSurvey.Proofs.SourcePlaces
import CodeSurvey.Proofs.SourceFiles
import CodeSurvey.Proofs.Survey
import CodeSurvey.Proofs.Exports
import CodeSurvey.Proofs.Bytes
import CodeSurvey.Proofs.Globs
import CodeSurvey.Proofs.Comments
import CodeSurvey.Proofs.Sites
import CodeSurvey.Proofs.ExportedNames
import CodeSurvey.Proofs.Declarations
import CodeSurvey.Proofs.Writing
import CodeSurvey.Proofs.Analysis
import CodeSurvey.Proofs.DiscoveredFiles
import CodeSurvey.Proofs.DiscoveryOrder
import CodeSurvey.Proofs.Encoding
import CodeSurvey.Proofs.TypeTexts
import CodeSurvey.Proofs.Privacy
import CodeSurvey.Proofs.Spellings
import CodeSurvey.Proofs.Imports
import CodeSurvey.Proofs.Surrogates
import CodeSurvey.Proofs.Descriptions
import CodeSurvey.Proofs.Parameters
import CodeSurvey.Proofs.Frameworks
import CodeSurvey.Proofs.Faults
import CodeSurvey.Proofs.Styles
import CodeSurvey.Proofs.FrameworkTable
import CodeSurvey.Proofs.Manifests
import CodeSurvey.Proofs.NormalPaths
import CodeSurvey.Proofs.NumberLiterals
import CodeSurvey.Proofs.FileTable
import CodeSurvey.Proofs.DescribedDeclarations
