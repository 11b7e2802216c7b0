import MapBlocks.Transform.Standard
import MapBlocks.Settings.OfText
import MapBlocks.Proofs.SiblingTraversal
import MapBlocks.Proofs.SimultaneousEdits
import MapBlocks.Proofs.OnePassRewriting
import MapBlocks.Proofs.ScannedEdits
import MapBlocks.Proofs.BlockAccounting
import MapBlocks.Proofs.MapFreeTrees
import MapBlocks.Proofs.PipelineOrder
import MapBlocks.Proofs.NumberCharacters
import MapBlocks.Proofs.ShortestDecimal
import MapBlocks.Proofs.ScriptLiterals
import MapBlocks.Proofs.MarkupLines
import MapBlocks.Proofs.ElementClosings
import MapBlocks.Proofs.ElementAttributes
import MapBlocks.Proofs.DescriptionCopies
import MapBlocks.Proofs.SpecDecoding
import MapBlocks.Proofs.FiniteDoubles
import MapBlocks.Proofs.TrimmedTexts
import MapBlocks.Proofs.DescriptionInvariant
import MapBlocks.Proofs.JsonReading
import MapBlocks.Proofs.CanonicalJson
import MapBlocks.Proofs.WrittenPositions
import MapBlocks.Proofs.NodeAttributes
import MapBlocks.Proofs.FittingFields
import MapBlocks.Proofs.WrittenNodes
import MapBlocks.Proofs.StoredDocuments
import MapBlocks.Proofs.ReadNodes
import MapBlocks.Proofs.ReadNesting
import MapBlocks.Proofs.StableReading
import MapBlocks.Proofs.SameValues
import MapBlocks.Proofs.UnknownKinds
import MapBlocks.Proofs.DefinedNumbers
import MapBlocks.Proofs.AbsentNumbers
import MapBlocks.Proofs.DistinctKeys
import MapBlocks.Proofs.PayloadSpellings
import MapBlocks.Proofs.ScriptEscapes
import MapBlocks.Proofs.LanguageOrder
import MapBlocks.Proofs.WholeNumbers
import MapBlocks.Proofs.ListedParts
import MapBlocks.Proofs.MarkerNotations
import MapBlocks.Proofs.LayerNotations
import MapBlocks.Proofs.LiteralValues
import MapBlocks.Proofs.RoundingToNearest
import MapBlocks.Proofs.PackedDoubles
import MapBlocks.Proofs.CorrectRounding
import MapBlocks.Proofs.CorrectReading
import MapBlocks.Proofs.NumeralTexts
import MapBlocks.Proofs.NumberTexts
import MapBlocks.Proofs.WrittenEntries
import MapBlocks.Proofs.RealSpellings
import MapBlocks.Proofs.UnsetValues
import MapBlocks.Proofs.ShortestDigits
import MapBlocks.Proofs.ScriptNumbers
import MapBlocks.Proofs.CountedWords
