import TableRules.Calendar.CatalogText
import TableRules.CommandLine.Run
import TableRules.Files.Folder
import TableRules.Main
import TableRules.Proofs.Calendar.FixedWidth
import TableRules.Proofs.Calendar.Rematching
import TableRules.Proofs.Evaluation.CellTexts
import TableRules.Proofs.Evaluation.Comparisons
import TableRules.Proofs.Evaluation.DigitRules
import TableRules.Proofs.Evaluation.Errors
import TableRules.Proofs.Evaluation.FormatChoice
import TableRules.Proofs.Evaluation.Headers
import TableRules.Proofs.Evaluation.MirroredCells
import TableRules.Proofs.Evaluation.MissingValues
import TableRules.Proofs.Evaluation.NullValues
import TableRules.Proofs.Evaluation.Parts
import TableRules.Proofs.Evaluation.Pools
import TableRules.Proofs.Evaluation.ReadCells
import TableRules.Proofs.Evaluation.RuleOrder
import TableRules.Proofs.Evaluation.Schedules
import TableRules.Proofs.Evaluation.SeparateColumns
import TableRules.Proofs.Evaluation.TextualRules
import TableRules.Proofs.Evaluation.Uniqueness
import TableRules.Proofs.Metrics.Conservation
import TableRules.Proofs.Metrics.RuleStatuses
import TableRules.Proofs.Number.NestedTypes
import TableRules.Proofs.Number.WrittenNumbers
import TableRules.Proofs.RulesText.Descriptions
import TableRules.Proofs.RulesText.GroupedNumbers
import TableRules.Proofs.RulesText.JoinedSources
import TableRules.Proofs.RulesText.Layouts
import TableRules.Proofs.RulesText.Limits
import TableRules.Proofs.RulesText.Reordering
import TableRules.Proofs.Ruleset.AtomicCalls
import TableRules.Proofs.Value.CanonicalText
import TableRules.Report.Record
