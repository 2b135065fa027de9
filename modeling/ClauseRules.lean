import ClauseRules.Main
import ClauseRules.Proofs.Node.Sections
import ClauseRules.Proofs.Rule.Comparison
import ClauseRules.Proofs.Sorted.Members
import ClauseRules.Files.Tree
import ClauseRules.Proofs.Firing.Basic
import ClauseRules.Proofs.Firing.Settling
import ClauseRules.Proofs.Rule.Evaluation
import ClauseRules.Proofs.Section.Applicability
import ClauseRules.Proofs.Section.StatusRules
import ClauseRules.Proofs.Section.Exclusivity
import ClauseRules.Proofs.Compile.Derivation
import ClauseRules.Proofs.Compile.Passes
import ClauseRules.Proofs.Compile.Success
import ClauseRules.Proofs.Firing.Governed
import ClauseRules.Proofs.Compile.Clauses
import ClauseRules.Proofs.Compile.Correctness
import ClauseRules.Proofs.Compile.Transfer
import ClauseRules.Proofs.Compile.Frame
import ClauseRules.Proofs.Document.Sequence
import ClauseRules.Proofs.Document.Independence
import ClauseRules.Proofs.Compile.ObjectClass
import ClauseRules.Proofs.Document.Modularity
import ClauseRules.Proofs.Compile.References
import ClauseRules.Proofs.Compile.Met
import ClauseRules.Proofs.Compile.Turns
import ClauseRules.Proofs.Compile.Duplicates
import ClauseRules.Proofs.Compile.Agreement
import ClauseRules.Proofs.Compile.Calls
import ClauseRules.Proofs.Document.References
import ClauseRules.Proofs.Document.Classes
import ClauseRules.Proofs.Document.Duplicates
import ClauseRules.Proofs.Compile.RuleNames
import ClauseRules.Proofs.Document.RuleNames
import ClauseRules.Proofs.Firing.Consistency
import ClauseRules.Proofs.Document.Consistency
import ClauseRules.Proofs.Document.Transfers
import ClauseRules.Proofs.Compile.Repair
import ClauseRules.Proofs.Compile.Failure
import ClauseRules.Proofs.Document.Validity
import ClauseRules.Proofs.Document.Coverage
import ClauseRules.Proofs.Rule.Transitivity
import ClauseRules.Proofs.Sorted.Order
import ClauseRules.Proofs.Json.Printed
import ClauseRules.Proofs.Json.Records
import ClauseRules.Proofs.Rule.Json
import ClauseRules.Proofs.Rule.Nesting
import ClauseRules.Proofs.Document.RuleFile
import ClauseRules.Proofs.Rule.Bytes
import ClauseRules.Proofs.Document.Unbroken
import ClauseRules.Proofs.Drl.Blocks
import ClauseRules.Proofs.Drl.Formula
import ClauseRules.Proofs.Firing.Course
import ClauseRules.Proofs.Section.Summaries
import ClauseRules.Proofs.Document.Results
import ClauseRules.Proofs.Record.Origins
import ClauseRules.Proofs.Record.Verdicts
import ClauseRules.Proofs.Text.Lowering
import ClauseRules.Proofs.Sorted.Entries
import ClauseRules.Proofs.Dictionary.Keys
import ClauseRules.Proofs.Dictionary.File
import ClauseRules.Proofs.Context.Narrowing
import ClauseRules.Proofs.Files.Tree
import ClauseRules.Proofs.Node.Normal
import ClauseRules.Proofs.CommandLine.Writing
import ClauseRules.Proofs.Compile.Normal
import ClauseRules.Proofs.Compile.Interleaving
import ClauseRules.Proofs.Compile.Pruning
import ClauseRules.Proofs.Document.Vocabulary
import ClauseRules.Proofs.Name.Spelling
import ClauseRules.Proofs.Dictionary.Audit
import ClauseRules.Proofs.Record.Rules
import ClauseRules.Proofs.Document.Tables
import ClauseRules.Proofs.Comparator.Escapes
import ClauseRules.Proofs.Name.Joining
import ClauseRules.Proofs.Record.Targets
