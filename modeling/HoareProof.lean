import HoareProof.CommandLine.Run
import HoareProof.Main
import HoareProof.Proofs.Paths
import HoareProof.Proofs.Rules
import HoareProof.Proofs.Semantics
import HoareProof.Proofs.Soundness
import HoareProof.Proofs.Edits
import HoareProof.Proofs.Application
import HoareProof.Proofs.Leniency
import HoareProof.Proofs.Replay
import HoareProof.Proofs.Provenance
import HoareProof.Proofs.Undo
import HoareProof.Proofs.Marking
import HoareProof.Proofs.Inquiry
import HoareProof.Proofs.Verdicts
import HoareProof.Proofs.Agreement
import HoareProof.Proofs.Addressing
import HoareProof.Proofs.Locality
import HoareProof.Proofs.Rounding
import HoareProof.Proofs.DecimalText
import HoareProof.Proofs.InfixGrammar
import HoareProof.Proofs.PrefixGrammar
import HoareProof.Proofs.Lexemes
import HoareProof.Proofs.Spelling
import HoareProof.Proofs.Scanning
import HoareProof.Proofs.Legible
import HoareProof.Proofs.HumanForm
import HoareProof.Proofs.LenientComparison
import HoareProof.Proofs.SolverForm
import HoareProof.Proofs.Outcomes
import HoareProof.Proofs.SolverScripts
import HoareProof.Proofs.AssertionLanguage
import HoareProof.Proofs.StatementText
import HoareProof.Proofs.StatementLanguage
import HoareProof.Proofs.TermLanguage
import HoareProof.Proofs.MalformedText
import HoareProof.Proofs.Places
import HoareProof.Proofs.Respacing
import HoareProof.Proofs.JsonText
import HoareProof.Proofs.ProofFiles
import HoareProof.Proofs.Disks
import HoareProof.Proofs.Reloading
import HoareProof.Proofs.Loading
import HoareProof.Proofs.CommandEdits
import HoareProof.Proofs.Congruence
import HoareProof.Proofs.Coverage
import HoareProof.Proofs.Finalizing
import HoareProof.Proofs.StraightLine
import HoareProof.Proofs.Substitution
import HoareProof.Proofs.Outdated
