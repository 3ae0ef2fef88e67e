import Abacus.Main
import Abacus.Proofs.BatchMode
import Abacus.Proofs.CorrectRounding
import Abacus.Proofs.ExactWindow
import Abacus.Proofs.FileBindings
import Abacus.Proofs.FirstFault
import Abacus.Proofs.Layout
import Abacus.Proofs.LeftFold
import Abacus.Proofs.LineGrammar
import Abacus.Proofs.Nearest
import Abacus.Proofs.NumberKind
import Abacus.Proofs.Rendering
import Abacus.Proofs.ScannerHistory
import Abacus.Proofs.SessionRun
import Abacus.Proofs.StreamLines
import Abacus.Proofs.Substitution
import Abacus.Proofs.Tiling
import Abacus.Proofs.VariableLoading
import Abacus.Proofs.ViablePrefix
import Abacus.Proofs.Precedence
import Abacus.Proofs.Refusal
import Abacus.Proofs.RepeatedReads
import Abacus.Proofs.ExitStatus
import Abacus.Proofs.LogLevel
import Abacus.Proofs.FaithfulDisplay
import Abacus.Proofs.NormalSettings
import Abacus.Proofs.OutputLines
import Abacus.Proofs.Resumption
import Abacus.Proofs.TokenListing
import Abacus.Proofs.TraceReplay
import Abacus.Proofs.Trimming
import Abacus.Proofs.Validation
