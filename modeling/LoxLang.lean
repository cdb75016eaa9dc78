import LoxLang.Main
import LoxLang.Proofs.Command.Routes
import LoxLang.Proofs.Cursor.Finishing
import LoxLang.Proofs.Evaluation.Adequacy
import LoxLang.Proofs.Evaluation.Confinement
import LoxLang.Proofs.Evaluation.Frame
import LoxLang.Proofs.Grammar.Recovery
import LoxLang.Proofs.Grammar.Resumption
import LoxLang.Proofs.Grammar.Viability
import LoxLang.Proofs.Safety.Overflow
import LoxLang.Proofs.Session.BareLine
import LoxLang.Proofs.Session.DeadCode
import LoxLang.Proofs.Session.ForLoop
import LoxLang.Proofs.Session.Identity
import LoxLang.Proofs.Session.Scoping
import LoxLang.Proofs.Session.Tracing
import LoxLang.Proofs.Source.PrintedNumber
import LoxLang.Proofs.Syntax.Codec
import LoxLang.Proofs.Syntax.Normalization
import LoxLang.Proofs.Syntax.Unambiguity
import LoxLang.Syntax.Agreement
