import MonkeyLang.Journal.Line
import MonkeyLang.Main
import MonkeyLang.Proofs.Console.Arguments
import MonkeyLang.Proofs.Console.Lines
import MonkeyLang.Proofs.Console.OneLine
import MonkeyLang.Proofs.Evaluation.Modes
import MonkeyLang.Proofs.Journal.Balance
import MonkeyLang.Proofs.Parse.Composition
import MonkeyLang.Proofs.Parse.Reports
import MonkeyLang.Proofs.Parse.Rereading
import MonkeyLang.Proofs.Parse.Settling
import MonkeyLang.Proofs.Parse.Skeleton
import MonkeyLang.Proofs.Parse.Spans
import MonkeyLang.Rounds
import MonkeyLang.Session
