import Lox.Command
import Lox.Prompt.Editing
import Lox.Prompt.Highlight
import Lox.Main
import Lox.Proofs.Grammar
import Lox.Proofs.Grammar.Conditional
import Lox.Proofs.Grammar.Recovery
import Lox.Proofs.Grammar.RoundTrip
import Lox.Proofs.Grammar.Shape
import Lox.Proofs.Eval.Agree
import Lox.Proofs.Eval.Call
import Lox.Proofs.Eval.Expression
import Lox.Proofs.Eval.Statement
import Lox.Proofs.Eval.Watch
import Lox.Proofs.Prelude.Results
import Lox.Proofs.Prompt.Nesting
import Lox.Proofs.Prompt.Reset
import Lox.Proofs.Prompt.Shown
import Lox.Proofs.Prompt.Slash
import Lox.Proofs.Scope.Errors
import Lox.Proofs.Scope.Unread
import Lox.Proofs.Session.Answer
import Lox.Proofs.Session.Balance
import Lox.Proofs.Session.Completion
import Lox.Proofs.Session.Frames
import Lox.Proofs.Session.Hierarchy
import Lox.Proofs.Session.Identity
import Lox.Proofs.Session.Initializers
import Lox.Proofs.Session.Join
import Lox.Proofs.Session.Located
import Lox.Proofs.Session.Loop
import Lox.Proofs.Session.Rename
import Lox.Proofs.Session.Start
import Lox.Proofs.Session.Super
import Lox.Proofs.Session.Survival
import Lox.Proofs.Store.Chain
import Lox.Proofs.Token.Comment
import Lox.Proofs.Token.Partition
import Lox.Proofs.Token.Respace
import Lox.Proofs.Value.Equality
