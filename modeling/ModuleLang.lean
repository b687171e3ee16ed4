import ModuleLang.CheckedModule
import ModuleLang.CommandLine.Run
import ModuleLang.Host.Document
import ModuleLang.Json.Reader
import ModuleLang.Main
import ModuleLang.Proofs.RoundTrip.Module
import ModuleLang.Proofs.Token.Tiling
import ModuleLang.Proofs.Validation.Scopes
import ModuleLang.Record.Host
import ModuleLang.Record.Node
import ModuleLang.Record.Report
import ModuleLang.Tree.Printer
import ModuleLang.Proofs.Faithful.Module
import ModuleLang.Proofs.Coupled.Inline
import ModuleLang.Proofs.Coupled.Joined
import ModuleLang.Proofs.Typing.Conservative
import ModuleLang.Proofs.Linked.Order
import ModuleLang.Proofs.Validation.Unreachable
import ModuleLang.Proofs.Typing.Reinference
import ModuleLang.Proofs.Validation.Types
import ModuleLang.Proofs.Typing.Forgetting
import ModuleLang.Proofs.Typing.Binding
import ModuleLang.Proofs.Typing.Storing
import ModuleLang.Proofs.Validation.Void
import ModuleLang.Proofs.Typing.ScopeTree
import ModuleLang.Proofs.Token.Literal
import ModuleLang.Proofs.RoundTrip.TypeName
import ModuleLang.Proofs.RoundTrip.PrintedTree
import ModuleLang.Proofs.Repetition.Module
import ModuleLang.Proofs.Tree.SpanOperations
import ModuleLang.Proofs.Validation.Repeated
import ModuleLang.Proofs.Parsing.Recovery
import ModuleLang.Proofs.Token.Lookahead
import ModuleLang.Proofs.Parsing.Termination
import ModuleLang.Proofs.Parsing.FunctionName
import ModuleLang.Proofs.Typing.Exactness
import ModuleLang.Proofs.Tree.Exchange
