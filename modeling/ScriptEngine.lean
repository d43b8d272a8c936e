import ScriptEngine.Main
import ScriptEngine.Proofs.Builtin.BoundedLists
import ScriptEngine.Proofs.Builtin.PrototypeViews
import ScriptEngine.Proofs.Builtin.RadixTexts
import ScriptEngine.Proofs.Builtin.Replacing
import ScriptEngine.Proofs.Builtin.Slicing
import ScriptEngine.Proofs.Check.Withdrawals
import ScriptEngine.Proofs.Code.Agreement
import ScriptEngine.Proofs.Code.NumberedListings
import ScriptEngine.Proofs.CommandLine.ExitStatus
import ScriptEngine.Proofs.CommandLine.ShownLines
import ScriptEngine.Proofs.Machine.Declarations
import ScriptEngine.Proofs.Machine.LooseEquality
import ScriptEngine.Proofs.Machine.Projection
import ScriptEngine.Proofs.Machine.PropertyHistory
import ScriptEngine.Proofs.Program.BehindOperands
import ScriptEngine.Proofs.Session.Arrays
import ScriptEngine.Proofs.Session.ConfiguredNames
import ScriptEngine.Proofs.Session.DecimalLiterals
import ScriptEngine.Proofs.Session.DroppedAssertions
import ScriptEngine.Proofs.Session.LoopForms
import ScriptEngine.Proofs.Session.MethodTexts
import ScriptEngine.Proofs.Session.MoreInput
import ScriptEngine.Proofs.Token.QuotedBodies
