import ScriptEngine.Code.Escape
import ScriptEngine.Code.Tree
import ScriptEngine.Number.Layout
import ScriptEngine.Pattern.Parser
import ScriptEngine.Program.Parser

namespace ScriptEngine

/-!
# Lowering

A program is lowered statement by statement; the first fault ends it.  Functions
are numbered when their bodies end, so the number of an inner function is below
that of the one around it.  Arguments of a call are lowered before its callee.
-/

/-- A lowering step: it may fail and it adds finished routines. -/
abbrev Lowering :=
  StateT (Array Routine) (Except ScriptError)

/-- A label in scope and whether it names a loop. -/
structure ActiveLabel where
  name : String
  isLoop : Bool
  deriving DecidableEq, Repr

/-- What a statement may refer to, and how the program is lowered. -/
structure LoweringContext where
  source : Source
  assertions : Bool
  labels : List ActiveLabel
  loops : Nat
  switches : Nat

namespace LoweringContext

/-- The context of a program or, with the same source, of a function body. -/
def fresh (source : Source) (assertions : Bool) : LoweringContext :=
  ⟨source, assertions, [], 0, 0⟩

/-- The context inside a function: jumps do not cross its border. -/
def inFunction (context : LoweringContext) : LoweringContext :=
  fresh context.source context.assertions

/-- The context inside a loop. -/
def inLoop (context : LoweringContext) : LoweringContext :=
  { context with loops := context.loops + 1 }

/-- The context inside a selection. -/
def inSelect (context : LoweringContext) : LoweringContext :=
  { context with switches := context.switches + 1 }

/-- The context under labels. -/
def under (context : LoweringContext) (names : List String) (isLoop : Bool) : LoweringContext :=
  { context with labels := (names.map (⟨·, isLoop⟩)).reverse ++ context.labels }

/-- The innermost label of a name. -/
def findLabel? (context : LoweringContext) (name : String) : Option ActiveLabel :=
  context.labels.find? (·.name == name)

/-- The place of a token. -/
def positionOf (context : LoweringContext) (token : Token) : Position :=
  token.position context.source

/-- Refuse a program at a token. -/
def refuse (context : LoweringContext) (token : Token) (fault : LoweringFault) : Lowering α :=
  throw ⟨.lowering fault, some (context.positionOf token)⟩

/-- Decode a string literal. -/
def decode (context : LoweringContext) (token : Token) : Lowering String :=
  match unescape token.literal with
  | .ok text => pure text
  | .error fault => context.refuse token fault

/-- The name of a property in an object literal. -/
def propertyName (context : LoweringContext) : PropertyKey → Lowering String
  | .name token => pure token.literal
  | .string token _ => context.decode token
  | .number _ value => pure (Number.text value)

/-- Compile the pattern of a literal. -/
def compilePattern (context : LoweringContext) (token : Token) (source flags : String) :
    Lowering Pattern :=
  match Pattern.compile source flags with
  | .ok pattern => pure pattern
  | .error fault => context.refuse token (.badPattern fault)

/-- What was found for a token, which is refused if nothing was. -/
def require (context : LoweringContext) (token : Token) (fault : LoweringFault) :
    Option α → Lowering α
  | some found => pure found
  | none => context.refuse token fault

end LoweringContext

/-- Number a finished function and keep it. -/
def keepRoutine (name : String) (parameters : List String) (body : List Action)
    (endsInReturn : Bool) : Lowering Routine := do
  let routines ← get
  let routine := Routine.mk routines.size name parameters body endsInReturn
  set (routines.push routine)
  pure routine

/-- Whether a list of statements ends in a return. -/
def endsInReturn (statements : List Statement) : Bool :=
  match statements.getLast? with
  | some (.giveBack _ _) => true
  | _ => false

/-- Put labels around a lowered statement, if there are any. -/
def underLabels (labels : List String) (action : Option Action) : Option Action :=
  if labels.isEmpty then action else some (.labeled labels (Action.asBody action))

/-- The token a clause starts with. -/
def Clause.token : Clause → Token
  | .mk token _ _ => token

/-- Whether a clause has no condition. -/
def Clause.isDefault : Clause → Bool
  | .mk _ condition _ => condition.isNone

/-- The name and the arguments of a call that asserts something. -/
def Expression.assertion? : Expression → Option (Token × List Expression)
  | .call _ (.name callee) arguments =>
      if callee.literal = "assert" then some (callee, arguments) else none
  | _ => none

mutual

/-- Lower an expression. -/
def Expression.lower (context : LoweringContext) : Expression → Lowering Term
  | .name token =>
      pure <|
        if token.literal = "undefined" then .constant .undefined
        else .read (.variable token.literal) (context.positionOf token)
  | .number _ value => pure (.constant (.number value))
  | .string token _ => do pure (.constant (.string (← context.decode token)))
  | .boolean _ value => pure (.constant (.boolean value))
  | .regex token source flags => do
      pure (.pattern (← context.compilePattern token source flags))
  | .this _ => pure .this
  | .function literal => do pure (.closure (← literal.lower context))
  | .array _ elements => do pure (.array (← Expression.lowerAll context elements))
  | .object _ properties => do pure (.object (← Property.lowerAll context properties))
  | .unary token _ (.number _ value) =>
      if token.literal = "-" then pure (.constant (.number (-value)))
      else do
        let operator ← context.require token (.unsupportedOperator token.literal)
          (UnaryOperator.ofText? token.literal)
        pure (.unary operator (.constant (.number value)) (context.positionOf token))
  | .unary token _ operand => do
      let operand ← operand.lower context
      let operator ← context.require token (.unsupportedOperator token.literal)
        (UnaryOperator.ofText? token.literal)
      pure (.unary operator operand (context.positionOf token))
  | .typeof _ (.name token) =>
      pure <|
        if token.literal = "undefined" then .typeof (.constant .undefined)
        else .typeofVariable token.literal
  | .typeof _ operand => do pure (.typeof (← operand.lower context))
  | .delete token target => do
      match ← target.lowerPlace context with
      | some place => pure (.delete place (context.positionOf token))
      | none => context.refuse target.startToken (.invalidDelete target.text)
  | .binary token _ left right => do
      let start := left.startToken
      let left ← left.lower context
      let right ← right.lower context
      let operator ← context.require start (.unsupportedOperator token.literal)
        (InfixOperator.ofText? token.literal)
      pure <|
        match operator with
        | .strict operator => .strict operator left right (context.positionOf token)
        | .both => .both left right
        | .either => .either left right
  | .assign token _ target value => do
      match ← target.lowerPlace context with
      | none => context.refuse target.startToken .invalidAssignment
      | some place =>
          let value ← value.lower context
          let operator ← context.require target.startToken
            (.unsupportedAssignment token.literal) (AssignmentOperator.ofText? token.literal)
          pure <|
            match operator with
            | .plain => .assign place value (context.positionOf token)
            | .combine operator => .combine operator place value (context.positionOf token)
  | .update token operator fixity target => do
      match ← target.lowerPlace context with
      | none => context.refuse target.startToken (.invalidUpdate fixity.text)
      | some place =>
          let start := match fixity with
            | .before => token
            | .after => target.startToken
          pure (.update operator fixity place (context.positionOf start))
  | .conditional _ condition consequence alternative => do
      let condition ← condition.lower context
      let consequence ← consequence.lower context
      let alternative ← alternative.lower context
      pure (.conditional condition consequence alternative)
  | .sequence _ first rest => do
      let first ← first.lower context
      let rest ← Expression.lowerAll context rest
      pure (.sequence (first :: rest))
  | .call _ (.member _ base property) arguments => do
      let arguments ← Expression.lowerAll context arguments
      let shown := base.text ++ "." ++ property.literal
      let position := context.positionOf base.startToken
      let base ← base.lower context
      pure (.callMethod base (.fixed property.literal) arguments shown position)
  | .call _ (.index _ base key) arguments => do
      let arguments ← Expression.lowerAll context arguments
      let shown := base.text ++ "[" ++ key.text ++ "]"
      let position := context.positionOf base.startToken
      let base ← base.lower context
      let key ← key.lower context
      pure (.callMethod base (.computed key) arguments shown position)
  | .call _ callee arguments => do
      let arguments ← Expression.lowerAll context arguments
      let shown := callee.text
      let position := context.positionOf callee.startToken
      let callee ← callee.lower context
      pure (.call callee arguments shown position)
  | .construct token constructor arguments => do
      let constructor ← constructor.lower context
      let arguments ← Expression.lowerAll context arguments
      pure (.construct constructor arguments (context.positionOf token))
  | .member _ base property => do
      let position := context.positionOf base.startToken
      let base ← base.lower context
      pure (.read (.property base (.fixed property.literal)) position)
  | .index _ base key => do
      let position := context.positionOf base.startToken
      let base ← base.lower context
      let key ← key.lower context
      pure (.read (.property base (.computed key)) position)

/-- Lower an expression that is assigned to, if it names a place. -/
def Expression.lowerPlace (context : LoweringContext) : Expression → Lowering (Option Place)
  | .name token => pure (some (.variable token.literal))
  | .member _ base property => do
      let base ← base.lower context
      pure (some (.property base (.fixed property.literal)))
  | .index _ base key => do
      let base ← base.lower context
      let key ← key.lower context
      pure (some (.property base (.computed key)))
  | _ => pure none

/-- Lower expressions from left to right. -/
def Expression.lowerAll (context : LoweringContext) : List Expression → Lowering (List Term)
  | [] => pure []
  | first :: rest => do
      let first ← first.lower context
      let rest ← Expression.lowerAll context rest
      pure (first :: rest)

/-- Lower an expression that may be missing. -/
def Expression.lowerOption (context : LoweringContext) :
    Option Expression → Lowering (Option Term)
  | none => pure none
  | some value => do pure (some (← value.lower context))

/-- Lower a property of an object literal. -/
def Property.lower (context : LoweringContext) : Property → Lowering Entry
  | .mk key value => do
      let key ← context.propertyName key
      let value ← value.lower context
      pure (.mk key value)

/-- Lower properties from left to right. -/
def Property.lowerAll (context : LoweringContext) : List Property → Lowering (List Entry)
  | [] => pure []
  | first :: rest => do
      let first ← first.lower context
      let rest ← Property.lowerAll context rest
      pure (first :: rest)

/-- Lower a function and number it. -/
def FunctionLiteral.lower (context : LoweringContext) : FunctionLiteral → Lowering Routine
  | .mk _ name parameters body => do
      let lowered ← Statement.lowerAll context.inFunction body
      let shown := match name with
        | some token => token.literal
        | none => ""
      keepRoutine shown (parameters.map Token.literal) lowered (endsInReturn body)

/-- Lower a declared variable. -/
def Declarator.lower (context : LoweringContext) : Declarator → Lowering Binding
  | .mk name value => do pure (.mk name.literal (← Expression.lowerOption context value))

/-- Lower declared variables from left to right. -/
def Declarator.lowerAll (context : LoweringContext) : List Declarator → Lowering (List Binding)
  | [] => pure []
  | first :: rest => do
      let first ← first.lower context
      let rest ← Declarator.lowerAll context rest
      pure (first :: rest)

/-- Lower a clause of a selection. -/
def Clause.lower (context : LoweringContext) : Clause → Lowering Case
  | .mk _ condition body => do
      let condition ← Expression.lowerOption context condition
      let body ← Statement.lowerAll context body
      pure (.mk condition body)

/-- Lower clauses from left to right; `hasDefault` tells whether a default clause was among those
before. -/
def Clause.lowerAll (context : LoweringContext) (hasDefault : Bool) :
    List Clause → Lowering (List Case)
  | [] => pure []
  | first :: rest => do
      if hasDefault && first.isDefault then context.refuse first.token .repeatedDefault
      else
        let lowered ← first.lower context
        let rest ← Clause.lowerAll context (hasDefault || first.isDefault) rest
        pure (lowered :: rest)

/--
Lower a statement under the labels written directly before it.  Empty statements
and switched-off assertions leave nothing.
-/
def Statement.lower (context : LoweringContext) (labels : List String) :
    Statement → Lowering (Option Action)
  | .labeled label body => do
      let name := label.literal
      if (context.findLabel? name).isSome || labels.contains name then
        context.refuse label (.repeatedLabel name)
      else body.lower context (labels ++ [name])
  | .whileLoop _ condition body => do
      let context := context.under labels true
      let condition ← condition.lower context
      let body ← body.lower context.inLoop []
      pure (some (.whileLoop labels condition (Action.asBody body)))
  | .forLoop _ start condition update body => do
      let context := context.under labels true
      let start ← Statement.lowerOption context start
      let condition ← Expression.lowerOption context condition
      let update ← Expression.lowerOption context update
      let body ← body.lower context.inLoop []
      pure (some (.forLoop labels start condition update (Action.asBody body)))
  | .forIn _ name declares subject body => do
      let context := context.under labels true
      let subject ← subject.lower context
      let body ← body.lower context.inLoop []
      pure (some (.forIn labels name.literal declares subject (Action.asBody body)))
  | .expression _ value => do
      let context := context.under labels false
      match value.assertion? with
      | none =>
          let term ← value.lower context
          pure (underLabels labels (some (.evaluate term)))
      | some (callee, arguments) =>
          if !context.assertions then pure (underLabels labels none)
          else if arguments.length = 1 then
            let term ← value.lower context
            let shown := String.join (Expression.texts arguments)
            pure (underLabels labels
              (some (.check term.soleArgument shown (context.positionOf callee))))
          else context.refuse callee (.assertArity arguments.length)
  | .declare _ declarators => do
      let bindings ← Declarator.lowerAll (context.under labels false) declarators
      pure (underLabels labels (some (.declare bindings)))
  | .function token literal => do
      let context := context.under labels false
      let routine ← literal.lower context
      if routine.name = "" then context.refuse token .namelessFunction
      else pure (underLabels labels (some (.define routine)))
  | .giveBack _ value => do
      let value ← Expression.lowerOption (context.under labels false) value
      pure (underLabels labels (some (.giveBack value)))
  | .empty _ => pure (underLabels labels none)
  | .block _ body => do
      let body ← Statement.lowerAll (context.under labels false) body
      pure (underLabels labels (some (.block body)))
  | .branch _ condition consequence alternative => do
      let context := context.under labels false
      let condition ← condition.lower context
      let consequence ← consequence.lower context []
      let alternative ← Statement.lowerAlternative context alternative
      pure (underLabels labels
        (some (.branch condition (Action.asBody consequence) alternative)))
  | .leave token label => do
      let context := context.under labels false
      match label with
      | some label =>
          match context.findLabel? label.literal with
          | some _ => pure (underLabels labels (some (.leave (some label.literal))))
          | none => context.refuse label (.undefinedLabel label.literal)
      | none =>
          if context.loops = 0 ∧ context.switches = 0 then context.refuse token .illegalBreak
          else pure (underLabels labels (some (.leave none)))
  | .again token label => do
      let context := context.under labels false
      match label with
      | some label =>
          match context.findLabel? label.literal with
          | some active =>
              if active.isLoop then
                pure (underLabels labels (some (.again (some label.literal))))
              else context.refuse label (.labelNotLoop label.literal)
          | none => context.refuse label (.undefinedLabel label.literal)
      | none =>
          if context.loops = 0 then context.refuse token .illegalContinue
          else pure (underLabels labels (some (.again none)))
  | .select _ subject clauses => do
      let context := context.under labels false
      let subject ← subject.lower context
      let cases ← Clause.lowerAll context.inSelect false clauses
      pure (underLabels labels (some (.select subject cases)))

/-- Lower statements from first to last. -/
def Statement.lowerAll (context : LoweringContext) : List Statement → Lowering (List Action)
  | [] => pure []
  | first :: rest => do
      let first ← first.lower context []
      let rest ← Statement.lowerAll context rest
      pure (first.toList ++ rest)

/-- Lower a statement that may be missing. -/
def Statement.lowerOption (context : LoweringContext) :
    Option Statement → Lowering (Option Action)
  | none => pure none
  | some statement => statement.lower context []

/-- Lower the alternative of a branch, if there is one. -/
def Statement.lowerAlternative (context : LoweringContext) :
    Option Statement → Lowering (Option (List Action))
  | none => pure none
  | some statement => do
      let lowered ← statement.lower context []
      pure (some (Action.asBody lowered))

end

namespace Code

/-- Lower statements in a context, beside the routines that are finished already. -/
def ofStatements (context : LoweringContext) (routines : Array Routine)
    (statements : List Statement) : Except ScriptError Code := do
  let (main, routines) ← (Statement.lowerAll context statements).run routines
  pure ⟨routines.toList, main⟩

/-- Lower a program, with or without its assertions. -/
def ofProgram (assertions : Bool) (program : Program) : Except ScriptError Code :=
  ofStatements (LoweringContext.fresh program.source assertions) #[] program.statements

/-- Read and lower the program of a source, or give the errors. -/
def compile (assertions : Bool) (source : Source) : Except (List ScriptError) Code :=
  let parsed := Program.parse source
  match parsed.errors with
  | [] =>
      match ofProgram assertions parsed.program with
      | .ok code => .ok code
      | .error error => .error [error]
  | errors => .error errors

end Code

/-- A compiler, which lowers programs one after another, and what it works with: the
context of the program at hand and the routines that are finished. -/
structure Compiler where
  context : LoweringContext
  routines : Array Routine

namespace Compiler

/-- A compiler that has not seen a program. -/
def new (assertions : Bool) : Compiler :=
  ⟨LoweringContext.fresh default assertions, #[]⟩

/-- A compiler about to lower a program: what is left of the one before is put away. -/
def prepare (compiler : Compiler) (program : Program) : Compiler :=
  ⟨LoweringContext.fresh program.source compiler.context.assertions, #[]⟩

/-- Lower a program.  The routines of the program are not kept, whether it could be
lowered or not. -/
def lower (compiler : Compiler) (program : Program) : Except ScriptError Code × Compiler :=
  let ready := compiler.prepare program
  (Code.ofStatements ready.context ready.routines program.statements, ready)

end Compiler

end ScriptEngine
