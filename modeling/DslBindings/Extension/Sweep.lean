import DslBindings.Extension.Function
import DslBindings.Header
import DslBindings.Sink

/-!
# Generating extension functions

What becomes of each method of a class is decided first, without any output; `outcomes` lists it.
Writing a class then offers the blocks of its outcomes to a sink, and its report counts them.
-/

namespace DslBindings

/-- What extension functions are generated with. -/
structure Generator where
  documentation : DocumentationIndex
  callbacks : Callbacks

/-- What becomes of a method. -/
inductive MethodOutcome
  /-- It takes no callback, or cannot have an extension function. -/
  | notEligible
  /-- It mentions a type variable that it does not declare. -/
  | unbound
  /-- An earlier method of the class has the same name and the same erased leading parameters. -/
  | clash
  | failed (error : ExtensionError)
  | generated (function : ExtensionFunction)
  deriving DecidableEq, Repr, Inhabited

namespace MethodOutcome

/-- What is written of a method. -/
def block? : MethodOutcome → Option String
  | .generated f => some f.block
  | _ => none

/-- The failure of a method. -/
def error? : MethodOutcome → Option ExtensionError
  | .failed e => some e
  | _ => none

def isGenerated : MethodOutcome → Bool
  | .generated _ => true
  | _ => false

end MethodOutcome

/-- What two methods of a class must not have in common to get an extension function each. -/
abbrev LeadingKey := String × List String

def MethodDescriptor.leadingKey (m : MethodDescriptor) : LeadingKey := (m.name, m.erasedLeading)

namespace Generator

/-- The documentation of a method of a class. -/
def documentationOf (g : Generator) (c : ClassDescriptor) (m : MethodDescriptor) :
    Option Documentation :=
  g.documentation[Documentation.signatureKey c.name m.name m.erasedParameters]?

/-- What becomes of a method with this callback if no earlier method stands in its way. -/
def generate (g : Generator) (c : ClassDescriptor) (m : MethodDescriptor) (callback : Callback) :
    MethodOutcome :=
  match ExtensionFunction.of? c m callback (g.documentationOf c m) with
  | .ok f => .generated f
  | .error e => .failed e

/-- What becomes of methods of a class, given the keys of the earlier ones. -/
def outcomesFrom (g : Generator) (c : ClassDescriptor) (taken : List LeadingKey) :
    List MethodDescriptor → List MethodOutcome
  | [] => []
  | m :: ms =>
    match m.callback? g.callbacks c with
    | none => .notEligible :: outcomesFrom g c taken ms
    | some callback =>
      if m.signature.hasUndeclaredVariable then .unbound :: outcomesFrom g c taken ms
      else if taken.contains m.leadingKey then .clash :: outcomesFrom g c taken ms
      else g.generate c m callback :: outcomesFrom g c (m.leadingKey :: taken) ms

/-- What becomes of the methods of a class. A generic class is passed over. -/
def outcomes (g : Generator) (c : ClassDescriptor) : List MethodOutcome :=
  if c.isGeneric then [] else g.outcomesFrom c [] c.methods

/-- What is written of a class, block by block. -/
def blocks (g : Generator) (c : ClassDescriptor) : List String :=
  (g.outcomes c).filterMap MethodOutcome.block?

end Generator

/-- What became of a class. -/
structure ClassReport where
  className : String
  isGeneric : Bool
  /-- How many methods mention a type variable that they do not declare. -/
  unbound : Nat
  /-- How many extension functions were written. -/
  generated : Nat
  failures : List ExtensionError
  deriving DecidableEq, Repr, Inhabited

/-- What became of the classes of a sweep. -/
structure SweepReport where
  classes : Nat := 0
  genericClasses : Nat := 0
  unbound : Nat := 0
  generated : Nat := 0
  failures : List ExtensionError := []
  deriving DecidableEq, Repr, Inhabited

namespace Generator

/-- The report on a class. -/
def classReport (g : Generator) (c : ClassDescriptor) : ClassReport :=
  let outcomes := g.outcomes c
  { className := c.name
    isGeneric := c.isGeneric
    unbound := outcomes.count .unbound
    generated := outcomes.countP MethodOutcome.isGenerated
    failures := outcomes.filterMap MethodOutcome.error? }

end Generator

/-- A sweep with one more class. -/
def SweepReport.add (s : SweepReport) (r : ClassReport) : SweepReport :=
  { classes := s.classes + 1
    genericClasses := s.genericClasses + if r.isGeneric then 1 else 0
    unbound := s.unbound + r.unbound
    generated := s.generated + r.generated
    failures := s.failures ++ r.failures }

namespace Generator

/-- Writes a class. There is a report if the sink took all of it. -/
def writeClass (g : Generator) (sink : Sink) (c : ClassDescriptor) : Option ClassReport × Sink :=
  match sink.writeAll (g.blocks c) with
  | (true, sink') => (some (g.classReport c), sink')
  | (false, sink') => (none, sink')

/-- Writes classes one after the other, up to the first of which the sink refused something. -/
def writeClassesFrom (g : Generator) (report : SweepReport) (sink : Sink) :
    List ClassDescriptor → Option SweepReport × Sink
  | [] => (some report, sink)
  | c :: cs =>
    match g.writeClass sink c with
    | (some r, sink') => writeClassesFrom g (report.add r) sink' cs
    | (none, sink') => (none, sink')

/-- Writes classes behind the header of the file. -/
def writeClasses (g : Generator) (sink : Sink) (classes : List ClassDescriptor) :
    Option SweepReport × Sink :=
  g.writeClassesFrom {} sink classes

/-- The report on a sweep over these classes. -/
def sweepReport (g : Generator) (classes : List ClassDescriptor) : SweepReport :=
  classes.foldl (fun report c => report.add (g.classReport c)) {}

/-- The source file with the extension functions of these classes. -/
def source (g : Generator) (classes : List ClassDescriptor) : String :=
  String.join (Header.extensions :: classes.flatMap g.blocks)

/-- Offers the header of the file. The answer says whether it was taken. -/
def writeHeader (sink : Sink) : Bool × Sink := sink.write Header.extensions

end Generator

end DslBindings
