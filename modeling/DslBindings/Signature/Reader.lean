import DslBindings.Signature.Class
import DslBindings.Text.Reading

/-!
# Reading generic signatures

Readers for the signature strings of classes, methods and fields. The descriptor of a method is a
method signature without type parameters, so `MethodSignature.parse` reads both.

A reader takes the characters that are left and gives back its value with the characters that it did
not use. One that has to use a character says so in its result, and every loop ends because of that.
A failure keeps the characters from the offending one on; its offset is what lies in front of them.
-/

namespace DslBindings

namespace Signature

/-- Why a signature is malformed. A character that was found is given by its first byte. -/
inductive Reason
  /-- Another character has to stand here. -/
  | expected (wanted : Char) (found : Option UInt8)
  /-- No type starts like this. -/
  | unexpected (found : Option UInt8)
  | expectedIdentifier
  | trailing
  | unterminatedParameters
  | emptyParameters
  | unterminatedArguments
  | emptyArguments
  deriving DecidableEq, Repr, Inhabited

/-- A byte between grave accents, shown as the character with its number. -/
def showByte (b : UInt8) : String := "`" ++ String.singleton (Char.ofNat b.toNat) ++ "`"

/-- A reason in words. -/
def Reason.message : Reason → String
  | .expected wanted none => "expected `" ++ String.singleton wanted ++ "`, found end of input"
  | .expected wanted (some b) => "expected `" ++ String.singleton wanted ++ "`, found " ++ showByte b
  | .unexpected none => "unexpected end of input"
  | .unexpected (some b) => "unexpected " ++ showByte b
  | .expectedIdentifier => "expected identifier"
  | .trailing => "trailing characters"
  | .unterminatedParameters => "unterminated type parameter list"
  | .emptyParameters => "empty type parameter list"
  | .unterminatedArguments => "unterminated type argument list"
  | .emptyArguments => "empty type argument list"

/-- A failure, with the characters that were left when it was found. -/
structure Failure where
  rest : List Char
  reason : Reason
  deriving DecidableEq, Repr, Inhabited

/-- A reader's answer on `s`: a failure, or a value for which it used at least one character. -/
abbrev Outcome (α : Type) (s : List Char) := Except Failure (Text.Reading α s)

/-- The first byte of what is left. -/
def firstByte? (s : List Char) : Option UInt8 :=
  s.head?.bind fun c => (String.utf8EncodeChar c).head?

/-- Reads one given character. -/
def expect (wanted : Char) : (s : List Char) → Outcome Unit s
  | [] => .error ⟨[], .expected wanted none⟩
  | c :: r =>
    if c = wanted then .ok ⟨(), r, Nat.lt_succ_self _⟩
    else .error ⟨c :: r, .expected wanted (firstByte? (c :: r))⟩

/-- Reads the characters in front of the first one of `stops`. There has to be one. -/
def identifier (stops : List Char) : (s : List Char) → Outcome String s
  | [] => .error ⟨[], .expectedIdentifier⟩
  | c :: r =>
    if stops.contains c then .error ⟨c :: r, .expectedIdentifier⟩
    else .ok ⟨String.ofList (c :: r.takeWhile (!stops.contains ·)), r.dropWhile (!stops.contains ·),
      Nat.lt_succ_of_le (Text.length_dropWhile_le _ r)⟩

/-- The characters that end an identifier in a class type. -/
def classStops : List Char := ['<', '.', ';']

/-- A class type with these arguments; without any it is plain. -/
def classType (name : String) : (arguments : List JvmType) → JvmType
  | [] => .plain name
  | arguments => .generic name arguments

/-- The primitive type that a letter stands for where `void` makes no sense. -/
def baseType? (c : Char) : Option PrimitiveType :=
  (PrimitiveType.ofDescriptor? c).filter (· ≠ .void)

mutual

/-- Reads a class type, a type variable or an array type. -/
def reference (s : List Char) : Outcome JvmType s :=
  match s with
  | 'L' :: r =>
    match identifier classStops r with
    | .error e => .error e
    | .ok ⟨name, r', h⟩ =>
      match suffix (Text.replaceChar '/' '.' name) r' with
      | .error e => .error e
      | .ok ⟨t, r'', h'⟩ => .ok ⟨t, r'', by simp at *; omega⟩
  | 'T' :: r =>
    match identifier [';'] r with
    | .error e => .error e
    | .ok ⟨name, r', h⟩ =>
      match expect ';' r' with
      | .error e => .error e
      | .ok ⟨_, r'', h'⟩ => .ok ⟨.typeVariable name, r'', by simp at *; omega⟩
  | '[' :: c :: r =>
    match baseType? c with
    | some p => .ok ⟨.array (.primitive p), r, by simp only [List.length_cons]; omega⟩
    | none =>
      match reference (c :: r) with
      | .error e => .error e
      | .ok ⟨t, r', h⟩ => .ok ⟨.array t, r', by simp at *; omega⟩
  | ['['] => .error ⟨[], .unexpected none⟩
  | s => .error ⟨s, .unexpected (firstByte? s)⟩
termination_by (s.length, 0)

/--
Reads what follows an identifier of a class type, whose name so far is `name`: type arguments, and
then either the next identifier or the end. The arguments of the last identifier are those of the
type.
-/
def suffix (name : String) (s : List Char) : Outcome JvmType s :=
  match s with
  | '<' :: r =>
    match arguments r with
    | .error e => .error e
    | .ok ⟨[], r', _⟩ => .error ⟨r', .emptyArguments⟩
    | .ok ⟨ts, r', h⟩ =>
      match next name ts r' with
      | .error e => .error e
      | .ok ⟨t, r'', h'⟩ => .ok ⟨t, r'', by simp at *; omega⟩
  | s => next name [] s
termination_by (s.length, 1)

/-- Reads what follows the arguments of an identifier of a class type. -/
def next (name : String) (ts : List JvmType) (s : List Char) : Outcome JvmType s :=
  match s with
  | '.' :: r =>
    match identifier classStops r with
    | .error e => .error e
    | .ok ⟨inner, r', h⟩ =>
      match suffix (name ++ "$" ++ inner) r' with
      | .error e => .error e
      | .ok ⟨t, r'', h'⟩ => .ok ⟨t, r'', by simp at *; omega⟩
  | s =>
    match expect ';' s with
    | .error e => .error e
    | .ok ⟨_, r, h⟩ => .ok ⟨classType name ts, r, h⟩
termination_by (s.length, 0)

/-- Reads type arguments up to the end of their list. -/
def arguments (s : List Char) : Outcome (List JvmType) s :=
  match s with
  | [] => .error ⟨[], .unterminatedArguments⟩
  | '>' :: r => .ok ⟨[], r, Nat.lt_succ_self _⟩
  | '*' :: r =>
    match arguments r with
    | .error e => .error e
    | .ok ⟨ts, r', h⟩ => .ok ⟨.unbounded :: ts, r', Nat.lt_succ_of_lt h⟩
  | '+' :: r =>
    match reference r with
    | .error e => .error e
    | .ok ⟨t, r', h⟩ =>
      match arguments r' with
      | .error e => .error e
      | .ok ⟨ts, r'', h'⟩ => .ok ⟨.bounded .out t :: ts, r'', Nat.lt_succ_of_lt (Nat.lt_trans h' h)⟩
  | '-' :: r =>
    match reference r with
    | .error e => .error e
    | .ok ⟨t, r', h⟩ =>
      match arguments r' with
      | .error e => .error e
      | .ok ⟨ts, r'', h'⟩ => .ok ⟨.bounded .into t :: ts, r'', Nat.lt_succ_of_lt (Nat.lt_trans h' h)⟩
  | s =>
    match reference s with
    | .error e => .error e
    | .ok ⟨t, r, h⟩ =>
      match arguments r with
      | .error e => .error e
      | .ok ⟨ts, r', h'⟩ => .ok ⟨t :: ts, r', by omega⟩
termination_by (s.length, 1)

end

/-- Reads a primitive type other than `void`, or a reference type. -/
def anyType (s : List Char) : Outcome JvmType s :=
  match s.head?.bind baseType? with
  | some p =>
    match s with
    | _ :: r => .ok ⟨.primitive p, r, Nat.lt_succ_self _⟩
    | [] => .error ⟨[], .unexpected none⟩
  | none => reference s

/-- The first bound of a type parameter that declares these. -/
def firstBound : List JvmType → JvmType
  | [] => .object
  | bound :: _ => bound

/-- Reads the interface bounds of a type parameter, each after a colon. -/
def interfaceBounds (s : List Char) :
    Except Failure { p : List JvmType × List Char // p.2.length ≤ s.length } :=
  match s with
  | ':' :: r =>
    match reference r with
    | .error e => .error e
    | .ok ⟨t, r', h⟩ =>
      match interfaceBounds r' with
      | .error e => .error e
      | .ok ⟨(ts, r''), h'⟩ => .ok ⟨(t :: ts, r''), by simp at *; omega⟩
  | s => .ok ⟨([], s), Nat.le_refl _⟩
termination_by s.length

/-- Whether the class bound of a type parameter is left out in front of these characters. -/
def lacksClassBound : List Char → Bool
  | ':' :: _ | '>' :: _ => true
  | _ => false

/-- Reads the bounds of a type parameter: a class bound that may be left out, then interface bounds. -/
def bounds (s : List Char) :
    Except Failure { p : List JvmType × List Char // p.2.length ≤ s.length } :=
  if lacksClassBound s then interfaceBounds s
  else
    match reference s with
    | .error e => .error e
    | .ok ⟨t, r, h⟩ =>
      match interfaceBounds r with
      | .error e => .error e
      | .ok ⟨(ts, r'), h'⟩ => .ok ⟨(t :: ts, r'), by simp at *; omega⟩

/-- Reads the declaration of a type parameter. -/
def typeParameter (s : List Char) : Outcome TypeParameter s :=
  match identifier [':', '>'] s with
  | .error e => .error e
  | .ok ⟨name, r, h⟩ =>
    match expect ':' r with
    | .error e => .error e
    | .ok ⟨_, r', h'⟩ =>
      match bounds r' with
      | .error e => .error e
      | .ok ⟨(ts, r''), h''⟩ => .ok ⟨⟨name, firstBound ts⟩, r'', by simp at *; omega⟩

/-- Reads type parameters up to the end of their list. -/
def typeParametersToEnd (s : List Char) : Outcome (List TypeParameter) s :=
  match s with
  | [] => .error ⟨[], .unterminatedParameters⟩
  | '>' :: r => .ok ⟨[], r, Nat.lt_succ_self _⟩
  | s =>
    match typeParameter s with
    | .error e => .error e
    | .ok ⟨p, r, h⟩ =>
      match typeParametersToEnd r with
      | .error e => .error e
      | .ok ⟨ps, r', h'⟩ => .ok ⟨p :: ps, r', by omega⟩
termination_by s.length

/-- Reads the type parameters of a class or of a method, if it declares any. -/
def typeParameters : List Char → Except Failure (List TypeParameter × List Char)
  | '<' :: r =>
    match typeParametersToEnd r with
    | .error e => .error e
    | .ok ⟨[], r', _⟩ => .error ⟨r', .emptyParameters⟩
    | .ok ⟨ps, r', _⟩ => .ok (ps, r')
  | s => .ok ([], s)

/-- Reads the parameter types of a method up to the end of their list. -/
def parametersToEnd (s : List Char) : Outcome (List JvmType) s :=
  match s with
  | ')' :: r => .ok ⟨[], r, Nat.lt_succ_self _⟩
  | s =>
    match anyType s with
    | .error e => .error e
    | .ok ⟨t, r, h⟩ =>
      match parametersToEnd r with
      | .error e => .error e
      | .ok ⟨ts, r', h'⟩ => .ok ⟨t :: ts, r', by omega⟩
termination_by s.length

/-- Reads the return type of a method. -/
def returnType : (s : List Char) → Outcome JvmType s
  | 'V' :: r => .ok ⟨.primitive .void, r, Nat.lt_succ_self _⟩
  | s => anyType s

/-- Reads the thrown types of a method, which nothing is made of, up to the end. -/
def thrownToEnd (s : List Char) : Except Failure Unit :=
  match s with
  | [] => .ok ()
  | '^' :: r =>
    match reference r with
    | .error e => .error e
    | .ok ⟨_, r', _⟩ => thrownToEnd r'
  | s => .error ⟨s, .trailing⟩
termination_by s.length

/-- Reads a class type and nothing else. -/
def classReference (s : List Char) : Outcome JvmType s :=
  match s with
  | 'L' :: r => reference ('L' :: r)
  | s => .error ⟨s, .expected 'L' (firstByte? s)⟩

/-- Reads the interfaces of a class up to the end. -/
def interfacesToEnd (s : List Char) : Except Failure (List JvmType) :=
  match s with
  | [] => .ok []
  | s =>
    match classReference s with
    | .error e => .error e
    | .ok ⟨t, r, _⟩ =>
      match interfacesToEnd r with
      | .error e => .error e
      | .ok ts => .ok (t :: ts)
termination_by s.length

/-- Reads a class signature. -/
def readClass (s : List Char) : Except Failure ClassSignature := do
  let (typeParameters, r) ← typeParameters s
  let ⟨superClass, r, _⟩ ← classReference r
  let interfaces ← interfacesToEnd r
  return ⟨typeParameters, some superClass, interfaces⟩

/-- Reads a method signature or a method descriptor. -/
def readMethod (s : List Char) : Except Failure MethodSignature := do
  let (typeParameters, r) ← typeParameters s
  let ⟨_, r, _⟩ ← expect '(' r
  let ⟨parameters, r, _⟩ ← parametersToEnd r
  let ⟨returned, r, _⟩ ← returnType r
  thrownToEnd r
  return ⟨typeParameters, parameters, returned⟩

/-- Reads a field signature. -/
def readField (s : List Char) : Except Failure JvmType := do
  let ⟨t, r, _⟩ ← anyType s
  if r.isEmpty then return t else throw ⟨r, .trailing⟩

end Signature

/-- What is wrong with a signature, and at which byte of it. -/
structure SignatureError where
  signature : String
  offset : Nat
  reason : Signature.Reason
  deriving DecidableEq, Repr, Inhabited

namespace SignatureError

/-- The error that a failure in a signature amounts to. -/
def ofFailure (signature : String) (e : Signature.Failure) : SignatureError :=
  ⟨signature, Text.utf8Length signature.toList - Text.utf8Length e.rest, e.reason⟩

def message (e : SignatureError) : String :=
  "Invalid signature `" ++ e.signature ++ "` at offset " ++ toString e.offset ++ ": "
    ++ e.reason.message

end SignatureError

/-- Reads the whole of a text. -/
def Signature.parse (read : List Char → Except Signature.Failure α) (text : String) :
    Except SignatureError α :=
  match read text.toList with
  | .ok value => .ok value
  | .error e => .error (.ofFailure text e)

/-- The class signature that a text spells. -/
def ClassSignature.parse : String → Except SignatureError ClassSignature :=
  Signature.parse Signature.readClass

/-- The method signature that a text spells. -/
def MethodSignature.parse : String → Except SignatureError MethodSignature :=
  Signature.parse Signature.readMethod

/-- The field signature that a text spells. -/
def JvmType.parse : String → Except SignatureError JvmType :=
  Signature.parse Signature.readField

end DslBindings
