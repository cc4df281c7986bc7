import DslBindings.Json.Basic

/-!
# Records

A record is written as an object, or as an array of its fields in the order of their declaration. In
an object each field stands at most once, and members that are no fields are passed over. In an
array there is nothing behind the last field, and the last fields can be cut off.
-/

namespace DslBindings.Json

/-- What a record says about one of its fields. -/
inductive Field (α : Type)
  | given (value : α)
  /-- The object has no such member. -/
  | missing
  /-- The array ends before it. -/
  | cutOff
  deriving Repr, Inhabited

/-- The values that members have for a key. -/
def valuesOf (key : String) (members : List (String × α)) : List α :=
  (members.filter (·.1 = key)).map (·.2)

/-- What the members of an object say about a field. It may not stand there twice. -/
def fieldOf? (members : List (String × α)) (key : String) : Option (Field α) :=
  match valuesOf key members with
  | [] => some .missing
  | [v] => some (.given v)
  | _ => none

/-- The `n` fields of a record written as an array. -/
def fieldsOfItems : (n : Nat) → List α → List (Field α)
  | 0, _ => []
  | n + 1, [] => .cutOff :: fieldsOfItems n []
  | n + 1, v :: vs => .given v :: fieldsOfItems n vs

/-- The `n` fields of a record written as an array, if that has nothing behind them. -/
def fieldsOfItems? (n : Nat) (items : List α) : Option (List (Field α)) :=
  if items.length ≤ n then some (fieldsOfItems n items) else none

/-- What a value says about the fields of a record, in the order of `keys`. -/
def fields? (keys : List String) : Json → Option (List (Field Json))
  | .object members => keys.mapM (fieldOf? members)
  | .array items => fieldsOfItems? keys.length items
  | _ => none

namespace Field

/-- The value of a field that has to be given. -/
def required (decode : α → Option β) : Field α → Option β
  | .given v => decode v
  | _ => none

/-- The value of a field that can be null or be left out of an object. -/
def optional (decode : Json → Option β) : Field Json → Option (Option β)
  | .given .null | .missing => some none
  | .given v => (decode v).map some
  | .cutOff => none

/-- The value of a field that has a default. -/
def withDefault (value : β) (decode : α → Option β) : Field α → Option β
  | .given v => decode v
  | .missing | .cutOff => some value

end Field

/-- The text that a value is. -/
def toText? : Json → Option String
  | .string text => some text
  | _ => none

/-- The list that a value is. -/
def toListOf? (decode : Json → Option α) : Json → Option (List α)
  | .array items => items.mapM decode
  | _ => none

/-- The members of a value that is a map, each decoded. -/
def toMembersOf? (decode : Json → Option α) : Json → Option (List (String × α))
  | .object members => members.mapM fun (k, v) => (decode v).map (k, ·)
  | _ => none

/-- A value that can be null. -/
def toOptional? (decode : Json → Option α) : Json → Option (Option α)
  | .null => some none
  | v => (decode v).map some

/-- The number of 16 bits that a value is. It is written in digits alone. -/
def toUInt16? : Json → Option UInt16
  | .number literal =>
    if literal.toList.all Char.isDigit then
      let n := literal.toList.foldl (fun n d => n * 10 + (d.toNat - '0'.toNat)) 0
      if n < UInt16.size then some (UInt16.ofNat n) else none
    else none
  | _ => none

/-- A natural number as a value. -/
def ofNat (n : Nat) : Json := .number (toString n)

/-- A list of texts as a value. -/
def ofTexts (texts : List String) : Json := .array (texts.map .string)

/-- A value that can be absent. -/
def ofOption (encode : α → Json) : Option α → Json
  | some a => encode a
  | none => .null

end DslBindings.Json
