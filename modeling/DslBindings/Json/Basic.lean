/-!
# JSON values

A JSON value keeps the members of an object in the order of the text, repeated keys included, and a
number as it is written.

A text can be well formed and still hold a part that denotes no value. Such a part is `unreadable`:
it can be passed over, but nothing can be made of it.
-/

namespace DslBindings

/-- A JSON value. -/
inductive Json
  | null
  | bool (value : Bool)
  /-- A number, as it is written. -/
  | number (literal : String)
  | string (value : String)
  | array (items : List Json)
  | object (members : List (String × Json))
  /--
  A part of a text that is well formed and denotes no value: a string with half of a surrogate pair,
  a number beyond the range of double precision, an object with an unreadable key, or an array or
  object inside too many others.
  -/
  | unreadable
  deriving Repr, Inhabited

namespace Json

mutual

/-- Whether something can be made of every part of a value. -/
def isReadable : Json → Bool
  | .array items => allReadable items
  | .object members => membersReadable members
  | .unreadable => false
  | _ => true

/-- Whether something can be made of every part of these values. -/
def allReadable : List Json → Bool
  | [] => true
  | j :: js => j.isReadable && allReadable js

/-- Whether something can be made of every part of the values of these members. -/
def membersReadable : List (String × Json) → Bool
  | [] => true
  | (_, j) :: ms => j.isReadable && membersReadable ms

end

mutual

/-- The greatest number of arrays and objects that are inside one another. -/
def depth : Json → Nat
  | .array items => depthOfAll items + 1
  | .object members => depthOfMembers members + 1
  | _ => 0

/-- The greatest depth of these values. -/
def depthOfAll : List Json → Nat
  | [] => 0
  | j :: js => max j.depth (depthOfAll js)

/-- The greatest depth of the values of these members. -/
def depthOfMembers : List (String × Json) → Nat
  | [] => 0
  | (_, j) :: ms => max j.depth (depthOfMembers ms)

end

end Json

end DslBindings
