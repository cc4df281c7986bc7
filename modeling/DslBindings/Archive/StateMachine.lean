import DslBindings.Archive.Decompression

/-!
# State machines for symbols

A machine has as many states for a symbol as its share is. To go on from a state, some bits tell which
state is the next one: the more states a symbol has, the fewer bits. A machine is written as the
shares of the symbols.
-/

namespace DslBindings

/-- What a state stands for, and which states can follow. -/
structure MachineState where
  symbol : Nat
  /-- How many bits tell the next state. -/
  width : Nat
  /-- The first of the states that can follow. -/
  least : Nat
  deriving DecidableEq, Repr, Inhabited

/-- The states of a machine. There are as many as some number of bits can tell. -/
abbrev StateMachine := Array MachineState

namespace StateMachine

open Decompression

/-! ### Machines of shares -/

/-- The share of a symbol. -/
inductive Share
  /-- Less than one state's share. There is one state all the same. -/
  | rare
  | states (count : Nat)
  deriving DecidableEq, Repr, Inhabited

/-- How many states a share is. -/
def Share.count : Share → Nat
  | .rare => 1
  | .states n => n

/-- The symbols of a machine, each as often as it has states, but for rare ones. -/
def common (shares : List Share) : List Nat :=
  shares.zipIdx.flatMap fun
    | (.rare, _) => []
    | (.states n, symbol) => List.replicate n symbol

/-- The rare symbols of a machine. -/
def rare (shares : List Share) : List Nat :=
  (shares.zipIdx.filter (·.1 = .rare)).map (·.2)

/-- How far apart the states of a symbol are. -/
def stride (size : Nat) : Nat := size / 2 + size / 8 + 3

/--
The symbols of the states. Rare ones have the last states, from the last one down. The others are
spread over the states in front of them in strides.
-/
def symbols (size : Nat) (shares : List Share) : Array Nat :=
  let rare := rare shares
  let free := size - rare.length
  let spread := ((List.range size).map fun i => i * stride size % size).filter (· < free)
  let last := (List.range rare.length).map fun i => size - 1 - i
  ((spread ++ last).zip (common shares ++ rare)).foldl
    (fun a (state, symbol) => a.setIfInBounds state symbol) (Array.replicate size 0)

/--
The state of a symbol whose rank is its share and the number of states that the symbol has in front
of it. The smaller the rank is, the more states can follow.
-/
def stateOfRank (log symbol rank : Nat) : MachineState :=
  let width := log - rank.log2
  ⟨symbol, width, (rank <<< width) - (1 <<< log)⟩

/-- The machine of shares of as many states as `log` bits can tell. -/
def ofShares (log : Nat) (shares : List Share) : StateMachine :=
  let ranks := (shares.map Share.count).toArray
  ((symbols (1 <<< log) shares).foldl
    (fun (done, ranks) symbol =>
      let rank := ranks.getD symbol 0
      (done.push (stateOfRank log symbol rank), ranks.setIfInBounds symbol (rank + 1)))
    ((#[] : StateMachine), ranks)).1

/-- The machine with one symbol. -/
def single (symbol : Nat) : StateMachine := #[⟨symbol, 0, 0⟩]

/-! ### Written shares -/

/-- Takes a number up to `most`. The smaller half of what is left over needs a bit less. -/
def upTo (most : Nat) : Step Nat := do
  let width := most.log2
  let short := (2 <<< width) - 1 - most
  let low ← number width
  if low < short then return low
  let n := low + ((← bit) <<< width)
  if n < 1 <<< width then return n else return n - short

/-- Takes how many more symbols have no share. -/
def absent : (limit : Nat) → Step Nat
  | 0 => throw .corrupt
  | limit + 1 => do
    let n ← number 2
    if n < 3 then return n
    return (← absent limit) + 3

/-- Takes shares until they are all there are. Those that there are come last one first. -/
def sharesFrom (mostSymbols : Nat) :
    (limit : Nat) → (left : Nat) → (done : List Share) → Step (List Share)
  | 0, _, _ => throw .corrupt
  | limit + 1, left, done => do
    if left = 0 then
      if mostSymbols < done.length then throw .corrupt
      return done.reverse
    if mostSymbols ≤ done.length then throw .corrupt
    match ← upTo (left + 1) with
    | 0 => sharesFrom mostSymbols limit (left - 1) (.rare :: done)
    | 1 =>
      let zeros := (← absent mostSymbols) + 1
      sharesFrom mostSymbols limit left (List.replicate zeros (.states 0) ++ done)
    | n + 2 => sharesFrom mostSymbols limit (left - (n + 1)) (.states (n + 1) :: done)

/-- Takes a machine for so many symbols at most, with as many states as `mostLog` bits can tell. -/
def written (mostLog mostSymbols : Nat) : Step StateMachine := do
  let log := 5 + (← number 4)
  if mostLog < log then throw .corrupt
  return ofShares log (← sharesFrom mostSymbols (mostSymbols + 1) (1 <<< log) [])

/-! ### Running machines -/

/-- Takes the state that a machine starts in. -/
def start (m : StateMachine) : Step MachineState := do return m.getD (← word m.size.log2) default

/-- Takes the next state. -/
def next (m : StateMachine) (s : MachineState) : Step MachineState := do
  return m.getD (s.least + (← word s.width)) default

end StateMachine

end DslBindings
