import DslBindings.Archive.Decompression

/-!
# Prefix codes

Codes in which no word starts another one. The shortest words come first, and among those of one
length the numbers of the symbols decide, so that the lengths of the words make up the code.
-/

namespace DslBindings

/-- A prefix code: for each length from one on, the symbols whose code words have it. -/
abbrev PrefixCode := List (List Nat)

namespace PrefixCode

open Decompression

/-- The symbols with a length, given the lengths of all symbols. -/
def symbolsOfLength (lengths : List Nat) (length : Nat) : List Nat :=
  (lengths.zipIdx.filter (·.1 = length)).map (·.2)

/-- The code of words with at most so many bits in which the symbols have these lengths. A length of
zero leaves a symbol out. -/
def ofLengths (lengths : List Nat) (most : Nat) : PrefixCode :=
  (List.range most).map fun i => symbolsOfLength lengths (i + 1)

/-- How many sequences of `most` bits start with a code word of a code. -/
def covered : (most : Nat) → PrefixCode → Nat
  | most + 1, symbols :: longer => (symbols.length <<< most) + covered most longer
  | _, _ => 0

/-- Takes a code word. `first` is the first one of its length, and `word` what was taken of it. -/
def symbolFrom (first word : Nat) : PrefixCode → Step Nat
  | [] => throw .corrupt
  | symbols :: longer => do
    let word := 2 * word + (← bit)
    match symbols[word - first]? with
    | some symbol => return symbol
    | none => symbolFrom (2 * (first + symbols.length)) word longer

/-- Takes a symbol. -/
def symbol (code : PrefixCode) : Step Nat := symbolFrom 0 0 code

end PrefixCode

end DslBindings
