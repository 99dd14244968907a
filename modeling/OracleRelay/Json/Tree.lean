/-
# What a JSON text says before its literals are read

A text of the right form can hold literals without a value: a number beyond the doubles, a string with half
of a character pair, more nesting than a value may have. Such literals are harmless where nobody looks at
them, so a text is first split into a tree, and a value is read from the part of the tree that is wanted.

Key definitions: `Json.Tree`, `Json.Tree.value?`, `Json.Tree.ofValue`.
-/
import OracleRelay.Json.Value

namespace OracleRelay
namespace Json

/-- A text split into its parts. `none` stands for a number or string literal without a value. -/
inductive Tree where
  | null
  | bool (b : Bool)
  | number (n : Option Number)
  | text (s : Option String)
  | array (items : List Tree)
  | object (members : List (Option String × Tree))
  deriving Repr, Inhabited

/-- How many arrays and objects a value may have inside each other. -/
def maxDepth : Nat := 127

namespace Tree

mutual

/-- The value of a tree, with at most `depth` arrays and objects inside each other. -/
def value? (depth : Nat) : Tree → Option Json
  | .null => some .null
  | .bool b => some (.bool b)
  | .number n => n.map .number
  | .text s => s.map .text
  | .array items => if depth = 0 then none else (values? (depth - 1) items).map .array
  | .object ms => if depth = 0 then none else (members? (depth - 1) ms).map ofMembers

/-- The values of a list of trees. -/
def values? (depth : Nat) : List Tree → Option (List Json)
  | [] => some []
  | t :: ts =>
    match value? depth t, values? depth ts with
    | some v, some vs => some (v :: vs)
    | _, _ => none

/-- The members of an object in the order of the text. -/
def members? (depth : Nat) : List (Option String × Tree) → Option (List (String × Json))
  | [] => some []
  | (k, t) :: rest =>
    match k, value? depth t, members? depth rest with
    | some k, some v, some ms => some ((k, v) :: ms)
    | _, _, _ => none

end

mutual

/-- The tree of a value. -/
def ofValue : Json → Tree
  | .null => .null
  | .bool b => .bool b
  | .number n => .number (some n)
  | .text s => .text (some s)
  | .array items => .array (ofValues items)
  | .object members => .object (ofMembers members)

/-- The trees of a list of values. -/
def ofValues : List Json → List Tree
  | [] => []
  | v :: vs => ofValue v :: ofValues vs

/-- The members of an object as trees. -/
def ofMembers : List (String × Json) → List (Option String × Tree)
  | [] => []
  | (k, v) :: rest => (some k, ofValue v) :: ofMembers rest

end

end Tree
end Json
end OracleRelay
