/-
# Micheline expressions

Types and values of Tezos contracts as their nodes write them: a node has a primitive or a literal, arguments and
annotations; a bare list is a node of arguments alone. A type names the leaves of a value by annotations, so type
and value side by side give named values. Pairs may be nested or flat on either side; the side with fewer
arguments is spread by one level before the two are laid side by side.

Key definitions: `Micheline`, `Micheline.ofJson`, `Micheline.value`, `Micheline.members`, `Micheline.extract`,
`Micheline.find`, `MichelineFault`.
-/
import OracleRelay.Json.Printer
import OracleRelay.Text.Numeral

namespace OracleRelay

/-- What a node of an expression says besides its arguments. -/
structure Micheline.Head where
  prim : String := ""
  string : String := ""
  int : String := ""
  bytes : String := ""
  annots : List String := []
  deriving DecidableEq, Repr, Inhabited

/-- An expression. Each part keeps the value that it was read from, and a value that is no node stands where it
was found. -/
inductive Micheline where
  | node (head : Micheline.Head) (args : List Micheline) (source : Json)
  | unreadable (source : Json)
  deriving Inhabited

/-- Why nothing can be taken from an expression. -/
inductive MichelineFault where
  | unreadable
  | annotationCount (count : Nat)
  | annotationFormat (annot : String)
  | notAnnotated (annot : String)
  | unexpectedType (prim : String)
  | badElement (prim : String)
  | arityMismatch (types values : Nat)
  | badInt (literal : String)
  | noValue
  deriving DecidableEq, Repr

/-- The text of a fault. -/
def MichelineFault.message : MichelineFault → String
  | .unreadable => "invalid Michelson JSON: not a node"
  | .annotationCount count => "expected one annotation, but received " ++ Numeral.decimal count
  | .annotationFormat annot => "invalid annotation format (" ++ annot ++ "), expected prefix (%)"
  | .notAnnotated annot => "expression doesn't contain the annotation " ++ annot
  | .unexpectedType prim => "unexpected expression type " ++ prim
  | .badElement prim => "expected element (Elt) with 2 args, but instead got " ++ prim
  | .arityMismatch types values =>
    "value has " ++ Numeral.decimal values ++ " args, type expects " ++ Numeral.decimal types
  | .badInt literal => "invalid int literal " ++ literal
  | .noValue => "could not get value from variant"

namespace Micheline

/-- A string among the members of an object, empty when it is left out. -/
def textMember? (name : String) (members : List (String × Json)) : Option String :=
  match Json.lookup name members with
  | none => some ""
  | some v => v.text?

/-- The annotations among the members of an object. -/
def annotsMember? (members : List (String × Json)) : Option (List String) :=
  match Json.lookup "annots" members with
  | none => some []
  | some v => v.array?.bind (·.mapM Json.text?)

/-- What the members of an object say besides the arguments. -/
def Head.ofMembers? (members : List (String × Json)) : Option Head := do
  return {
    prim := ← textMember? "prim" members
    string := ← textMember? "string" members
    int := ← textMember? "int" members
    bytes := ← textMember? "bytes" members
    annots := ← annotsMember? members }

mutual

/-- The expression that a value stands for. -/
def ofJson : Json → Micheline
  | .array items => .node {} (ofItems items) (.array items)
  | .object members =>
    match Head.ofMembers? members, argsOf? members with
    | some head, some args => .node head args (.object members)
    | _, _ => .unreadable (.object members)
  | v => .unreadable v

/-- The expressions that the elements of a list stand for. -/
def ofItems : List Json → List Micheline
  | [] => []
  | v :: vs => ofJson v :: ofItems vs

/-- The arguments among the members of an object, none at all when they are left out. -/
def argsOf? : List (String × Json) → Option (List Micheline)
  | [] => some []
  | (name, v) :: rest => if name = "args" then listOf? v else argsOf? rest

/-- The expressions of a list. -/
def listOf? : Json → Option (List Micheline)
  | .array items => some (ofItems items)
  | _ => none

end

/-- The value that an expression was read from. -/
def source : Micheline → Json
  | .node _ _ source => source
  | .unreadable source => source

/-- The arguments of a node. -/
def args : Micheline → List Micheline
  | .node _ args _ => args
  | .unreadable _ => []

/-- A string member, left out when it is empty. -/
def member (name text : String) : List (String × Json) := if text = "" then [] else [(name, .text text)]

/-- An expression as a value: what is empty is left out, and the arguments are as they were read. -/
def toJson : Micheline → Json
  | .node head args _ => .ofMembers
      (member "prim" head.prim ++ member "string" head.string ++ member "int" head.int ++
        member "bytes" head.bytes ++ (if args.isEmpty then [] else [("args", .array (args.map source))]) ++
        (if head.annots.isEmpty then [] else [("annots", Json.texts head.annots)]))
  | .unreadable source => source

/-- The name that the one annotation of a node gives. -/
def annotation : List String → Except MichelineFault String
  | [annot] =>
    match annot.toList with
    | '%' :: name => .ok (String.ofList name)
    | _ => .error (.annotationFormat annot)
  | annots => .error (.annotationCount annots.length)

/-- The literal of a node that has one: a string before a number, a number before octets. -/
def Head.literal? (head : Head) : Option (Except MichelineFault Json) :=
  if head.string ≠ "" then some (.ok (.text head.string))
  else if head.int ≠ "" then
    some (match Numeral.signed? 64 head.int.toList with
      | some n => .ok (.int n)
      | none => .error (.badInt head.int))
  else if head.bytes ≠ "" then some (.ok (.text head.bytes))
  else if head.prim = "True" then some (.ok (.bool true))
  else if head.prim = "False" then some (.ok (.bool false))
  else none

/-- The single value of an expression: its literal, or that of its first argument. -/
def value : Micheline → Except MichelineFault Json
  | .unreadable _ => .error .unreadable
  | .node head [] _ => head.literal?.getD (.error .noValue)
  | .node head (arg :: _) _ =>
    match head.literal? with
    | some r => r
    | none => value arg

/-- The entry of a map that an element gives. -/
def entry : Micheline → Except MichelineFault (String × Json)
  | .unreadable _ => .error .unreadable
  | .node head args _ =>
    match args with
    | [key, item] =>
      if head.prim = "Elt" then
        match key with
        | .unreadable _ => .error .unreadable
        | .node key _ _ => item.value.map fun v => (key.string, v)
      else .error (.badElement head.prim)
    | _ => .error (.badElement head.prim)

/-- The types whose values are literals. -/
def scalarTypes : List String := ["int", "nat", "timestamp", "big_map", "string", "bytes", "address", "bool"]

/-- Whether the primitive makes pairs, of types or of values. -/
def isPair (prim : String) : Bool := prim = "pair" || prim = "Pair"

/-- Lifts the arguments of pairs among some arguments to their level. -/
def spread : List Micheline → Except MichelineFault (List Micheline)
  | [] => .ok []
  | .unreadable _ :: _ => .error .unreadable
  | .node head args source :: rest =>
    (spread rest).map fun rest => if isPair head.prim then args ++ rest else .node head args source :: rest

/-- The named values that a leaf of a type and a value give; none where the type is no leaf. -/
def leaf? (head : Head) (value : Micheline) : Option (Except MichelineFault (List (String × Json))) :=
  if head.prim ∈ scalarTypes then
    some (match annotation head.annots with
      | .error e => .error e
      | .ok name => value.value.map fun v => [(name, v)])
  else if head.prim = "map" then
    some (match annotation head.annots with
      | .error e => .error e
      | .ok name => (value.args.mapM entry).map fun entries => [(name, .ofMembers entries)])
  else none

mutual

/-- The named values that a type and a value give, in the order of the type. -/
def members : Micheline → Micheline → Except MichelineFault (List (String × Json))
  | _, .unreadable _ => .error .unreadable
  | .unreadable _, .node .. => .error .unreadable
  | .node head types _, .node vhead values source =>
    match leaf? head (.node vhead values source) with
    | some r => r
    | none =>
      if head.prim = "pair" then
        if types.length < values.length then
          match spread types with
          | .error e => .error e
          | .ok flat => membersOfSpread flat.length values.length types values
        else if values.length < types.length then
          match spread values with
          | .error e => .error e
          | .ok values => membersOfArgs types.length values.length types values
        else membersOfArgs types.length values.length types values
      else .error (.unexpectedType head.prim)

/-- The named values of types and values side by side; `types` and `values` say how many there are in all. -/
def membersOfArgs (types values : Nat) :
    List Micheline → List Micheline → Except MichelineFault (List (String × Json))
  | [], _ => .ok []
  | _ :: _, [] => .error (.arityMismatch types values)
  | t :: ts, v :: vs =>
    match members t v with
    | .error e => .error e
    | .ok ms => (membersOfArgs types values ts vs).map (ms ++ ·)

/-- The same when pairs among the types stand for their arguments. -/
def membersOfSpread (types values : Nat) :
    List Micheline → List Micheline → Except MichelineFault (List (String × Json))
  | [], _ => .ok []
  | .unreadable _ :: _, _ => .error .unreadable
  | .node head args source :: ts, vs =>
    if isPair head.prim then
      match membersOfArgs types values args vs with
      | .error e => .error e
      | .ok ms => (membersOfSpread types values ts (vs.drop args.length)).map (ms ++ ·)
    else
      match vs with
      | [] => .error (.arityMismatch types values)
      | v :: vs =>
        match members (.node head args source) v with
        | .error e => .error e
        | .ok ms => (membersOfSpread types values ts vs).map (ms ++ ·)

end

/-- The named values of a value, as the type names them. The last value of a name counts. -/
def extract (type value : Micheline) : Except MichelineFault Json := (members type value).map .ofMembers

mutual

/-- The first part, in depth, that has the annotation as its first. -/
def find (annot : String) : Micheline → Except MichelineFault Micheline
  | .unreadable _ => .error .unreadable
  | .node head args source =>
    if head.annots.head? = some annot then .ok (.node head args source) else findIn annot args

/-- The first such part of some arguments. An argument that cannot be read ends the search among them. -/
def findIn (annot : String) : List Micheline → Except MichelineFault Micheline
  | [] => .error (.notAnnotated annot)
  | .unreadable _ :: _ => .error .unreadable
  | arg :: rest =>
    match find annot arg with
    | .ok found => .ok found
    | .error _ => findIn annot rest

end

/-- An argument by its place. -/
def argument (e : Micheline) (i : Nat) : Except MichelineFault Micheline :=
  match e.args[i]? with
  | none => .error (.arityMismatch (i + 1) e.args.length)
  | some (.unreadable _) => .error .unreadable
  | some arg => .ok arg

end Micheline
end OracleRelay
