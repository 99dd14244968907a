/-
# The lines of announced heads

A node announces heads on lines that come in pieces of any length. Lines are taken from the octets at hand, one at a
time; only where these hold no line break the next piece is read. The last line may do without a line break, unless
the connection broke: then the start of a line is lost. Blanks at the ends of a line do not count, and lines with
nothing else are left out.

Key definitions: `Tezos.lineOf?`, `Tezos.cut?`, `Tezos.LineStream`, `Tezos.LineStream.next?`, `Tezos.LineStream.items`,
`Tezos.headLines`.
-/
import OracleRelay.Text.Blank
import OracleRelay.Text.Utf8

namespace OracleRelay
namespace Tezos

/-- The octet of a line break. -/
def lineBreak : UInt8 := 10

/-- The octets up to the first line break, with it, and the octets after it. -/
def cut? : List UInt8 → Option (List UInt8 × List UInt8)
  | [] => none
  | b :: bs => if b = lineBreak then some ([b], bs) else (cut? bs).map fun (line, rest) => (b :: line, rest)

theorem length_cut? {bs line rest : List UInt8} (h : cut? bs = some (line, rest)) : rest.length < bs.length := by
  induction bs generalizing line with
  | nil => cases h
  | cons b bs ih =>
    rw [cut?] at h
    split at h
    · cases h
      exact Nat.lt_succ_self _
    · obtain ⟨⟨line', rest'⟩, found, same⟩ := Option.map_eq_some_iff.mp h
      cases same
      exact Nat.lt_succ_of_lt (ih found)

/-- What a line says, if anything. -/
def lineOf? (bs : List UInt8) : Option String :=
  let cs := Blank.trim (Utf8.decodeLossy bs)
  if cs.isEmpty then none else some (String.ofList cs)

theorem lineOf?_nil : lineOf? [] = none := by
  simp [lineOf?, Utf8.decodeLossy, Utf8.scan, Blank.trim, Blank.trimBy]

/-- Lines on their way: the pieces to come, as long as the body has not ended, and the octets at hand. -/
structure LineStream (ε : Type) where
  body : Option (List (Except ε (List UInt8)))
  held : List UInt8 := []

namespace LineStream

variable {ε : Type}

/-- The stream at its end. -/
def ended : LineStream ε := ⟨none, []⟩

/-- What the pieces cost: a look at each, and one at each of their octets. -/
def cost : List (Except ε (List UInt8)) → Nat
  | [] => 0
  | .ok piece :: pieces => piece.length + 1 + cost pieces
  | .error _ :: pieces => 1 + cost pieces

/-- What is still to be looked at. -/
def due (s : LineStream ε) : Nat :=
  s.held.length + match s.body with
    | none => 0
    | some pieces => cost pieces + 1

/-- The next line, or the break of the connection, and the stream after it. A break ends the stream. -/
def next? (s : LineStream ε) : Option (Except ε String × LineStream ε) :=
  match _ : cut? s.held with
  | some (line, rest) =>
    match lineOf? line with
    | some text => some (.ok text, { s with held := rest })
    | none => next? { s with held := rest }
  | none =>
    match _ : s.body with
    | none => (lineOf? s.held).map fun text => (.ok text, ended)
    | some [] => next? { s with body := none }
    | some (.ok piece :: pieces) => next? ⟨some pieces, s.held ++ piece⟩
    | some (.error fault :: _) => some (.error fault, ended)
termination_by s.due
decreasing_by
  · rename_i h
    have := length_cut? h
    simp only [due]
    omega
  · simp_all [due]
  · simp_all [due, cost]
    omega

theorem due_next? {s s' : LineStream ε} {item : Except ε String} (h : s.next? = some (item, s')) : s'.due < s.due := by
  fun_induction next? s with
  | case1 s line rest found text =>
    cases h
    have := length_cut? found
    simp only [due]
    omega
  | case2 s line rest found _ ih =>
    have := length_cut? found
    have := ih h
    simp only [due] at this ⊢
    omega
  | case3 s _ spent =>
    obtain ⟨text, last, same⟩ := Option.map_eq_some_iff.mp h
    cases same
    have nonempty : s.held ≠ [] := fun nil => by simp [nil, lineOf?_nil] at last
    have := List.length_pos_iff.mpr nonempty
    simp only [due, ended, spent, List.length_nil]
    omega
  | case4 s _ spent ih =>
    have := ih h
    simp only [due, spent] at this ⊢
    omega
  | case5 s _ piece pieces more ih =>
    have := ih h
    simp only [due, more, List.length_append, cost] at this ⊢
    omega
  | case6 s _ fault pieces broken =>
    cases h
    simp only [due, ended, broken, List.length_nil]
    omega

/-- All that the stream gives, one after the other. -/
def items (s : LineStream ε) : List (Except ε String) :=
  match _ : s.next? with
  | none => []
  | some (item, s') => item :: s'.items
termination_by s.due
decreasing_by exact due_next? (by assumption)

end LineStream

/-- What the pieces of a body announce. -/
def headLines {ε : Type} (pieces : List (Except ε (List UInt8))) : List (Except ε String) :=
  LineStream.items ⟨some pieces, []⟩

end Tezos
end OracleRelay
