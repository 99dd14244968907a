/-
# Lines across pieces

Lines are taken from the octets at hand before another piece is read, and octets that hold no line break wait for the
next one (`items_of_line`, `items_of_piece`). So a stream never gives more or less than it would if all of a piece had
come with the one before it (`items_piece`), and its lines are those of the whole body, wherever that was cut
(`headLines_pieces`). The line break that a line ends with is a blank after octets of its own (`lineOf?_concat_break`).

Key definitions: `Tezos.said`, `Tezos.heard`.
Key theorems: `Tezos.LineStream.items_of_line`, `Tezos.LineStream.items_held`, `Tezos.LineStream.items_pieces`,
`Tezos.headLines_pieces`.
-/
import OracleRelay.Proofs.Text.Utf8
import OracleRelay.Tezos.HeadLines

namespace OracleRelay

/-- A blank at the end goes with the trimming. -/
theorem Blank.trimBy_concat {p : Char → Bool} {c : Char} (blank : p c = true) (cs : List Char) :
    trimBy p (cs ++ [c]) = trimBy p cs := by
  unfold trimBy
  rw [List.dropWhile_append]
  split
  · rename_i nothing
    rw [List.isEmpty_iff.mp nothing, List.dropWhile_cons_of_pos blank]
    rfl
  · rw [List.reverse_append, List.reverse_singleton, List.singleton_append, List.dropWhile_cons_of_pos blank]

namespace Tezos

/-! ### Lines -/

/-- What a line says: its characters, without the blanks at its ends. -/
def said (line : List UInt8) : String := String.ofList (Blank.trim (Utf8.decodeLossy line))

/-- What lines say, without those that say nothing. -/
def heard (lines : List (List UInt8)) : List String := (lines.map said).filter (· ≠ "")

theorem heard_append (lines lines' : List (List UInt8)) : heard (lines ++ lines') = heard lines ++ heard lines' := by
  simp [heard]

theorem heard_singleton (line : List UInt8) : heard [line] = (lineOf? line).toList := by
  by_cases nothing : Blank.trim (Utf8.decodeLossy line) = []
  · simp [heard, said, lineOf?, nothing]
  · simp [heard, said, lineOf?, nothing]

/-- The line break at the end of a line says nothing, whatever stands before it. -/
theorem lineOf?_concat_break (line : List UInt8) : lineOf? (line ++ [lineBreak]) = lineOf? line := by
  have decoded : Utf8.decodeLossy (line ++ [lineBreak]) = Utf8.decodeLossy line ++ ['\n'] := by
    rw [Utf8.decodeLossy_append_plain (by decide)]
    simp [Utf8.decodeLossy, Utf8.scan, lineBreak]
  rw [lineOf?, decoded, Blank.trim, Blank.trimBy_concat (by decide)]
  rfl

theorem cut?_of_not_mem {bs : List UInt8} (h : lineBreak ∉ bs) : cut? bs = none := by
  induction bs with
  | nil => rfl
  | cons b bs ih =>
    rw [List.mem_cons, not_or] at h
    rw [cut?, if_neg (Ne.symm h.1), ih h.2]
    rfl

theorem cut?_of_line {line : List UInt8} (h : lineBreak ∉ line) (rest : List UInt8) :
    cut? (line ++ lineBreak :: rest) = some (line ++ [lineBreak], rest) := by
  induction line with
  | nil => rfl
  | cons b line ih =>
    rw [List.mem_cons, not_or] at h
    rw [List.cons_append, cut?, if_neg (Ne.symm h.1), ih h.2]
    rfl

namespace LineStream

variable {ε : Type}

/-! ### Steps of a stream -/

theorem items_eq (s : LineStream ε) : s.items =
    match s.next? with
    | none => []
    | some (item, s') => item :: s'.items := by
  rw [items]
  split <;> rename_i h <;> simp only [h]

theorem items_congr {s s' : LineStream ε} (h : s.next? = s'.next?) : s.items = s'.items := by
  rw [items_eq, items_eq, h]

theorem items_ended : (ended : LineStream ε).items = [] := by
  have silent : (ended : LineStream ε).next? = none := by
    rw [next?]
    simp [ended, cut?, lineOf?_nil]
  rw [items_eq, silent]

/-- The next line is given if it says something, and the octets after it stay at hand. -/
theorem items_of_line (body : Option (List (Except ε (List UInt8)))) {line : List UInt8} (h : lineBreak ∉ line)
    (rest : List UInt8) : items ⟨body, line ++ lineBreak :: rest⟩ = (heard [line]).map .ok ++ items ⟨body, rest⟩ := by
  have cut := cut?_of_line h rest
  rw [heard_singleton, ← lineOf?_concat_break]
  cases line? : lineOf? (line ++ [lineBreak]) with
  | some text =>
    have next : next? ⟨body, line ++ lineBreak :: rest⟩ = some (.ok text, ⟨body, rest⟩) := by
      rw [next?]
      split <;> simp_all
    rw [items_eq, next]
    rfl
  | none =>
    have next : next? ⟨body, line ++ lineBreak :: rest⟩ = next? ⟨body, rest⟩ := by
      rw [next?]
      split <;> simp_all
    exact items_congr next

/-- Octets without a line break wait for the next piece. -/
theorem items_of_piece {held : List UInt8} (h : lineBreak ∉ held) (piece : List UInt8)
    (pieces : List (Except ε (List UInt8))) :
    items ⟨some (.ok piece :: pieces), held⟩ = items ⟨some pieces, held ++ piece⟩ := by
  have cut := cut?_of_not_mem h
  refine items_congr ?_
  rw [next?]
  split <;> simp_all

/-- At the end of the body they are the last line. -/
theorem items_of_end {held : List UInt8} (h : lineBreak ∉ held) :
    items (⟨some [], held⟩ : LineStream ε) = (heard [held]).map .ok := by
  have cut := cut?_of_not_mem h
  have next : next? (⟨some [], held⟩ : LineStream ε) = (lineOf? held).map fun text => (.ok text, ended) := by
    rw [next?]
    split <;> simp_all
    rw [next?]
    split <;> simp_all
  rw [items_eq, next, heard_singleton]
  cases lineOf? held with
  | none => rfl
  | some text => exact congrArg _ items_ended

/-- When the connection breaks they are lost. -/
theorem items_of_break {held : List UInt8} (h : lineBreak ∉ held) (fault : ε)
    (pieces : List (Except ε (List UInt8))) : items ⟨some (.error fault :: pieces), held⟩ = [.error fault] := by
  have cut := cut?_of_not_mem h
  have next : next? ⟨some (.error fault :: pieces), held⟩ = some (.error fault, ended) := by
    rw [next?]
    split <;> simp_all
  rw [items_eq, next]
  exact congrArg _ items_ended

/-! ### Runs of a stream -/

/-- A stream gives the complete lines at hand, whatever comes after them, and then has the start of the next one. -/
theorem items_held (held : List UInt8) : ∃ full start, held.splitOn lineBreak = full ++ [start] ∧
    lineBreak ∉ start ∧ ∀ (body : Option (List (Except ε (List UInt8)))) (more : List UInt8),
      items ⟨body, held ++ more⟩ = (heard full).map .ok ++ items ⟨body, start ++ more⟩ := by
  by_cases h : lineBreak ∈ held
  · obtain ⟨line, rest, same, first⟩ := List.eq_append_cons_of_mem h
    have shorter : rest.length < held.length := by simp [same]; omega
    obtain ⟨full, start, cut, unbroken, run⟩ := items_held rest
    refine ⟨line :: full, start, ?_, unbroken, fun body more => ?_⟩
    · rw [same, List.splitOn_append_cons_self, List.splitOn_eq_singleton first, cut]
      rfl
    · rw [same, List.append_assoc, List.cons_append, items_of_line body first, run, ← List.append_assoc,
        ← List.map_append, ← heard_append]
      rfl
  · exact ⟨[], held, List.splitOn_eq_singleton h, h, fun _ _ => rfl⟩
termination_by held.length

/-- A piece may as well have come with the octets at hand. -/
theorem items_piece (held piece : List UInt8) (pieces : List (Except ε (List UInt8))) :
    items ⟨some (.ok piece :: pieces), held⟩ = items ⟨some pieces, held ++ piece⟩ := by
  obtain ⟨full, start, -, unbroken, run⟩ := items_held (ε := ε) held
  have before := run (some (.ok piece :: pieces)) []
  have after := run (some pieces) piece
  rw [List.append_nil, List.append_nil] at before
  rw [before, after, items_of_piece unbroken]

theorem items_pieces (pieces : List (List UInt8)) (held : List UInt8) (rest : List (Except ε (List UInt8))) :
    items ⟨some (pieces.map .ok ++ rest), held⟩ = items ⟨some rest, held ++ pieces.flatten⟩ := by
  induction pieces generalizing held with
  | nil => simp
  | cons piece pieces ih =>
    rw [List.map_cons, List.cons_append, items_piece, ih, List.flatten_cons, List.append_assoc]

end LineStream

open LineStream

/-- **Lines do not depend on how a body is cut.** A body gives the same as if it came in one piece: what its segments
between line breaks say, each that says something, once and in order. One that breaks off gives what those say that a
line break ends, and then the break. -/
theorem headLines_pieces {ε : Type} (pieces : List (List UInt8)) :
    (headLines (pieces.map .ok) : List (Except ε String)) =
        (heard (pieces.flatten.splitOn lineBreak)).map .ok ∧
      (headLines (pieces.map .ok) : List (Except ε String)) = headLines [.ok pieces.flatten] ∧
      ∀ (fault : ε) (rest : List (Except ε (List UInt8))), headLines (pieces.map .ok ++ .error fault :: rest) =
        (heard (pieces.flatten.splitOn lineBreak).dropLast).map .ok ++ [.error fault] := by
  have pieced : ∀ rest : List (Except ε (List UInt8)),
      headLines (pieces.map .ok ++ rest) = items ⟨some rest, pieces.flatten⟩ := items_pieces pieces []
  obtain ⟨full, start, cut, unbroken, run⟩ := items_held (ε := ε) pieces.flatten
  refine ⟨?_, ?_, fun fault rest => ?_⟩
  · have ran := run (some []) []
    rw [List.append_nil, List.append_nil, items_of_end unbroken] at ran
    have whole := pieced []
    rw [List.append_nil] at whole
    rw [whole, ran, cut, heard_append, List.map_append]
  · have whole := pieced []
    rw [List.append_nil] at whole
    rw [whole, headLines, items_piece, List.nil_append]
  · have ran := run (some (.error fault :: rest)) []
    rw [List.append_nil, List.append_nil, items_of_break unbroken] at ran
    rw [pieced, ran, cut, List.dropLast_concat]

end Tezos
end OracleRelay
