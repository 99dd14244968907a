/-
# Topics name jobs

A topic names a job exactly if it spells the first octets of the job's text with zeros after them, in digits of either
case, behind the mark or without it (`JobId.matchesTopic_iff_spells`). Jobs whose texts are longer than a word can have
one word, and so can jobs whose texts end in zeros; among all others, which fit into a word (`JobId.Fits`), each one
has a word of its own (`JobId.padded_inj`). So a log is taken for one of them at most.

Key definitions: `JobId.padded`, `JobId.Fits`.
Key theorems: `JobId.word_eq_padded`, `JobId.matchesTopic_iff_spells`, `JobId.matchesTopic_topic`, `JobId.padded_inj`,
`JobId.topic_identifies`.
-/
import OracleRelay.Proofs.Request.Event
import OracleRelay.Proofs.Text.Hex

namespace OracleRelay
namespace JobId

/-- The octets of a job's text as far as a word reaches, and zeros after them. -/
def padded (jobId : String) : List UInt8 := (jobId.toUTF8.data.toList ++ List.replicate 32 0).take 32

/-- The text of the job is no longer than a word and does not end in a zero. -/
structure Fits (jobId : String) : Prop where
  short : jobId.toUTF8.data.toList.length ≤ 32
  no_zero : jobId.toUTF8.data.toList.getLast? ≠ some 0

/-! ### Words -/

/-- A word is cut first and then filled up. -/
theorem padded_eq_take_append (jobId : String) : padded jobId =
    (Utf8.ofString jobId).take 32 ++ List.replicate (32 - (Utf8.ofString jobId).length) 0 := by
  rw [padded, ← Utf8.ofString_eq_toUTF8, List.take_append, List.take_replicate, Nat.min_eq_left (Nat.sub_le _ _)]

theorem word_eq_padded (jobId : String) : word jobId = padded jobId := by
  have filled : 32 - ((Utf8.ofString jobId).take 32).length = 32 - (Utf8.ofString jobId).length := by
    rw [List.length_take]
    omega
  rw [padded_eq_take_append, ← filled]
  rfl

theorem length_padded (jobId : String) : (padded jobId).length = 32 := by
  rw [padded, List.length_take, List.length_append, List.length_replicate]
  omega

/-- The zeros at the end are told from octets that do not end in one. -/
theorem eq_nil_of_zeros {front zeros : List UInt8} (zero : ∀ b ∈ zeros, b = 0)
    (no_zero : (front ++ zeros).getLast? ≠ some 0) : zeros = [] := by
  by_contra some
  have last : (front ++ zeros).getLast? = zeros.getLast? := List.getLast?_append_of_ne_nil _ some
  rw [last, List.getLast?_eq_some_getLast some] at no_zero
  exact no_zero (congrArg _ (zero _ (List.getLast_mem some)))

theorem eq_of_zeros {front front' : List UInt8} {m n : Nat} (no_zero : front.getLast? ≠ some 0)
    (no_zero' : front'.getLast? ≠ some 0) (h : front ++ List.replicate m 0 = front' ++ List.replicate n 0) :
    front = front' := by
  rcases List.append_eq_append_iff.mp h with ⟨more, rfl, zeros⟩ | ⟨more, rfl, zeros⟩
  · have zero : ∀ b ∈ more, b = 0 := fun b hb =>
      List.eq_of_mem_replicate (zeros ▸ List.mem_append_left _ hb)
    rw [eq_nil_of_zeros zero no_zero', List.append_nil]
  · have zero : ∀ b ∈ more, b = 0 := fun b hb =>
      List.eq_of_mem_replicate (zeros ▸ List.mem_append_left _ hb)
    rw [eq_nil_of_zeros zero no_zero, List.append_nil]

/-- **Jobs that fit into a word have words of their own.** -/
theorem padded_inj {a b : String} (ha : Fits a) (hb : Fits b) : padded a = padded b ↔ a = b := by
  have whole : ∀ {jobId : String}, Fits jobId →
      padded jobId = jobId.toUTF8.data.toList ++ List.replicate (32 - jobId.toUTF8.data.toList.length) 0 := by
    intro jobId h
    rw [padded_eq_take_append, Utf8.ofString_eq_toUTF8, List.take_of_length_le h.short]
  constructor
  · intro h
    rw [whole ha, whole hb] at h
    have octets := eq_of_zeros ha.no_zero hb.no_zero h
    rw [← Utf8.ofString_eq_toUTF8, ← Utf8.ofString_eq_toUTF8] at octets
    exact Utf8.ofString_inj.mp octets
  · exact congrArg padded

/-! ### Topics -/

/-- **A topic names a job exactly if it spells the word of the job**, in 64 digits of either case. -/
theorem matchesTopic_iff_spells {topic jobId : String} : matchesTopic topic jobId = true ↔
    ∃ digits, (topic.toList = digits ∨ topic.toList = '0' :: 'x' :: digits) ∧ digits.length = 64 ∧
      Hex.Spells digits (padded jobId) := by
  rw [matchesTopic_iff, Hex.decode_eq_ok_iff_spells, word_eq_padded, Hex.spells_stripMark_iff]
  have length : ∀ {digits}, Hex.Spells digits (padded jobId) → digits.length = 64 := by
    intro digits h
    rw [h.length, length_padded]
  constructor
  · rintro ⟨digits, mark, h⟩
    exact ⟨digits, mark, length h, h⟩
  · rintro ⟨digits, mark, -, h⟩
    exact ⟨digits, mark, h⟩

theorem toList_topic (jobId : String) : (topic jobId).toList = '0' :: 'x' :: Hex.encode (padded jobId) := by
  rw [topic, Hex.marked, String.toList_ofList, word_eq_padded]

/-- The topic of a job names the jobs with the same word. -/
theorem matchesTopic_topic {a b : String} : matchesTopic (topic a) b = true ↔ padded a = padded b := by
  have stripped : Hex.stripMark (topic a) = String.ofList (Hex.encode (padded a)) :=
    Hex.stripMark_of_mark (toList_topic a)
  have read : Hex.decode (String.ofList (Hex.encode (padded a))) = .ok (padded a) := by
    rw [Hex.decode_eq_ok_iff_spells, String.toList_ofList]
    exact Hex.spells_encode _
  rw [matchesTopic_iff, stripped, read, word_eq_padded, Except.ok.injEq]

/-- **Topics identify jobs.** -/
theorem topic_identifies :
    (∀ t b, matchesTopic t b = true ↔
      ∃ digits, (t.toList = digits ∨ t.toList = '0' :: 'x' :: digits) ∧ digits.length = 64 ∧
        Hex.Spells digits (padded b)) ∧
    (∀ a b, matchesTopic (topic a) b = true ↔ padded a = padded b) ∧
    (∀ a b, Fits a → Fits b → (matchesTopic (topic a) b = true ↔ a = b)) ∧
    ∀ log a b, Fits a → Fits b → ChainEvent.requestFor a (.log log) ≠ .ok none →
      ChainEvent.requestFor b (.log log) ≠ .ok none → a = b := by
  refine ⟨fun t b => matchesTopic_iff_spells, fun a b => matchesTopic_topic, fun a b ha hb => ?_, ?_⟩
  · rw [matchesTopic_topic, padded_inj ha hb]
  · intro log a b ha hb takesA takesB
    rw [Ne, ChainEvent.requestFor_eq_none_iff, not_not] at takesA takesB
    obtain ⟨t, second, namesA⟩ := takesA
    obtain ⟨t', second', namesB⟩ := takesB
    have one : t = t' := Option.some.inj (second.symm.trans second')
    subst one
    have words : word a = word b := Except.ok.inj (namesA.symm.trans namesB)
    rw [word_eq_padded, word_eq_padded] at words
    exact (padded_inj ha hb).mp words

/-- A job is told from one whose name differs in a single character, of another length in octets. -/
theorem topic_identifies_tokyo :
    (Fits "tokyo" ∧ Fits "tōkyō") ∧ matchesTopic (topic "tokyo") "tokyo" = true ∧
      matchesTopic (topic "tokyo") "tōkyō" = false := by
  have fits : Fits "tokyo" := ⟨by decide, by decide⟩
  have fits' : Fits "tōkyō" := ⟨by decide, by decide⟩
  obtain ⟨-, -, jobs, -⟩ := topic_identifies
  refine ⟨⟨fits, fits'⟩, (jobs "tokyo" "tokyo" fits fits).mpr rfl, ?_⟩
  rw [Bool.eq_false_iff, Ne, jobs "tokyo" "tōkyō" fits fits']
  decide

/-- A zero at the end of a name is not told from the zeros after the name. -/
example : matchesTopic (topic "tokyo") "tokyo\x00" = true := by decide

end JobId
end OracleRelay
