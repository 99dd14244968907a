/-
# Events of a job

An event belongs to a job if it names it (`ChainEvent.Names`), whatever else it holds: an event that does not is
passed over without a fault (`ChainEvent.requestFor_eq_none_iff`), and one that does gives what can be decoded from it
(`ChainEvent.requestFor_eq_some_iff`).

Key definitions: `ChainEvent.Names`, `ChainEvent.payload`.
Key theorems: `ChainEvent.requestFor_of_names`, `ChainEvent.requestFor_eq_none_iff`,
`ChainEvent.requestFor_eq_some_iff`.
-/
import OracleRelay.Proofs.Text.Hex
import OracleRelay.Request.Event

namespace OracleRelay

/-- An event names a job: a log spells the word of the job in its second topic, a request gives the job. -/
def ChainEvent.Names (jobId : String) : ChainEvent → Prop
  | .log event => ∃ topic, event.topics[1]? = some topic ∧ Hex.decode (Hex.stripMark topic) = .ok (JobId.word jobId)
  | .request r => r.jobId = jobId

/-- What an event of a job holds: a log its decoded data, a request its fields. -/
def ChainEvent.payload : ChainEvent → Except Runlog.Fault Fields
  | .log event => Runlog.decode event.data event.address
  | .request r => .ok r.fields

theorem LogEvent.isFor_iff {log : LogEvent} {jobId : String} :
    log.isFor jobId = true ↔ (ChainEvent.log log).Names jobId := by
  simp only [LogEvent.isFor, LogEvent.jobTopic?, ChainEvent.Names]
  cases log.topics[1]? with
  | none => simp
  | some topic => simp [JobId.matchesTopic_iff]

/-- The request in an event of the job is what the event holds. -/
theorem ChainEvent.requestFor_of_names {jobId : String} {e : ChainEvent} (h : e.Names jobId) :
    e.requestFor jobId = e.payload.map some := by
  cases e with
  | log log =>
    have hfor : log.isFor jobId = true := LogEvent.isFor_iff.mpr h
    simp only [requestFor, hfor, ↓reduceIte, payload]
  | request r =>
    have hjob : jobId = r.jobId := Eq.symm h
    simp only [requestFor, if_pos hjob, payload]
    rfl

/-- **An event of another job is passed over without a fault**, whatever it holds. -/
theorem ChainEvent.requestFor_of_not_names {jobId : String} {e : ChainEvent} (h : ¬ e.Names jobId) :
    e.requestFor jobId = .ok none := by
  cases e with
  | log log =>
    have hfor : ¬ log.isFor jobId = true := fun hfor => h (LogEvent.isFor_iff.mp hfor)
    simp only [requestFor, if_neg hfor]
  | request r =>
    have hjob : ¬ jobId = r.jobId := fun heq => h heq.symm
    simp only [requestFor, if_neg hjob]

/-- Only an event of another job is passed over without a fault. -/
theorem ChainEvent.requestFor_eq_none_iff {jobId : String} {e : ChainEvent} :
    e.requestFor jobId = .ok none ↔ ¬ e.Names jobId := by
  refine ⟨fun hnone h => ?_, ChainEvent.requestFor_of_not_names⟩
  rw [ChainEvent.requestFor_of_names h] at hnone
  cases hp : e.payload with
  | error fault => rw [hp] at hnone; cases hnone
  | ok fields => rw [hp] at hnone; cases hnone

/-- An event gives a request exactly if it names the job and can be decoded. -/
theorem ChainEvent.requestFor_eq_some_iff {jobId : String} {e : ChainEvent} {r : Fields} :
    e.requestFor jobId = .ok (some r) ↔ e.Names jobId ∧ e.payload = .ok r := by
  by_cases h : e.Names jobId
  · rw [ChainEvent.requestFor_of_names h]
    cases e.payload with
    | error fault => simp [Except.map]
    | ok fields => simp [Except.map, h]
  · rw [ChainEvent.requestFor_of_not_names h]
    simp [h]

end OracleRelay
