/-
# Starting runs of jobs

The job node starts a run of a job when a request for it is posted to the address of the job's runs. Two headers tell
the node who asks. Keys that cannot stand in a header keep the request from being sent.

Key definitions: `TriggerClient`, `TriggerClient.request?`, `TriggerClient.outcome`.
-/
import OracleRelay.Http.Exchange
import OracleRelay.Text.Blank
import OracleRelay.Trigger.Fault

namespace OracleRelay

/-- Where the job node is, and what tells it who asks. -/
structure TriggerClient where
  url : String
  accessKey : String
  secret : String
  deriving DecidableEq, Repr, Inhabited

namespace TriggerClient

/-- The names of the headers that tell who asks. -/
def accessKeyHeader : String := "x-chainlink-ea-accesskey"
def secretHeader : String := "x-chainlink-ea-secret"

/-- The address of the runs of a job. -/
def runsUrl (c : TriggerClient) (jobId : String) : String :=
  Url.withoutSlashes c.url ++ "/v2/specs/" ++ jobId ++ "/runs"

/-- The value of a header as it is read: blanks at its ends do not belong to it. -/
def headerValue (s : String) : String := String.ofList (Blank.trim s.toList)

/-- The request for a run of a job, if it can be sent. -/
def request? (c : TriggerClient) (jobId body : String) : Option Http.Request :=
  if Http.isHeaderValue c.accessKey && Http.isHeaderValue c.secret then
    (Http.Request.post? (c.runsUrl jobId) body).map fun r => { r with headers := r.headers ++
      [(accessKeyHeader, headerValue c.accessKey), (secretHeader, headerValue c.secret)] }
  else none

/-- What came of a request for a run: a status below 400 is a run, whatever the body says. -/
def outcome (x : Http.Exchange) : Except TriggerFault Unit :=
  match x.reply with
  | .error .broken => .error .broken
  | .error .late => .error .timeout
  | .ok r => if r.status < 400 then .ok () else .error (.status r.status r.quote)

end TriggerClient
end OracleRelay
