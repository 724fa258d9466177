import JobEngine.Job.Codec

namespace JobEngine

structure Notification where
  jobId : String
  kind : JobKind
  corpusId : String
  ok : Bool
  subject : String
  body : String
  timestamp : Instant
deriving DecidableEq

namespace Notification

def ofJob (j : Job) : Notification where
  jobId := j.id
  kind := j.kind
  corpusId := j.reportedCorpus
  ok := j.ok
  subject := s!"{j.description} ({j.reportedCorpus})"
  body := s!"{j.outcome}\n\nJob ID: {j.id}\nStarted: {j.start.textWithOffset}\n" ++
    s!"Finished: {j.update.textWithOffset}"
  timestamp := j.update

def toJson (n : Notification) : Json :=
  .obj [("jobId", .str n.jobId), ("type", n.kind.toJson), ("corpusId", .str n.corpusId),
    ("ok", .bool n.ok), ("subject", .str n.subject), ("body", .str n.body),
    ("timestamp", .str n.timestamp.text)]

end Notification

end JobEngine
