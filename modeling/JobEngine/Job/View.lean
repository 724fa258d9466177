import JobEngine.Job.Codec

namespace JobEngine.Job

def header (j : Job) : Members :=
  [("id", .str j.id), ("type", j.kind.toJson), ("corpusId", .str j.reportedCorpus),
    ("start", .str j.start.text), ("update", .str j.update.text), ("finished", .bool j.finished),
    ("ok", .bool j.ok)]

def compactView (j : Job) : Json := .obj j.header

def fullView (j : Job) : Json :=
  .obj (j.header ++ [("error", Members.orNull .str j.error),
    ("numRestarts", .ofUInt32 j.numRestarts), ("args", j.work.argsJson),
    ("result", j.work.resultJson)])

end JobEngine.Job
