import JobEngine.Dispatcher.State

namespace JobEngine

namespace Registry

/-- Looks a job up by its id, or by the beginning of one id only. -/
def find? (r : Registry) (start : String) : Option Job :=
  if start = "" then none
  else
    match r.get? start with
    | some j => some j
    | none =>
      match r.jobs.filter fun j ↦ start.toList.isPrefixOf j.id.toList with
      | [j] => some j
      | _ => none

def lastUnfinished (r : Registry) (corpus : String) (kind : JobKind) : Option Job :=
  (r.listed.filter fun j ↦
    !j.finished && j.kind = kind && j.reportedCorpus = corpus).getLast?

end Registry

end JobEngine
