import JobEngine.Job.Basic

namespace JobEngine

def LiveAttributesArgs.toJson (a : LiveAttributesArgs) : Json :=
  .obj ([("append", .bool a.append), ("noCorpusDbUpdate", .bool a.noCorpusDbUpdate)] ++
    Members.ofOption "tagsetAttr" .str a.tagsetAttr ++
    Members.ofOption "tagsetName" .str a.tagsetName ++
    Members.ofOption "extractorConf" Subtype.val a.extractorConf)

def LiveAttributesArgs.ofJson? (v : Json) : Option LiveAttributesArgs := do
  let m ← v.asMembers? ["append", "noCorpusDbUpdate", "tagsetAttr", "tagsetName", "extractorConf"]
  return {
    append := ← m.withDefault "append" Json.asBool? false
    noCorpusDbUpdate := ← m.withDefault "noCorpusDbUpdate" Json.asBool? false
    tagsetAttr := ← m.optional "tagsetAttr" Json.asString?
    tagsetName := ← m.optional "tagsetName" Json.asString?
    extractorConf := ← m.optional "extractorConf" (some ∘ OpaqueJson.ofJson) }

def IndexUpdateArgs.toJson (a : IndexUpdateArgs) : Json :=
  .obj [("maxColumns", .ofUInt32 a.maxColumns)]

def IndexUpdateArgs.ofJson? (v : Json) : Option IndexUpdateArgs := do
  let m ← v.asMembers? ["maxColumns"]
  return { maxColumns := ← m.withDefault "maxColumns" Json.asUInt32? 0 }

def stringList (xs : List String) : Json := .arr (xs.map .str)

def stringList? : Json → Option (List String) := Json.asList? Json.asString?

def IndexUpdateResult.toJson (r : IndexUpdateResult) : Json :=
  .obj [("usedIndexes", stringList r.usedIndexes), ("removedIndexes", stringList r.removedIndexes)]

def IndexUpdateResult.ofJson? (v : Json) : Option IndexUpdateResult := do
  let m ← v.asMembers? ["usedIndexes", "removedIndexes"]
  return {
    usedIndexes := ← m.withDefault "usedIndexes" stringList? []
    removedIndexes := ← m.withDefault "removedIndexes" stringList? [] }

def NgramsResult.toJson (r : NgramsResult) : Json :=
  .obj ([("tablesReady", .bool r.tablesReady), ("totalLines", .ofUInt64 r.totalLines),
    ("numProcLines", .ofUInt64 r.numProcLines), ("currAction", .str r.currAction),
    ("chunkId", .ofUInt64 r.chunkId)] ++ Members.ofOption "clientWarn" .str r.clientWarn)

def NgramsResult.ofJson? (v : Json) : Option NgramsResult := do
  let m ← v.asMembers?
    ["tablesReady", "totalLines", "numProcLines", "currAction", "chunkId", "clientWarn"]
  return {
    tablesReady := ← m.withDefault "tablesReady" Json.asBool? false
    totalLines := ← m.withDefault "totalLines" Json.asUInt64? 0
    numProcLines := ← m.withDefault "numProcLines" Json.asUInt64? 0
    currAction := ← m.withDefault "currAction" Json.asString? ""
    chunkId := ← m.withDefault "chunkId" Json.asUInt64? 0
    clientWarn := ← m.optional "clientWarn" Json.asString? }

def KeywordsArgs.toJson (a : KeywordsArgs) : Json :=
  .obj [("referenceVerticals", stringList a.referenceVerticals),
    ("focusVerticals", stringList a.focusVerticals), ("wordColIdx", .ofUInt64 a.wordColIdx),
    ("lemmaColIdx", .ofUInt64 a.lemmaColIdx), ("tagColIdx", .ofUInt64 a.tagColIdx),
    ("ngramSize", .ofUInt64 a.ngramSize), ("sentenceStruct", .str a.sentenceStruct)]

def KeywordsArgs.ofJson? (v : Json) : Option KeywordsArgs := do
  let m ← v.asMembers? ["referenceVerticals", "focusVerticals", "wordColIdx", "lemmaColIdx",
    "tagColIdx", "ngramSize", "sentenceStruct"]
  return {
    referenceVerticals := ← m.withDefault "referenceVerticals" stringList? []
    focusVerticals := ← m.withDefault "focusVerticals" stringList? []
    wordColIdx := ← m.withDefault "wordColIdx" Json.asUInt64? 0
    lemmaColIdx := ← m.withDefault "lemmaColIdx" Json.asUInt64? 0
    tagColIdx := ← m.withDefault "tagColIdx" Json.asUInt64? 0
    ngramSize := ← m.withDefault "ngramSize" Json.asUInt64? 0
    sentenceStruct := ← m.withDefault "sentenceStruct" Json.asString? "" }

def KeywordsResult.toJson (r : KeywordsResult) : Json :=
  .obj ([("tablesReady", .bool r.tablesReady), ("totalLines", .ofUInt64 r.totalLines),
    ("numProcLines", .ofUInt64 r.numProcLines), ("numStopWords", .ofUInt64 r.numStopWords)] ++
    Members.ofOption "clientWarn" .str r.clientWarn)

def KeywordsResult.ofJson? (v : Json) : Option KeywordsResult := do
  let m ← v.asMembers? ["tablesReady", "totalLines", "numProcLines", "numStopWords", "clientWarn"]
  return {
    tablesReady := ← m.withDefault "tablesReady" Json.asBool? false
    totalLines := ← m.withDefault "totalLines" Json.asUInt64? 0
    numProcLines := ← m.withDefault "numProcLines" Json.asUInt64? 0
    numStopWords := ← m.withDefault "numStopWords" Json.asUInt64? 0
    clientWarn := ← m.optional "clientWarn" Json.asString? }

def Directory.toJson (d : Directory) : Json :=
  .obj (("path", .str d.path) :: Members.ofOption "latestMod" (.str ·.text) d.latestMod)

def Directory.ofJson? (v : Json) : Option Directory := do
  let m ← v.asMembers? ["path", "latestMod"]
  return {
    path := ← m.withDefault "path" Json.asString? ""
    latestMod := ← m.optional "latestMod" Json.asInstant? }

def SyncResult.toJson (r : SyncResult) : Json :=
  .obj [("ok", .bool r.ok), ("returnCode", .ofInt32 r.returnCode),
    ("details", stringList r.details), ("srcDir", r.srcDir.toJson), ("dstDir", r.dstDir.toJson)]

def SyncResult.ofJson? (v : Json) : Option SyncResult := do
  let m ← v.asMembers? ["ok", "returnCode", "details", "srcDir", "dstDir"]
  return {
    ok := ← m.withDefault "ok" Json.asBool? false
    returnCode := ← m.withDefault "returnCode" Json.asInt32? 0
    details := ← m.withDefault "details" stringList? []
    srcDir := ← m.withDefault "srcDir" Directory.ofJson? {}
    dstDir := ← m.withDefault "dstDir" Directory.ofJson? {} }

def DummyArgs.toJson (a : DummyArgs) : Json :=
  .obj [("durationMs", .ofUInt64 a.durationMs), ("fail", .bool a.fail)]

def DummyArgs.ofJson? (v : Json) : Option DummyArgs := do
  let m ← v.asMembers? ["durationMs", "fail"]
  return {
    durationMs := ← m.withDefault "durationMs" Json.asUInt64? 0
    fail := ← m.withDefault "fail" Json.asBool? false }

def DummyResult.toJson (r : DummyResult) : Json := .obj [("payload", .str r.payload)]

def DummyResult.ofJson? (v : Json) : Option DummyResult := do
  let m ← v.asMembers? ["payload"]
  return { payload := ← m.required "payload" Json.asString? }

namespace Work

def argsJson : Work → Json
  | liveAttributes _ _ _ args => args.toJson
  | indexUpdate args _ => args.toJson
  | keywords args _ => args.toJson
  | dummy args _ => args.toJson
  | ngrams _ | corpusSync _ => .null

def resultJson : Work → Json
  | liveAttributes _ atoms lines _ =>
    .obj [("processedAtoms", .ofUInt64 atoms), ("processedLines", .ofUInt64 lines)]
  | indexUpdate _ result => Members.orNull IndexUpdateResult.toJson result
  | ngrams result => Members.orNull NgramsResult.toJson result
  | keywords _ result => Members.orNull KeywordsResult.toJson result
  | corpusSync result => Members.orNull SyncResult.toJson result
  | dummy _ result => Members.orNull DummyResult.toJson result

def toMembers : Work → Members
  | liveAttributes aliased atoms lines args =>
    Members.ofOption "aliasedCorpusId" .str aliased ++
      [("processedAtoms", .ofUInt64 atoms), ("processedLines", .ofUInt64 lines),
        ("args", args.toJson)]
  | indexUpdate args result =>
    ("args", args.toJson) :: Members.ofOption "result" IndexUpdateResult.toJson result
  | ngrams result => Members.ofOption "result" NgramsResult.toJson result
  | keywords args result =>
    ("args", args.toJson) :: Members.ofOption "result" KeywordsResult.toJson result
  | corpusSync result => Members.ofOption "result" SyncResult.toJson result
  | dummy args result =>
    ("args", args.toJson) :: Members.ofOption "result" DummyResult.toJson result

def ofMembers? (m : Members) : JobKind → Option Work
  | .liveAttributes => do
    return liveAttributes
      (← m.optional "aliasedCorpusId" Json.asString?)
      (← m.withDefault "processedAtoms" Json.asUInt64? 0)
      (← m.withDefault "processedLines" Json.asUInt64? 0)
      (← m.withDefault "args" LiveAttributesArgs.ofJson? {})
  | .indexUpdate => do
    return indexUpdate
      (← m.withDefault "args" IndexUpdateArgs.ofJson? {})
      (← m.optional "result" IndexUpdateResult.ofJson?)
  | .ngrams => do return ngrams (← m.optional "result" NgramsResult.ofJson?)
  | .keywords => do
    return keywords
      (← m.withDefault "args" KeywordsArgs.ofJson? {})
      (← m.optional "result" KeywordsResult.ofJson?)
  | .corpusSync => do return corpusSync (← m.optional "result" SyncResult.ofJson?)
  | .dummy => do
    return dummy
      (← m.withDefault "args" DummyArgs.ofJson? {})
      (← m.optional "result" DummyResult.ofJson?)

end Work

namespace Job

def toMembers (j : Job) : Members :=
  [("type", j.kind.toJson), ("id", .str j.id), ("corpusId", .str j.corpusId),
    ("start", .str j.start.text), ("update", .str j.update.text),
    ("finished", .bool j.finished)] ++ Members.ofOption "error" .str j.error ++
    ("numRestarts", .ofUInt32 j.numRestarts) :: j.work.toMembers

def toJson (j : Job) : Json := .obj j.toMembers

/-- Reads the members of a job, each key at most once. -/
def ofMembers? (m : Members) : Option Job := do
  let kind ← m.required "type" fun v ↦ v.asString?.bind JobKind.ofName?
  return {
    id := ← m.required "id" Json.asString?
    corpusId := ← m.required "corpusId" Json.asString?
    start := ← m.required "start" Json.asInstant?
    update := ← m.required "update" Json.asInstant?
    finished := ← m.withDefault "finished" Json.asBool? false
    error := ← m.optional "error" Json.asString?
    numRestarts := ← m.withDefault "numRestarts" Json.asUInt32? 0
    work := ← Work.ofMembers? m kind }

/-- Reads a job; of a repeated key the last value counts. -/
def ofJson? (v : Json) : Option Job :=
  match v.canonical with
  | .obj m => ofMembers? m
  | _ => none

end Job

end JobEngine
