import JobEngine.Job.Kind

namespace JobEngine

structure LiveAttributesArgs where
  append : Bool := false
  noCorpusDbUpdate : Bool := false
  tagsetAttr : Option String := none
  tagsetName : Option String := none
  extractorConf : Option OpaqueJson := none
deriving DecidableEq

structure IndexUpdateArgs where
  maxColumns : UInt32 := 0
deriving DecidableEq

structure IndexUpdateResult where
  usedIndexes : List String := []
  removedIndexes : List String := []
deriving DecidableEq

structure NgramsResult where
  tablesReady : Bool := false
  totalLines : UInt64 := 0
  numProcLines : UInt64 := 0
  currAction : String := ""
  chunkId : UInt64 := 0
  clientWarn : Option String := none
deriving DecidableEq

structure KeywordsArgs where
  referenceVerticals : List String := []
  focusVerticals : List String := []
  wordColIdx : UInt64 := 0
  lemmaColIdx : UInt64 := 0
  tagColIdx : UInt64 := 0
  ngramSize : UInt64 := 0
  sentenceStruct : String := ""
deriving DecidableEq

structure KeywordsResult where
  tablesReady : Bool := false
  totalLines : UInt64 := 0
  numProcLines : UInt64 := 0
  numStopWords : UInt64 := 0
  clientWarn : Option String := none
deriving DecidableEq

structure Directory where
  path : String := ""
  latestMod : Option Instant := none
deriving DecidableEq

structure SyncResult where
  ok : Bool := false
  returnCode : Int32 := 0
  details : List String := []
  srcDir : Directory := {}
  dstDir : Directory := {}
deriving DecidableEq

structure DummyArgs where
  durationMs : UInt64 := 0
  fail : Bool := false
deriving DecidableEq

structure DummyResult where
  payload : String := ""
deriving DecidableEq

/-- The part of a job that its kind decides. -/
inductive Work
  | liveAttributes (aliased : Option String) (atoms lines : UInt64) (args : LiveAttributesArgs)
  | indexUpdate (args : IndexUpdateArgs) (result : Option IndexUpdateResult)
  | ngrams (result : Option NgramsResult)
  | keywords (args : KeywordsArgs) (result : Option KeywordsResult)
  | corpusSync (result : Option SyncResult)
  | dummy (args : DummyArgs) (result : Option DummyResult)
deriving DecidableEq

namespace Work

def kind : Work → JobKind
  | liveAttributes .. => .liveAttributes
  | indexUpdate .. => .indexUpdate
  | ngrams .. => .ngrams
  | keywords .. => .keywords
  | corpusSync .. => .corpusSync
  | dummy .. => .dummy

/-- Whether the work as reported so far counts as a success, errors apart. -/
def succeeded : Work → Bool
  | corpusSync result => result.all (·.ok)
  | dummy _ result => result.isSome
  | _ => true

end Work

end JobEngine
