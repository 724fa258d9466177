import JobEngine.Json.Members

namespace JobEngine

inductive JobKind
  | liveAttributes
  | indexUpdate
  | ngrams
  | keywords
  | corpusSync
  | dummy
deriving DecidableEq

namespace JobKind

def all : List JobKind := [liveAttributes, indexUpdate, ngrams, keywords, corpusSync, dummy]

def name : JobKind → String
  | liveAttributes => "liveattrs"
  | indexUpdate => "liveattrs-idx-update"
  | ngrams => "ngram-and-qs-generating"
  | keywords => "keywords-build"
  | corpusSync => "sync-cnk"
  | dummy => "dummy-job"

def label : JobKind → String
  | liveAttributes => "LiveAttrs"
  | indexUpdate => "IdxUpdate"
  | ngrams => "Ngram"
  | keywords => "Keywords"
  | corpusSync => "CorpusSync"
  | dummy => "Dummy"

def description : JobKind → String
  | liveAttributes => "Live attributes data extraction and generation"
  | indexUpdate => "Live attributes index update"
  | ngrams => "N-grams and query suggestion data generation"
  | keywords => "Keywords data generation"
  | corpusSync => "Corpus data synchronization"
  | dummy => "Testing and debugging empty job"

def ofName? (s : String) : Option JobKind := all.find? (·.name = s)

theorem ofName?_name (k : JobKind) : ofName? k.name = some k := by
  cases k <;> decide

/-- A name, or an object with one name as its key and null as its value. -/
def ofJson? (v : Json) : Option JobKind :=
  match v.canonical with
  | .str s => ofName? s
  | .obj [(s, .null)] => ofName? s
  | _ => none

def toJson (k : JobKind) : Json := .str k.name

end JobKind

end JobEngine
