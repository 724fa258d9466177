import JobEngine.Job.Codec
import JobEngine.Json.Reader
import JobEngine.Json.Printer
import JobEngine.Store.FileSystem

namespace JobEngine

structure Store where
  path : String
deriving DecidableEq

namespace Store

def render (jobs : List Job) : String := (Json.arr (jobs.map Job.toJson)).pretty

def target (s : Store) : Path := .ofString s.path

def temporary (s : Store) : Path := .ofString (s.path ++ ".tmp")

def plan (s : Store) (jobs : List Job) : List FileSystem.Step :=
  [.makeDirectories s.target.parent, .write s.temporary (render jobs).toUTF8,
    .rename s.temporary s.target]

def save (s : Store) (jobs : List Job) (fs : FileSystem) : Except Error Unit × FileSystem :=
  FileSystem.perform (s.plan jobs) fs

def entries? (text : String) : Option (List Json) :=
  match Json.read text with
  | some (.arr items) => some items
  | _ => none

def parse (content : ByteArray) : Except Error (List Job) :=
  match (String.fromUTF8? content).bind entries? with
  | some items => .ok (items.filterMap Job.ofJson?)
  | none => .error .unreadable

def load (s : Store) (fs : FileSystem) : Except Error (List Job) :=
  match fs.read s.target with
  | some content => parse content
  | none => .error .io

/-- A state file that does not load holds no jobs. -/
def loadOrEmpty (s : Store) (fs : FileSystem) : List Job :=
  match s.load fs with
  | .ok jobs => jobs
  | .error _ => []

end Store

end JobEngine
