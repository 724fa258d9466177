import JobEngine.Error

namespace JobEngine

/-- A path with its empty and `.` parts left out. A path that ends in a slash names a folder. -/
structure Path where
  parts : List String
  folder : Bool
deriving DecidableEq

namespace Path

def push (parts : List String) (part : String) : List String :=
  if part = "" ∨ part = "." then parts
  else if part = ".." then parts.dropLast
  else parts ++ [part]

def splitSlash : List Char → List Char → List String
  | word, [] => [String.ofList word.reverse]
  | word, c :: cs =>
    if c = '/' then String.ofList word.reverse :: splitSlash [] cs else splitSlash (c :: word) cs

def ofString (s : String) : Path :=
  let words := splitSlash [] s.toList
  let last := words.getLastD ""
  let root := if words.length > 1 ∧ words.headD "" = "" then ["/"] else []
  ⟨words.foldl push root, last = "" || last = "." || last = ".."⟩

def parent (p : Path) : List String := p.parts.dropLast

end Path

inductive Node
  | file (content : ByteArray)
  | directory

/-- What stands at each path; the working directory is always there. -/
structure FileSystem where
  nodes : List (List String × Node) := []

namespace FileSystem

def find? (fs : FileSystem) (parts : List String) : Option Node :=
  if parts = [] ∨ parts = ["/"] then some .directory else fs.nodes.lookup parts

def erase (fs : FileSystem) (parts : List String) : FileSystem :=
  ⟨fs.nodes.filter (·.1 ≠ parts)⟩

def put (fs : FileSystem) (parts : List String) (n : Node) : FileSystem :=
  ⟨(parts, n) :: (fs.erase parts).nodes⟩

def isDirectory (fs : FileSystem) (parts : List String) : Bool :=
  match fs.find? parts with
  | some .directory => true
  | _ => false

def makeDirectory (fs : FileSystem) (parts : List String) : Option FileSystem :=
  match fs.find? parts with
  | some .directory => some fs
  | some (.file _) => none
  | none => some (fs.put parts .directory)

def makeDirectoriesFrom (fs : FileSystem) (top : List String) : List String → Option FileSystem
  | [] => some fs
  | part :: rest => do
    let fs ← fs.makeDirectory (top ++ [part])
    makeDirectoriesFrom fs (top ++ [part]) rest

def makeDirectories (fs : FileSystem) (parts : List String) : Option FileSystem :=
  fs.makeDirectoriesFrom [] parts

/-- Whether a file can be put at a path: its directory is there and it is none itself. -/
def accepts (fs : FileSystem) (p : Path) : Bool :=
  !p.folder && p.parts ≠ [] && fs.isDirectory p.parent && !fs.isDirectory p.parts

def write (fs : FileSystem) (p : Path) (content : ByteArray) : Option FileSystem :=
  if fs.accepts p then some (fs.put p.parts (.file content)) else none

def rename (fs : FileSystem) (source target : Path) : Option FileSystem :=
  match fs.find? source.parts with
  | some (.file content) =>
    if fs.accepts target then
      some ((fs.erase source.parts).put target.parts (.file content))
    else none
  | _ => none

def read (fs : FileSystem) (p : Path) : Option ByteArray :=
  if p.folder then none
  else match fs.find? p.parts with
    | some (.file content) => some content
    | _ => none

inductive Step
  | makeDirectories (parts : List String)
  | write (p : Path) (content : ByteArray)
  | rename (source target : Path)

/-- A step that succeeds; one that fails changes nothing. -/
def Step.perform : Step → FileSystem → Option FileSystem
  | makeDirectories parts, fs => fs.makeDirectories parts
  | write p content, fs => fs.write p content
  | rename source target, fs => fs.rename source target

def perform : List Step → FileSystem → Except Error Unit × FileSystem
  | [], fs => (.ok (), fs)
  | s :: rest, fs =>
    match s.perform fs with
    | some fs => perform rest fs
    | none => (.error .io, fs)

end FileSystem

end JobEngine
