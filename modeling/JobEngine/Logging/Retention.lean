import JobEngine.Time.Reader

namespace JobEngine

/-- The name of a file: any bytes, which need not be a text. -/
structure FileName where
  bytes : Array UInt8
deriving DecidableEq

namespace FileName

def ofText (s : String) : FileName := ⟨s.toUTF8.data⟩

instance : Coe String FileName := ⟨ofText⟩

def text? (n : FileName) : Option String := String.fromUTF8? ⟨n.bytes⟩

end FileName

structure LogFile where
  name : FileName
  regular : Bool
deriving DecidableEq

namespace LogFile

def stem : String := "corpus-jobs.log"

def day? (name : FileName) : Option Date := do
  let text ← name.text?
  let start := stem.toList ++ ['.']
  if start.isPrefixOf text.toList then Date.read? (text.toList.drop start.length) else none

def rolledBefore (cutoff : Date) (f : LogFile) : Bool :=
  f.regular && (day? f.name).any fun d ↦ d.number < cutoff.number

def retentionDays : Nat := 7

def cutoff? (now : Instant) (days : Nat) : Option Date :=
  (now.shift? (-(days * 86400 * nanosPerSecond : Nat))).map (·.date)

/-- Deletes the files rolled before a day, as far as they can be deleted, and counts them. -/
def cleanUp (deletable : LogFile → Bool) (cutoff : Date) (files : List LogFile) :
    Nat × List LogFile :=
  let (gone, left) := files.partition fun f ↦ f.rolledBefore cutoff && deletable f
  (gone.length, left)

/-- Seconds between two clean-ups; the first comes after one full period. -/
def period : Nat := 24 * 60 * 60

def leftAfter (now : Instant) (seconds : Nat) (files : List LogFile) : List LogFile :=
  match cutoff? now retentionDays with
  | some cutoff => if period ≤ seconds then (cleanUp (fun _ ↦ true) cutoff files).2 else files
  | none => files

end LogFile

end JobEngine
