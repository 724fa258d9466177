import JobEngine.Error
import JobEngine.Job.Basic
import JobEngine.Text.Quoted

namespace JobEngine

structure Runner (τ : Type) where
  kind : JobKind
  build : Job → Except Error τ

structure Runners (τ : Type) where
  all : List (Runner τ) := []

namespace Runners

variable {τ : Type}

def register (rs : Runners τ) (r : Runner τ) : Runners τ :=
  ⟨rs.all.filter (·.kind ≠ r.kind) ++ [r]⟩

def get? (rs : Runners τ) (k : JobKind) : Option (Runner τ) := rs.all.find? (·.kind = k)

def kinds (rs : Runners τ) : List JobKind := rs.all.map (·.kind)

def listing (rs : Runners τ) : String := Text.setListing (rs.kinds.map JobKind.label)

end Runners

end JobEngine
