namespace Assay

structure Mismatch where
  check : String
  detail : String
  deriving DecidableEq, Repr

def Mismatch.text (m : Mismatch) : String :=
  m.check ++ ": " ++ m.detail

inductive Verdict where
  | pass
  | fail (mismatch : Mismatch)
  deriving DecidableEq, Repr

namespace Verdict

def isPass : Verdict → Bool
  | pass => true
  | fail _ => false

def mismatch? : Verdict → Option Mismatch
  | pass => none
  | fail m => some m

/-- A verdict under another name of the check. -/
def relabel (check : String) : Verdict → Verdict
  | pass => pass
  | fail m => fail ⟨check, m.detail⟩

def ofBool (holds : Bool) (check detail : String) : Verdict :=
  if holds then pass else fail ⟨check, detail⟩

@[simp] theorem mismatch?_eq_none {v : Verdict} : v.mismatch? = none ↔ v.isPass = true := by
  cases v <;> simp [mismatch?, isPass]

end Verdict

end Assay
