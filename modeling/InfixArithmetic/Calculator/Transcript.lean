/-
  What a run of the calculator leaves behind: two streams of text and an exit code.

  Transcripts are put one behind the other; the larger code counts.
-/
namespace InfixArithmetic.Calculator

/-- Standard output, standard error and the exit code. -/
@[ext]
structure Transcript where
  stdout : String := ""
  stderr : String := ""
  code : Nat := 0
  deriving DecidableEq, Repr

namespace Transcript

/-- Nothing printed, and success. -/
def empty : Transcript := {}

instance : Append Transcript where
  append a b := ⟨a.stdout ++ b.stdout, a.stderr ++ b.stderr, max a.code b.code⟩

@[simp]
theorem stdout_append (a b : Transcript) : (a ++ b).stdout = a.stdout ++ b.stdout := rfl

@[simp]
theorem stderr_append (a b : Transcript) : (a ++ b).stderr = a.stderr ++ b.stderr := rfl

@[simp]
theorem code_append (a b : Transcript) : (a ++ b).code = max a.code b.code := rfl

@[simp]
theorem empty_append (a : Transcript) : empty ++ a = a := by
  ext1 <;> simp [empty]

@[simp]
theorem append_empty (a : Transcript) : a ++ empty = a := by
  ext1 <;> simp [empty]

theorem append_assoc (a b c : Transcript) : a ++ b ++ c = a ++ (b ++ c) := by
  ext1 <;> simp [String.append_assoc, Nat.max_assoc]

end Transcript

end InfixArithmetic.Calculator
