import Cinematic.Register
import Cinematic.Text.Pad

/-!
# The registers

All threads share 256 registers of sixteen bits. A register is named by a byte, so every name
is one of a register and **no access can fail**. Words are kept without a sign; the instructions
that compare or place things read them as signed.
-/

namespace Cinematic

/-- The contents of the registers. -/
structure RegisterFile where
  /-- The words, in the order of the registers. -/
  words : Vector UInt16 256
deriving DecidableEq

namespace RegisterFile

/-- All registers zero. -/
def zero : RegisterFile := ⟨Vector.replicate 256 0⟩

/-- The content of a register. -/
def get (r : RegisterFile) (reg : UInt8) : UInt16 :=
  have inside : reg.toNat < 256 := reg.toNat_lt
  r.words[reg.toNat]

/-- The content of a register as a signed word. -/
def getSigned (r : RegisterFile) (reg : UInt8) : Int16 := (r.get reg).toInt16

/-- The registers with a new word in one of them. -/
def set (r : RegisterFile) (reg : UInt8) (word : UInt16) : RegisterFile :=
  ⟨r.words.set reg.toNat word reg.toNat_lt⟩

/-- The registers with a signed word in one of them. -/
def setSigned (r : RegisterFile) (reg : UInt8) (word : Int16) : RegisterFile :=
  r.set reg word.toUInt16

/-- The registers with one of them changed by a function. -/
def update (r : RegisterFile) (reg : UInt8) (f : UInt16 → UInt16) : RegisterFile :=
  let old := r.get reg
  r.set reg (f old)

/-- The registers with new words in some of them, one after the other. -/
def setAll (r : RegisterFile) (values : List (UInt8 × UInt16)) : RegisterFile :=
  values.foldl (fun r (reg, word) => r.set reg word) r

/-- All words, in the order of the registers. -/
def toList (r : RegisterFile) : List UInt16 := r.words.toList

/-- The registers that are not zero, with their words. -/
def nonZero (r : RegisterFile) : List (Nat × UInt16) :=
  (r.toList.zipIdx.map fun (word, i) => (i, word)).filter fun (_, word) => word ≠ 0

/-- The registers that are not zero as a text between braces. -/
def text (r : RegisterFile) : String :=
  let items := r.nonZero.map fun (i, word) =>
    Text.hexMarked 2 i ++ ": " ++ Text.hexMarked 4 word.toNat
  "\x7b" ++ String.intercalate ", " items ++ "\x7d"

@[simp] theorem get_set_self (r : RegisterFile) (reg : UInt8) (word : UInt16) :
    (r.set reg word).get reg = word := by
  simp [get, set]

theorem get_set_of_ne (r : RegisterFile) {reg other : UInt8} (h : other ≠ reg) (word : UInt16) :
    (r.set reg word).get other = r.get other := by
  have : reg.toNat ≠ other.toNat := fun e => h (UInt8.toNat_inj.1 e.symm)
  simp [get, set, this]

@[simp] theorem set_get (r : RegisterFile) (reg : UInt8) : r.set reg (r.get reg) = r := by
  simp [get, set]

@[simp] theorem set_set (r : RegisterFile) (reg : UInt8) (word word' : UInt16) :
    (r.set reg word).set reg word' = r.set reg word' := by
  simp [set]

end RegisterFile

end Cinematic
