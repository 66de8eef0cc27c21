/-!
Script words are compared without regard to case. Only the ASCII letters have two cases here; every
other character is compared as it stands.
-/
namespace ActorScript

/-- The text with its ASCII capitals made small. -/
def lowerCase (s : String) : String := String.ofList (s.toList.map Char.toLower)

/-- Two words are the same up to the case of ASCII letters. -/
def sameWord (a b : String) : Bool := lowerCase a == lowerCase b

theorem sameWord_iff {a b : String} : sameWord a b = true ↔ lowerCase a = lowerCase b := by
  simp [sameWord]

@[simp] theorem sameWord_refl (a : String) : sameWord a a = true := by simp [sameWord]

theorem sameWord_comm (a b : String) : sameWord a b = sameWord b a := by
  simp [sameWord, Bool.beq_comm]

@[simp] theorem toList_lowerCase (s : String) :
    (lowerCase s).toList = s.toList.map Char.toLower := by simp [lowerCase]

end ActorScript
