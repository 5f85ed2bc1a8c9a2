/-!
Halves of surrogate pairs that stand alone. The characters of a text are whole
ones, so each half has a stand-in in the middle of the last private plane, which
stands for nothing else and is written back as the half.
-/
namespace WorkflowStudio.Text

def isHighSurrogate (unit : Nat) : Bool := 0xd800 ≤ unit && unit < 0xdc00

def isLowSurrogate (unit : Nat) : Bool := 0xdc00 ≤ unit && unit < 0xe000

/-- The distance from a half to its stand-in. -/
def standInShift : Nat := 0x105800 - 0xd800

def standIn (unit : Nat) : Char := Char.ofNat (unit + standInShift)

/-- The character of a code point, or the stand-in of a half. -/
def charOfCode (n : Nat) : Char :=
  if isHighSurrogate n || isLowSurrogate n then standIn n else Char.ofNat n

/-- The half that a character stands for. -/
def half? (c : Char) : Option Nat :=
  if 0x105800 ≤ c.toNat ∧ c.toNat < 0x106000 then some (c.toNat - standInShift) else none

/-- Whether a text holds a half that stands alone. -/
def isBroken (s : String) : Bool := s.toList.any fun c => (half? c).isSome

end WorkflowStudio.Text
