/-!
# Serials

Every method on an interface has a 32-bit serial. Declared methods are numbered from one and stay
below `2 ^ 24`; a reserved method packs a nonzero mark and three letters into one number, which
puts it above them all.
-/

namespace Idl.Serial

def first : UInt32 := 0x00000001

def last : UInt32 := 0x00ffffff

/-- The serial of the declared method with the index, if it is in range. -/
def ofIndex? (index : UInt64) : Option UInt32 :=
  let serial := index.toNat + first.toNat
  if serial ≤ last.toNat then some (.ofNat serial) else none

/-- Four bytes in one word, the first in the highest place. -/
def pack (a b c d : UInt8) : UInt32 :=
  a.toUInt32 <<< 24 ||| b.toUInt32 <<< 16 ||| c.toUInt32 <<< 8 ||| d.toUInt32

/-- The mark of the reserved methods. -/
def mark : UInt8 := 0x0f

def letter (c : Char) : UInt8 := .ofNat c.toNat

def reserved (a b c : Char) : UInt32 := pack mark (letter a) (letter b) (letter c)

def chain : UInt32 := reserved 'C' 'H' 'N'

def debug : UInt32 := reserved 'D' 'B' 'G'

def descriptor : UInt32 := reserved 'D' 'S' 'C'

def instrumentation : UInt32 := reserved 'I' 'N' 'T'

def ping : UInt32 := reserved 'P' 'N' 'G'

def sysprops : UInt32 := reserved 'S' 'Y' 'S'

example : ping = 0x0f504e47 := by decide

end Idl.Serial
