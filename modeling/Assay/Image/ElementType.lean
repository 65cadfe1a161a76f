namespace Assay.Image

/-- The stored types: integers of one, two, four and eight bytes, and real numbers of four and
eight. The type called long has four bytes in a file, like the integer. -/
inductive ElementType where
  | uchar
  | char
  | ushort
  | short
  | uint
  | int
  | ulong
  | long
  | ulongLong
  | longLong
  | float
  | double
  deriving DecidableEq, Repr

namespace ElementType

def all : List ElementType :=
  [uchar, char, ushort, short, uint, int, ulong, long, ulongLong, longLong, float, double]

def name : ElementType → String
  | uchar => "MET_UCHAR"
  | char => "MET_CHAR"
  | ushort => "MET_USHORT"
  | short => "MET_SHORT"
  | uint => "MET_UINT"
  | int => "MET_INT"
  | ulong => "MET_ULONG"
  | long => "MET_LONG"
  | ulongLong => "MET_ULONG_LONG"
  | longLong => "MET_LONG_LONG"
  | float => "MET_FLOAT"
  | double => "MET_DOUBLE"

def ofName? (s : String) : Option ElementType :=
  all.find? fun t => t.name = s

def size : ElementType → Nat
  | uchar | char => 1
  | ushort | short => 2
  | uint | int | ulong | long | float => 4
  | ulongLong | longLong | double => 8

theorem size_pos (t : ElementType) : 0 < t.size := by
  cases t <;> decide

@[simp] theorem ofName?_name (t : ElementType) : ofName? t.name = some t := by
  cases t <;> decide

end ElementType

end Assay.Image
