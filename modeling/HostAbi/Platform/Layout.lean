import HostAbi.Platform.Basic

/-!
# The layout of a compiled target

A layout gives the sizes and offsets of a target's C types as machine words, and the values of
the constants. It answers every query. Four of its numbers can also be read from outside, through
functions exported with the C calling convention.
-/

namespace HostAbi

/-- The numbers of a target. No size or offset is negative, and any of the constants may be. -/
structure Layout where
  timeTSize : UInt64
  longSize : UInt64
  timespecSize : UInt64
  pollfdSize : UInt64
  statSize : UInt64
  charPtrPtrSize : UInt64
  intPtrSize : UInt64
  timespecPtrSize : UInt64
  timespecSecOffset : UInt64
  timespecNsecOffset : UInt64
  getFlags : Int64
  readOnly : Int64
  nonBlock : Int64
  pollIn : Int64
  pollOut : Int64

namespace Layout

/-- The number that a query is for, as a signed word. -/
def answer (L : Layout) : Query → Int64
  | .sizeOfTimeT => L.timeTSize.toInt64
  | .sizeOfLong => L.longSize.toInt64
  | .sizeOfTimespec => L.timespecSize.toInt64
  | .sizeOfPollfd => L.pollfdSize.toInt64
  | .sizeOfStat => L.statSize.toInt64
  | .sizeOfCharPtrPtr => L.charPtrPtrSize.toInt64
  | .sizeOfIntPtr => L.intPtrSize.toInt64
  | .sizeOfTimespecPtr => L.timespecPtrSize.toInt64
  | .offsetOfTimespecSec => L.timespecSecOffset.toInt64
  | .offsetOfTimespecNsec => L.timespecNsecOffset.toInt64
  | .fGetfl => L.getFlags
  | .oRdonly => L.readOnly
  | .oNonblock => L.nonBlock
  | .pollin => L.pollIn
  | .pollout => L.pollOut

/-- The platform that gives the numbers of a layout, however often it is asked. -/
def platform (L : Layout) : Platform Unit := .fixed L.answer

/-- 64-bit Linux on x86 with the GNU C library. -/
def linux64 : Layout where
  timeTSize := 8
  longSize := 8
  timespecSize := 16
  pollfdSize := 8
  statSize := 144
  charPtrPtrSize := 8
  intPtrSize := 8
  timespecPtrSize := 8
  timespecSecOffset := 0
  timespecNsecOffset := 8
  getFlags := 3
  readOnly := 0
  nonBlock := 2048
  pollIn := 1
  pollOut := 4

end Layout

/-- The functions through which a layout is read from outside. -/
inductive LayoutExport where
  | timespecPointerSize
  | timespecSecondsOffset
  | timespecNanosecondsOffset
  | statSize
  deriving DecidableEq

namespace LayoutExport

def all : List LayoutExport :=
  [.timespecPointerSize, .timespecSecondsOffset, .timespecNanosecondsOffset, .statSize]

/-- The name that a function is exported under. -/
def symbol : LayoutExport → String
  | .timespecPointerSize => "size_of_timespec_pointer"
  | .timespecSecondsOffset => "offset_of_timespec_seconds_field"
  | .timespecNanosecondsOffset => "offset_of_timespec_nanoseconds_field"
  | .statSize => "size_of_stat_structure"

/-- The function that is exported under a name. -/
def ofSymbol? (s : String) : Option LayoutExport := all.find? (·.symbol == s)

/-- The query that stands behind an exported function. -/
def query : LayoutExport → Query
  | .timespecPointerSize => .sizeOfTimespecPtr
  | .timespecSecondsOffset => .offsetOfTimespecSec
  | .timespecNanosecondsOffset => .offsetOfTimespecNsec
  | .statSize => .sizeOfStat

/-- What an exported function returns: the answer to its query, as an unsigned word. -/
def value (e : LayoutExport) (L : Layout) : UInt64 := (L.answer e.query).toUInt64

theorem ofSymbol?_symbol (e : LayoutExport) : ofSymbol? e.symbol = some e := by cases e <;> rfl

end LayoutExport

end HostAbi
