import HostAbi.Fact.Basic

/-!
# The pinned facts

What code compiled for 32-bit WebAssembly with WASI takes for granted. A check stops at the first
fact that fails, so the order is part of the table: facts that came later stand at the end, where
they hide no earlier failure.
-/

namespace HostAbi

/-- Changes whenever a fact is added or a pinned value changes. -/
def factTableVersion : String := "0.1.0"

/-- The table of facts, in the order in which they are checked. -/
def pinnedFacts : List Fact :=
  [⟨"size of time_t", 8, .sizeOfTimeT, .minimal⟩,
    ⟨"size of long", 4, .sizeOfLong, .minimal⟩,
    ⟨"size of struct timespec", 16, .sizeOfTimespec, .minimal⟩,
    ⟨"size of struct pollfd", 8, .sizeOfPollfd, .extended⟩,
    ⟨"size of struct stat", 144, .sizeOfStat, .extended⟩,
    ⟨"size of generic pointer", 4, .sizeOfCharPtrPtr, .minimal⟩,
    ⟨"size of int pointer", 4, .sizeOfIntPtr, .minimal⟩,
    ⟨"value of F_GETFL", 3, .fGetfl, .minimal⟩,
    ⟨"value of O_RDONLY", 0x4000000, .oRdonly, .minimal⟩,
    ⟨"value of O_NONBLOCK", 0x4, .oNonblock, .minimal⟩,
    ⟨"value of POLLIN", 0x001, .pollin, .extended⟩,
    ⟨"value of POLLOUT", 0x002, .pollout, .extended⟩,
    ⟨"size of timespec pointer", 4, .sizeOfTimespecPtr, .extended⟩,
    ⟨"offset of timespec tv_sec", 0, .offsetOfTimespecSec, .extended⟩,
    ⟨"offset of timespec tv_nsec", 8, .offsetOfTimespecNsec, .extended⟩]

/-- The fact with a name, if the table has one. -/
def pinnedFact? (name : String) : Option Fact := pinnedFacts.find? (·.name == name)

/-- The value that the pinned facts give a query. -/
def pinnedValue? (q : Query) : Option Int64 :=
  (pinnedFacts.find? (·.source == q)).map (·.expected)

end HostAbi
