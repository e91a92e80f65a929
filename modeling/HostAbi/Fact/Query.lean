/-!
# What can be asked of a platform

A query names one size, offset or constant of a platform's C interface. It says where a value
comes from and never carries the value, so asking it again reads the platform again. Each query
backs facts of one kind only.
-/

namespace HostAbi

/-- What sort of assumption a fact makes. All sorts are checked as equality of integers. -/
inductive FactKind where
  | constantEquals
  | typeSizeEquals
  | structSizeEquals
  | fieldOffsetEquals
  deriving DecidableEq

namespace FactKind

def all : List FactKind :=
  [.constantEquals, .typeSizeEquals, .structSizeEquals, .fieldOffsetEquals]

/-- The name of a kind, as reports give it. -/
def name : FactKind → String
  | .constantEquals => "constant_equals"
  | .typeSizeEquals => "type_size_equals"
  | .structSizeEquals => "struct_size_equals"
  | .fieldOffsetEquals => "field_offset_equals"

def ofName? (s : String) : Option FactKind := all.find? (·.name == s)

theorem ofName?_name (k : FactKind) : ofName? k.name = some k := by cases k <;> rfl

end FactKind

/-- A quantity that a platform can be asked for. -/
inductive Query where
  | sizeOfTimeT
  | sizeOfLong
  | sizeOfTimespec
  | sizeOfPollfd
  | sizeOfStat
  | sizeOfCharPtrPtr
  | sizeOfIntPtr
  | sizeOfTimespecPtr
  | offsetOfTimespecSec
  | offsetOfTimespecNsec
  | fGetfl
  | oRdonly
  | oNonblock
  | pollin
  | pollout
  deriving DecidableEq

namespace Query

def all : List Query :=
  [.sizeOfTimeT, .sizeOfLong, .sizeOfTimespec, .sizeOfPollfd, .sizeOfStat, .sizeOfCharPtrPtr,
    .sizeOfIntPtr, .sizeOfTimespecPtr, .offsetOfTimespecSec, .offsetOfTimespecNsec, .fGetfl,
    .oRdonly, .oNonblock, .pollin, .pollout]

/-- The name of a query, in documents. -/
def name : Query → String
  | .sizeOfTimeT => "size_of_time_t"
  | .sizeOfLong => "size_of_long"
  | .sizeOfTimespec => "size_of_timespec"
  | .sizeOfPollfd => "size_of_pollfd"
  | .sizeOfStat => "size_of_stat"
  | .sizeOfCharPtrPtr => "size_of_char_ptr_ptr"
  | .sizeOfIntPtr => "size_of_int_ptr"
  | .sizeOfTimespecPtr => "size_of_timespec_ptr"
  | .offsetOfTimespecSec => "offset_of_timespec_sec"
  | .offsetOfTimespecNsec => "offset_of_timespec_nsec"
  | .fGetfl => "f_getfl"
  | .oRdonly => "o_rdonly"
  | .oNonblock => "o_nonblock"
  | .pollin => "pollin"
  | .pollout => "pollout"

def ofName? (s : String) : Option Query := all.find? (·.name == s)

theorem ofName?_name (q : Query) : ofName? q.name = some q := by cases q <;> rfl

/-- The only kind of fact that a query can back. -/
def kind : Query → FactKind
  | .sizeOfTimeT | .sizeOfLong | .sizeOfCharPtrPtr | .sizeOfIntPtr | .sizeOfTimespecPtr =>
    .typeSizeEquals
  | .sizeOfTimespec | .sizeOfPollfd | .sizeOfStat => .structSizeEquals
  | .offsetOfTimespecSec | .offsetOfTimespecNsec => .fieldOffsetEquals
  | .fGetfl | .oRdonly | .oNonblock | .pollin | .pollout => .constantEquals

end Query

end HostAbi
