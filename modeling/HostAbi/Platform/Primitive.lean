/-!
# Primitives of the C library

The functions of the C library that hosted code calls. Touching a primitive calls it once with
arguments that do no harm and drops the result, which shows only that its symbol links.
-/

namespace HostAbi

/-- The primitives, where one that is called in two ways counts twice. What such a call returns is
not looked at, so a primitive has no result here. -/
inductive Primitive where
  | malloc
  | free
  | clockGettime
  | fcntlGetFlags
  | fcntlSetFlags
  | poll
  | openFile
  | close
  | recv
  | send
  | fstat
  | read
  deriving DecidableEq

namespace Primitive

/-- In the order in which they are exercised. -/
def all : List Primitive :=
  [.malloc, .free, .clockGettime, .fcntlGetFlags, .fcntlSetFlags, .poll, .openFile, .close, .recv,
    .send, .fstat, .read]

/-- The name of a primitive in the list of all. -/
def name : Primitive → String
  | .malloc => "Malloc"
  | .free => "Free"
  | .clockGettime => "ClockGettime"
  | .fcntlGetFlags => "FcntlGetFlags"
  | .fcntlSetFlags => "FcntlSetFlags"
  | .poll => "Poll"
  | .openFile => "Open"
  | .close => "Close"
  | .recv => "Recv"
  | .send => "Send"
  | .fstat => "Fstat"
  | .read => "Read"

def ofName? (s : String) : Option Primitive := all.find? (·.name == s)

/-- The symbol that a primitive links to. -/
def symbol : Primitive → String
  | .malloc => "malloc"
  | .free => "free"
  | .clockGettime => "clock_gettime"
  | .fcntlGetFlags | .fcntlSetFlags => "fcntl"
  | .poll => "poll"
  | .openFile => "open"
  | .close => "close"
  | .recv => "recv"
  | .send => "send"
  | .fstat => "fstat"
  | .read => "read"

end Primitive

end HostAbi
