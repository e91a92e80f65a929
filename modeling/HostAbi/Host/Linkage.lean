import HostAbi.Text.Utf8

/-!
# What the host links

The host registers functions under two module names. Of the first, some functions work and the
others link but fail on every call. A function that is not registered does not link at all. The
names are listed in the order of their UTF-8 bytes and found by halving.
-/

namespace HostAbi

/-- Whether a list in the order of UTF-8 bytes holds a text, looked for between two places. -/
def listedBetween (names : Array String) (s : String) (lo hi : Nat) : Bool :=
  if lo < hi then
    let mid := (lo + hi) / 2
    match names[mid]? with
    | none => false
    | some name =>
      if Utf8.encode s < Utf8.encode name then listedBetween names s lo mid
      else if Utf8.encode name < Utf8.encode s then listedBetween names s (mid + 1) hi
      else true
  else false
termination_by hi - lo

/-- Whether a list in the order of UTF-8 bytes holds a text. -/
def listed (names : Array String) (s : String) : Bool := listedBetween names s 0 names.size

/-- How the host resolves a function that a module imports. -/
inductive Linkage where
  | provided
  | stubbed
  | unlinked
  deriving DecidableEq

namespace Host

/-- The module name of the system interface. -/
def wasiModule : String := "wasi_snapshot_preview1"

/-- The module name of the environment. -/
def envModule : String := "env"

/-- The functions of the WASI module that work. -/
def implemented : Array String :=
  #["clock_time_get", "fd_close", "fd_fdstat_get", "fd_fdstat_set_flags", "fd_filestat_get",
    "fd_prestat_dir_name", "fd_prestat_get", "fd_read", "path_open", "poll_oneoff", "proc_exit",
    "random_get", "sock_recv", "sock_send"]

/-- The functions of the WASI module that link and fail when called. -/
def stubbed : Array String :=
  #["args_get", "args_sizes_get", "clock_res_get", "environ_get", "environ_sizes_get", "fd_advise",
    "fd_allocate", "fd_datasync", "fd_fdstat_set_rights", "fd_filestat_set_size",
    "fd_filestat_set_times", "fd_pread", "fd_pwrite", "fd_readdir", "fd_renumber", "fd_seek",
    "fd_sync", "fd_tell", "fd_write", "path_create_directory", "path_filestat_get",
    "path_filestat_set_times", "path_link", "path_readlink", "path_remove_directory",
    "path_rename", "path_symlink", "path_unlink_file", "proc_raise", "sched_yield",
    "sock_shutdown"]

/-- The functions of the environment module, which name a fixed process. -/
def identity : Array String := #["getegid", "geteuid", "getgid", "getpid", "getuid"]

/-- What becomes of an imported function. -/
def linkage (fromModule name : String) : Linkage :=
  if fromModule = wasiModule then
    if listed implemented name then .provided
    else if listed stubbed name then .stubbed
    else .unlinked
  else if fromModule = envModule then
    if listed identity name then .provided else .unlinked
  else .unlinked

end Host

end HostAbi
