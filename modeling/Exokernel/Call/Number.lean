/-!
# System calls

The calls a user environment can make, with their numbers and names.
-/

namespace Exokernel

/-- A system call. -/
inductive Call where
  | getEnvId
  | envDestroy
  | pageAlloc
  | pageMap
  | pageUnmap
  | exofork
  | envSetStatus
  | envSetUpcall
  | yieldCpu
  | ipcTrySend
  | ipcRecv
  | getCpuId
deriving DecidableEq, Inhabited

/-- The five argument words of a system call. -/
structure Args where
  first : UInt32 := 0
  second : UInt32 := 0
  third : UInt32 := 0
  fourth : UInt32 := 0
  fifth : UInt32 := 0
deriving DecidableEq, Inhabited

namespace Args

/-- The words of a list, 0 where it ends early. -/
def ofList (l : List UInt32) : Args where
  first := l.getD 0 0
  second := l.getD 1 0
  third := l.getD 2 0
  fourth := l.getD 3 0
  fifth := l.getD 4 0

/-- The words in order. -/
def toList (a : Args) : List UInt32 := [a.first, a.second, a.third, a.fourth, a.fifth]

@[simp] theorem ofList_toList (a : Args) : ofList a.toList = a := rfl

end Args

namespace Call

/-- The call's number. -/
def number : Call → UInt32
  | .getEnvId => 1
  | .envDestroy => 2
  | .pageAlloc => 3
  | .pageMap => 4
  | .pageUnmap => 5
  | .exofork => 6
  | .envSetStatus => 7
  | .envSetUpcall => 8
  | .yieldCpu => 9
  | .ipcTrySend => 10
  | .ipcRecv => 11
  | .getCpuId => 12

/-- The call's name. -/
def name : Call → String
  | .getEnvId => "getenvid"
  | .envDestroy => "env_destroy"
  | .pageAlloc => "page_alloc"
  | .pageMap => "page_map"
  | .pageUnmap => "page_unmap"
  | .exofork => "exofork"
  | .envSetStatus => "env_set_status"
  | .envSetUpcall => "env_set_pgfault_upcall"
  | .yieldCpu => "yield"
  | .ipcTrySend => "ipc_try_send"
  | .ipcRecv => "ipc_recv"
  | .getCpuId => "get_cpu_id"

/-- All calls, by number. -/
def all : List Call :=
  [getEnvId, envDestroy, pageAlloc, pageMap, pageUnmap, exofork, envSetStatus, envSetUpcall,
    yieldCpu, ipcTrySend, ipcRecv, getCpuId]

/-- The call with a number. -/
def ofNumber? (n : UInt32) : Option Call :=
  all.find? (·.number = n)

/-- The call with a name, in upper or lower case of the ASCII letters. -/
def ofName? (s : String) : Option Call :=
  all.find? (·.name.toList = s.toList.map Char.toLower)

@[simp] theorem ofNumber?_number (c : Call) : ofNumber? c.number = some c := by
  cases c <;> decide

end Call

end Exokernel
