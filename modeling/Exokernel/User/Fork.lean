import Exokernel.Log
import Exokernel.Text.Hex
import Exokernel.User.Syscalls
/-!
# Copying an environment

A child starts with its parent's pages, mapped and not copied. Pages that either of them may write
are marked copy-on-write in both, and the first write to one faults into `handleCowFault`, which
gives the writer a copy of its own.
-/

namespace Exokernel

/-- A program's view of its own page tables. -/
structure AddressSpace (m : Type → Type) where
  /-- A page table covers the address. -/
  tablePresent : Nat → m Bool
  /-- The permission of the page mapped at an address, if there is one. -/
  pagePerm : Nat → m (Option Perm)
  /-- Copies the page at one address to the page at another. -/
  copyPage : Nat → Nat → m Unit

/-- Why a page fault is not handled. -/
inductive PageFaultError where
  /-- The access was not a write. -/
  | notWrite (va : Nat) (err : UInt32)
  /-- The page is not one that is copied when it is written. -/
  | notCow (va : Nat)
  /-- A system call was refused. -/
  | call (e : CallError)
deriving DecidableEq, Inhabited

/-- The name of the reason. -/
def PageFaultError.name : PageFaultError → String
  | .notWrite _ _ => "NotWrite"
  | .notCow _ => "NotCow"
  | .call _ => "Syscall"

/-- What went wrong. -/
def PageFaultError.message : PageFaultError → String
  | .notWrite va err =>
    "fault is not a write: va " ++ Hex.address va ++ ", err 0x" ++ Hex.padded 8 err.toNat
  | .notCow va => "fault on a non-cow page: va " ++ Hex.address va
  | .call e => e.message

namespace User

/-- The bit of a page fault's error code that tells of a write. -/
def faultOnWrite : UInt32 := 0x2

variable {m : Type → Type} [Monad m]

/-- A system call of the page fault handler. -/
def inHandler {α : Type} (x : ExceptT CallError m α) : ExceptT PageFaultError m α :=
  ExceptT.mk (Except.mapError .call <$> x.run)

/-- Gives the writer of a copy-on-write page a copy of its own: the copy is made in a new page at
the scratch address, which then takes the place of the old one. -/
def handleCowFault (sys : Syscalls m) (space : AddressSpace m) (faultVa : Nat) (err : UInt32) :
    ExceptT PageFaultError m Unit := do
  if err &&& faultOnWrite = 0 then
    throw (.notWrite faultVa err)
  let va := pageOf faultVa
  let mapped ← space.pagePerm va
  unless mapped.any (·.contains Perm.copyOnWrite) do
    throw (.notCow faultVa)
  inHandler (sys.pageAlloc none Layout.scratchPage Perm.userWrite)
  space.copyPage va Layout.scratchPage
  inHandler (sys.pageMap none Layout.scratchPage none va Perm.userWrite)
  inHandler (sys.pageUnmap none Layout.scratchPage)

/-- The permission a page is shared with: copy-on-write if either side could write it. -/
def sharedPerm (mapped : Perm) : Perm :=
  if mapped.intersects (Perm.write ||| Perm.copyOnWrite) then
    Perm.userRead ||| Perm.copyOnWrite
  else
    Perm.userRead

/-- Maps a page into the child at the same address. A page that is copied when written is remapped
in the parent too, so that the parent's next write does not show in the child. -/
def sharePage (sys : Syscalls m) (child : EnvId) (va : Nat) (mapped : Perm) :
    ExceptT CallError m Unit := do
  let perm := sharedPerm mapped
  sys.pageMap none va (some child) va perm
  if perm.contains Perm.copyOnWrite then
    sys.pageMap none va none va perm

/-- The first address covered by the next page table. -/
def nextTable (va : Nat) : Nat := va - va % Layout.tableSpan + Layout.tableSpan

theorem lt_nextTable (va : Nat) : va < nextTable va := by
  have := Nat.mod_lt va (by decide : Layout.tableSpan > 0)
  unfold nextTable
  omega

/-- Shares every page from an address on, up to the end of the ordinary stack. Where no page table
covers an address, the walk goes on with the next table. -/
def shareFrom (sys : Syscalls m) (space : AddressSpace m) (child : EnvId) (va : Nat) :
    ExceptT CallError m Unit :=
  if _h : va < Layout.stackTop then do
    if ← space.tablePresent va then
      match ← space.pagePerm va with
      | some mapped => sharePage sys child va mapped
      | none => pure ()
      shareFrom sys space child (va + Layout.pageSize)
    else
      have := lt_nextTable va
      shareFrom sys space child (nextTable va)
  else
    pure ()
termination_by Layout.stackTop - va
decreasing_by
  · exact Nat.sub_lt_sub_left _h (Nat.lt_add_of_pos_right (by decide))
  · exact Nat.sub_lt_sub_left _h this

/-- Completes a child: the parent's pages, an exception stack of its own, which is never shared,
and the fault handler. Then the child may run. -/
def populate (sys : Syscalls m) (space : AddressSpace m) (child : EnvId) (entry : Nat) :
    ExceptT CallError m Unit := do
  shareFrom sys space child 0
  sys.pageAlloc (some child) Layout.exceptionStack Perm.userWrite
  sys.envSetUpcall (some child) entry
  sys.envSetStatus (some child) .runnable

/-- What is said when a child that could not be completed cannot be destroyed either. -/
def destroyFailed (child : EnvId) (e destroy : CallError) : Log.Record where
  level := .warn
  target := Log.Target.fork
  message := "fork: destroying child " ++ child.text ++ " after " ++ e.message ++ ": " ++
    destroy.message

/-- Gives the caller an exception stack, unless it has one, and the fault handler. -/
def prepare (sys : Syscalls m) (space : AddressSpace m) (entry : Nat) :
    ExceptT CallError m Unit := do
  if (← space.pagePerm Layout.exceptionStack).isNone then
    sys.pageAlloc none Layout.exceptionStack Perm.userWrite
  sys.envSetUpcall none entry

/-- Destroys a child that could not be completed. -/
def discard [MonadLog m] (sys : Syscalls m) (child : EnvId) (e : CallError) : m Unit := do
  match ← (sys.envDestroy (some child)).run with
  | .ok () => pure ()
  | .error destroy => say (destroyFailed child e destroy)

/-- Makes a copy of the caller that shares its pages until they are written. The parent gets the
child's identifier, the child gets `none`. A child that cannot be completed is destroyed again. -/
def fork [MonadLog m] (sys : Syscalls m) (space : AddressSpace m) (entry : Nat) :
    ExceptT CallError m (Option EnvId) := do
  prepare sys space entry
  match ← sys.exofork with
  | none => pure none
  | some child =>
    match ← ExceptT.lift (populate sys space child entry).run with
    | .ok () => pure (some child)
    | .error e =>
      ExceptT.lift (discard sys child e)
      throw e

end User

end Exokernel
