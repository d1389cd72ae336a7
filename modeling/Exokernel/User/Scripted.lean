import Exokernel.Assoc
import Exokernel.Console
import Exokernel.Device.Event
import Exokernel.User.Fork
/-!
# A scripted kernel

A stand-in for the kernel under which the user library can be watched. It keeps mappings and the
byte that fills each page and checks nothing but permissions; and it can be told beforehand what to
answer, in which case the call has no effect. Every call is recorded with its answer.
-/

namespace Exokernel

/-- A stand-in for the kernel. -/
structure ScriptedKernel where
  /-- The program. -/
  me : EnvId
  /-- The next child. -/
  child : EnvId
  cpuId : UInt32
  inbox : MessageWords := {}
  /-- Answers that were fixed beforehand, the first for each call to be given first. -/
  replies : List (Call × UInt32) := []
  /-- The mappings of all programs: pages go by their numbers. -/
  mappings : Assoc (EnvId × Nat) (Nat × Perm) := {}
  /-- The byte that fills each page. -/
  contents : Array UInt8 := #[]
  logger : Logger := {}
  /-- What was said to the log and shown, oldest first. -/
  log : List Log.Record := []
  /-- What happened, latest first. -/
  events : List Event := []

namespace ScriptedKernel

/-- A computation of the program. -/
abbrev Act (α : Type) := EStateM Fault ScriptedKernel α

instance : MonadLog Act where
  say r := modify fun k => if k.logger.shows r then { k with log := k.log ++ [r] } else k

/-- The program waits only for what an answer fixed beforehand keeps from it, and each of those is
given once. -/
instance : MonadAwait Act where
  await test := do awaitWithin test ((← get).replies.length + 1)

/-- Records an event. -/
def emit (e : Event) : Act Unit := modify fun k => { k with events := e :: k.events }

/-- A new page. -/
def newPage (b : UInt8) (k : ScriptedKernel) : Nat × ScriptedKernel :=
  (k.contents.size, { k with contents := k.contents.push b })

/-- Maps a page in a program. -/
def map (env : EnvId) (va page : Nat) (perm : Perm) (k : ScriptedKernel) : ScriptedKernel :=
  { k with mappings := k.mappings.insert (env, va) (page, perm) }

/-- Maps a new page in the program. -/
def mapFilled (va : Nat) (perm : Perm) (b : UInt8) (k : ScriptedKernel) : ScriptedKernel :=
  let (page, k) := k.newPage b
  k.map k.me va page perm

/-- The program a word names. -/
def named (k : ScriptedKernel) (raw : UInt32) : EnvId := (EnvId.ofRaw? raw).getD k.me

/-- The byte that fills a page. -/
def content (k : ScriptedKernel) (page : Nat) : UInt8 := k.contents.getD page 0

/-- Maps a new page; its number is used up also when the permission is refused. -/
def pageAlloc (a : Args) (k : ScriptedKernel) : Except CallError UInt32 × ScriptedKernel :=
  let (page, k) := k.newPage 0
  match Perm.ofUser? a.third with
  | none => (.error .invalidArgument, k)
  | some perm => (.ok 0, k.map (k.named a.first) a.second.toNat page perm)

/-- Maps a page that is mapped elsewhere. -/
def pageMap (a : Args) (k : ScriptedKernel) : Except CallError UInt32 × ScriptedKernel :=
  match k.mappings.get? (k.named a.first, a.second.toNat), Perm.ofUser? a.fifth with
  | some (page, _), some perm => (.ok 0, k.map (k.named a.third) a.fourth.toNat page perm)
  | _, _ => (.error .invalidArgument, k)

/-- Unmaps a page. -/
def pageUnmap (a : Args) (k : ScriptedKernel) : Except CallError UInt32 × ScriptedKernel :=
  (.ok 0, { k with mappings := k.mappings.erase (k.named a.first, a.second.toNat) })

/-- What a call does and answers, when the answer is not fixed. -/
def perform (c : Call) (a : Args) (k : ScriptedKernel) :
    Except CallError UInt32 × ScriptedKernel :=
  match c with
  | .getEnvId => (.ok k.me.raw, k)
  | .exofork => (.ok k.child.raw, k)
  | .getCpuId => (.ok k.cpuId, k)
  | .pageAlloc => k.pageAlloc a
  | .pageMap => k.pageMap a
  | .pageUnmap => k.pageUnmap a
  | .envDestroy | .envSetStatus | .envSetUpcall | .yieldCpu | .ipcTrySend | .ipcRecv => (.ok 0, k)

/-- Takes the first answer that is fixed for a call out of the script. -/
def takeReply (c : Call) : List (Call × UInt32) → Option (UInt32 × List (Call × UInt32))
  | [] => none
  | r :: rest =>
    if r.1 = c then some (r.2, rest)
    else (takeReply c rest).map fun (w, rest) => (w, r :: rest)

/-- Answers a call. -/
def answer (c : Call) (a : Args) (k : ScriptedKernel) : UInt32 × ScriptedKernel :=
  match takeReply c k.replies with
  | some (w, rest) => (w, { k with replies := rest })
  | none =>
    let (result, k) := k.perform c a
    (encodeResult result, k)

/-- The way into the kernel. -/
def syscalls : Syscalls Act where
  call c a := do
    let w ← modifyGet (answer c a)
    emit (.returned c a w)
    pure w
  inbox := do pure (← get).inbox

/-- A page is mapped in the span of the page table that covers an address. -/
def tablePresent (k : ScriptedKernel) (va : Nat) : Bool :=
  k.mappings.entries.any fun e =>
    e.1.1 = k.me && e.1.2 / Layout.tableSpan == va / Layout.tableSpan

/-- Copies a page over another one, where both are mapped. -/
def copyPage (src dst : Nat) (k : ScriptedKernel) : ScriptedKernel :=
  match k.mappings.get? (k.me, src), k.mappings.get? (k.me, dst) with
  | some (from', _), some (to', _) =>
    { k with contents := k.contents.setIfInBounds to' (k.content from') }
  | _, _ => k

/-- The program's view of its mappings. -/
def space : AddressSpace Act where
  tablePresent va := do pure ((← get).tablePresent va)
  pagePerm va := do
    let k ← get
    pure ((k.mappings.get? (k.me, va)).map (·.2))
  copyPage src dst := do
    modify (copyPage src dst)
    emit (.copied src dst)

/-- The mappings of all programs, by program and address, each with the page's number, the
permission and the byte that fills the page. -/
def mappingTable (k : ScriptedKernel) : List (EnvId × Nat × Nat × Perm × UInt8) :=
  (k.mappings.entries.map fun e =>
    (e.1.1, e.1.2, e.2.1, e.2.2, k.content e.2.1)).mergeSort fun a b =>
      a.1.raw < b.1.raw || a.1.raw == b.1.raw && a.2.1 ≤ b.2.1

/-- The kernel with nothing recorded yet. -/
def rested (k : ScriptedKernel) : ScriptedKernel := { k with log := [], events := [] }

end ScriptedKernel

end Exokernel
