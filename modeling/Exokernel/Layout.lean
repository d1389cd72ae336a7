/-!
# Layout of the machine

The sizes of the kernel's tables, the fixed places of an address space and the interrupt vectors.
Everything else in the library is written against the names given here.
-/

namespace Exokernel

/-- The most CPUs the kernel runs on. -/
abbrev cpuLimit : Nat := 8

/-- The low bits of an identifier that name a slot of the environment table. -/
abbrev slotBits : Nat := 9

/-- The number of slots of the environment table. -/
abbrev slotCount : Nat := 512

/-- The number of slots each CPU owns when every CPU schedules for itself. -/
abbrev sliceSize : Nat := 64

/-- A slot of the environment table. -/
abbrev Slot := Fin slotCount

/-- The place of a CPU among those the kernel can hold. -/
abbrev CpuIndex := Fin cpuLimit

/-- There is a CPU. -/
theorem cpuLimit_pos : 0 < cpuLimit := by decide

/-- Every slot lies in the slice of a CPU. -/
theorem slice_lt (s : Slot) : s.val / sliceSize < cpuLimit :=
  Nat.div_lt_of_lt_mul s.isLt

namespace Layout

/-- Bytes of a page. -/
abbrev pageSize : Nat := 4096

/-- Bytes one page table maps. -/
abbrev tableSpan : Nat := 1024 * pageSize

/-- The end of the addresses a user environment may map. -/
abbrev userTop : Nat := 0xeec00000

/-- The address that stands for "no page" in a message; any address past the user's means the
same. -/
abbrev noPage : Nat := userTop

/-- The top of the stack page faults are handled on. -/
abbrev exceptionStackTop : Nat := userTop

/-- The page of the stack page faults are handled on. -/
abbrev exceptionStack : Nat := exceptionStackTop - pageSize

/-- The top of the ordinary user stack. -/
abbrev stackTop : Nat := userTop - 2 * pageSize

/-- The page a fault handler copies through. -/
abbrev scratchPage : Nat := userTop - 0x400000 - pageSize

/-- The physical page application processors start executing in. -/
abbrev entryPage : Nat := 0x7000

/-- Bytes of a CPU's kernel stack. -/
abbrev kernelStackSize : Nat := 8 * pageSize

/-- The address at which the kernel sees all of physical memory. -/
abbrev kernelBase : Nat := 0xf0000000

/-- The read-only view of the page tables. -/
abbrev tableView : Nat := 0xef400000

/-- The read-only view of the page directory, inside the view of the page tables. -/
abbrev directoryView : Nat := tableView + tableView / pageSize * 4

end Layout

namespace Interrupt

/-- The vector of the first hardware interrupt. -/
abbrev base : UInt32 := 32

/-- The line of the local timer. -/
abbrev timer : UInt32 := 0

/-- The line spurious interrupts are reported on. -/
abbrev spurious : UInt32 := 7

/-- The line errors of a local controller are reported on. -/
abbrev error : UInt32 := 19

/-- The count the local timer starts from. -/
abbrev timerCount : UInt32 := 10000000

end Interrupt

end Exokernel
