import Exokernel.Proofs.Startup
/-!
# Setting the machine up

Before any processor is started the machine finds its topology, maps its interrupt controllers and
programs them. Nobody is on its way then, so an access to a device is an event and no more
(`Attends`). The one wait in between is for a command to go out, and it costs no more patience than
the busy registers of the device do (`attends_init`).
-/

namespace Exokernel

namespace Device

variable {d : Device} {offset : Nat} {value : UInt32}

/-- What a register answers when it is not busy. -/
def held (d : Device) (offset : Nat) : UInt32 :=
  match d with
  | .file values _ => valueAt values offset
  | d => d.answer offset

theorem answer_of_not_busy (h : d.isBusy offset = false) : d.answer offset = d.held offset := by
  cases d with
  | file values busy =>
    cases busy with
    | none => rfl
    | some b =>
      have hno : ¬ (b.offset = offset ∧ b.count ≠ 0) := by simpa [isBusy] using h
      exact if_neg hno
  | window selected values => rfl
  | words values => rfl

theorem held_afterRead {other : Nat} : (d.afterRead other).held offset = d.held offset := by
  cases d with
  | file values busy =>
    cases busy with
    | none => rfl
    | some b =>
      change (if b.offset = other then _ else _ : Device).held offset = _
      split <;> rfl
  | window selected values => rfl
  | words values => rfl

/-- No command is pending in a command register that is not busy. -/
def Clear (d : Device) : Prop := d.held LocalApic.commandLow &&& LocalApic.pending = 0

/-- **A command that is not pending** leaves the register clear. -/
theorem clear_afterWrite (h : value &&& LocalApic.pending = 0) :
    (d.afterWrite LocalApic.commandLow value).Clear := by
  unfold Clear
  cases d with
  | file values busy => simpa [afterWrite, held, valueAt] using h
  | window selected values =>
    have hzero : ((window selected values).afterWrite LocalApic.commandLow value).held
        LocalApic.commandLow = 0 := rfl
    rw [hzero]
    rfl
  | words values =>
    have hlt : LocalApic.commandLow / wordSize < 256 := by decide
    have hset : ((words values).afterWrite LocalApic.commandLow value).held
        LocalApic.commandLow = value := by
      rw [afterWrite, dif_pos hlt]
      change (if h : LocalApic.commandLow / wordSize < 256 then
        (values.set _ value hlt)[LocalApic.commandLow / wordSize] else 0) = value
      rw [dif_pos hlt]
      exact Vector.getElem_set_self hlt
    rw [hset, h]

/-- The commands of the device go somewhere or not. -/
def OfKind (commands : Bool) (d : Device) : Prop := d.destination.isSome = commands

theorem OfKind.afterRead {commands : Bool} (h : OfKind commands d) :
    OfKind commands (d.afterRead offset) := by
  rw [OfKind, destination_afterRead]
  exact h

theorem OfKind.afterWrite {commands : Bool} (h : OfKind commands d) :
    OfKind commands (d.afterWrite offset value) := by
  rw [OfKind, destination_afterWrite]
  split
  · rw [Option.isSome_map]
    exact h
  · exact h

end Device

/-- The patience that the registers at an address can cost. -/
def Board.stallAt (b : Board) (paddr : UInt32) : Nat := (b.deviceAt? paddr).elim 0 Device.stall

/-- The commands of the registers at an address go somewhere. -/
def Board.commandsAt (b : Board) (paddr : UInt32) : Bool :=
  (b.deviceAt? paddr).any fun d => d.destination.isSome

/-- The topology a machine on the board is booted with: without a local interrupt controller no other
processor can be started. -/
def Board.usable (b : Board) : Topology :=
  if b.findTopology.1.isMp ∧ (b.deviceAt? b.findTopology.1.lapicAddr).isNone then
    Topology.uniprocessor
  else
    b.findTopology.1

namespace Machine

variable {M α β : Type}

/-! ## Devices in use -/

/-- **Device `n` is attended to**: while nobody is on its way, the computation goes through on every
machine whose device `n` satisfies `D`, leaves one that satisfies `D'`, costs no more patience than the
device does, and changes nothing but that. -/
structure Attends (n : Nat) (D : Device → Prop) (x : Act M α) (D' : Device → Prop) : Prop where
  completes : ∀ {s t : Machine M} {i : CpuIndex} {paddr k : Nat} {l : List Event},
    Underway s i n paddr l D none k t →
      Completes x t fun _ t' => ∃ l', Underway s i n paddr l' D' none k t'

namespace Attends

variable {n offset : Nat} {value : UInt32} {D D' : Device → Prop} {x : Act M α}

theorem pure (a : α) : Attends n D (pure a : Act M α) D := ⟨fun h => .pure ⟨_, h⟩⟩

theorem bind {E : Device → Prop} {f : α → Act M β} (hx : Attends n D x E)
    (hf : ∀ a, Attends n E (f a) D') : Attends n D (x >>= f) D' :=
  ⟨fun h => .bind ((hx.completes h).imp fun a _ ⟨_, h'⟩ => (hf a).completes h')⟩

theorem ite {p : Prop} [Decidable p] {y : Act M α} (hx : Attends n D x D')
    (hy : Attends n D y D') : Attends n D (if p then x else y) D' := by
  split
  · exact hx
  · exact hy

theorem forM {f : β → Act M PUnit} (hf : ∀ b, Attends n D (f b) D) (l : List β) :
    Attends n D (l.forM f) D := by
  induction l with
  | nil => exact pure _
  | cons b l ih => exact bind (hf b) fun _ => ih

theorem say (r : Log.Record) : Attends n D (Exokernel.say r : Act M PUnit) D :=
  ⟨fun h => h.say fun _ h' => ⟨_, h'⟩⟩

theorem read (ho : offset % Device.wordSize = 0) (hD : ∀ d, D d → D' (d.afterRead offset)) :
    Attends n D ((registers n).read offset : Act M UInt32) D' :=
  ⟨fun h => h.read rfl ho fun d _ hd h' =>
    ⟨_, h'.imp (by rintro _ rfl; exact hD d hd) (Nat.le_refl _)⟩⟩

/-- A register is written, and that starts nobody. -/
theorem write (ho : offset % Device.wordSize = 0)
    (hstart : ¬ (offset = LocalApic.commandLow ∧
      value &&& LocalApic.commandBits = LocalApic.startup))
    (hD : ∀ d, D d → D' (d.afterWrite offset value)) :
    Attends n D ((registers n).write offset value : Act M PUnit) D' := by
  have hnone (d : Device) : startsProcessor (d.afterWrite offset value) offset value = none := by
    rw [startsProcessor_eq, if_neg hstart]
  refine ⟨fun h => h.write rfl ho (fun d dest _ hdest => ?_) fun d t' hd h' => ?_⟩
  · rw [hnone] at hdest
    cases hdest
  · rw [hnone] at h'
    exact ⟨_, h'.imp (by rintro _ rfl; exact hD d hd) (Nat.le_refl _)⟩

/-- A register of a local controller is written, and the write waited for. -/
theorem command {commands : Bool} (ho : offset % Device.wordSize = 0)
    (hstart : ¬ (offset = LocalApic.commandLow ∧
      value &&& LocalApic.commandBits = LocalApic.startup)) :
    Attends n (Device.OfKind commands) (LocalApic.write (registers n) offset value : Act M PUnit)
      (Device.OfKind commands) :=
  bind (write ho hstart fun _ hd => hd.afterWrite) fun _ =>
    bind (read (by decide) fun _ hd => hd.afterRead) fun _ => pure _

end Attends

/-- **The wait for a command to go out** ends when the register is not busy any more. -/
theorem completes_awaitClear {commands : Bool} {s t : Machine M} {i : CpuIndex}
    {n paddr k fuel : Nat} {l : List Event}
    (h : Underway s i n paddr l (fun d => d.OfKind commands ∧ d.Clear ∧ d.stall < fuel) none k t) :
    Completes (awaitWithin (do
      pure ((← (registers n).read LocalApic.commandLow) &&& LocalApic.pending == 0)) fuel) t
      fun _ t' => ∃ l', Underway s i n paddr l' (Device.OfKind commands) none k t' := by
  induction fuel generalizing l t with
  | zero =>
    obtain ⟨d, -, ⟨-, -, hlt⟩, -⟩ := h.serves.device
    exact absurd hlt (Nat.not_lt_zero _)
  | succ fuel ih =>
    refine .bind (.bind (h.read rfl (by decide) fun d t' hd h' => .pure ?_))
    obtain ⟨hkind, hclear, hlt⟩ := hd
    have hstall := d.stall_afterRead LocalApic.commandLow
    by_cases hout : d.answer LocalApic.commandLow &&& LocalApic.pending = 0
    · rw [if_pos (beq_iff_eq.2 hout)]
      exact .pure ⟨l, h'.imp (by rintro _ rfl; exact hkind.afterRead) (Nat.le_refl k)⟩
    · have hbusy : d.isBusy LocalApic.commandLow = true := by
        refine Decidable.by_contra fun hno => hout ?_
        rw [Device.answer_of_not_busy (Bool.eq_false_iff.2 hno)]
        exact hclear
      rw [if_neg fun h => hout (beq_iff_eq.1 h)]
      rw [if_pos hbusy] at hstall
      refine ih (h'.imp ?_ (Nat.le_refl k))
      rintro _ rfl
      exact ⟨hkind.afterRead, by rw [Device.Clear, Device.held_afterRead]; exact hclear, by omega⟩

/-- **Setting a local controller up** attends to it. -/
theorem attends_init (n : Nat) (commands : Bool) :
    Attends n (Device.OfKind commands) (LocalApic.init (registers n) true : Act M PUnit)
      (Device.OfKind commands) := by
  have hwait : Attends n (fun d => d.OfKind commands ∧ d.Clear) (await do
      pure ((← (registers n).read LocalApic.commandLow) &&& LocalApic.pending == 0) : Act M PUnit)
      (Device.OfKind commands) := by
    refine ⟨@fun s t i paddr k l h => .bind (.get (completes_awaitClear (l := l) ?_))⟩
    obtain ⟨d, hd, hkind, hpat⟩ := h.serves.device
    exact ⟨h.beside, h.args, h.coming, h.serves.written,
      ⟨d, hd, ⟨hkind.1, hkind.2, by omega⟩, hpat⟩, h.serves.others⟩
  -- the part that is the same for every version of the controller
  have hrest : Attends n (Device.OfKind commands) (do
      LocalApic.write (registers n) LocalApic.errorVector (Interrupt.base + Interrupt.error)
      LocalApic.write (registers n) LocalApic.errorStatus 0
      LocalApic.write (registers n) LocalApic.errorStatus 0
      LocalApic.acknowledge (registers n)
      LocalApic.write (registers n) LocalApic.commandHigh 0
      LocalApic.write (registers n) LocalApic.commandLow
        (LocalApic.broadcast ||| LocalApic.reset ||| LocalApic.level)
      await do
        pure ((← (registers n).read LocalApic.commandLow) &&& LocalApic.pending == 0)
      LocalApic.write (registers n) LocalApic.taskPriority 0 : Act M PUnit)
      (Device.OfKind commands) := by
    refine .bind (.command (by decide) (by decide)) fun _ => ?_
    refine .bind (.command (by decide) (by decide)) fun _ => ?_
    refine .bind (.command (by decide) (by decide)) fun _ => ?_
    refine .bind (.command (by decide) (by decide)) fun _ => ?_
    refine .bind (.command (by decide) (by decide)) fun _ => ?_
    refine .bind (E := fun d => d.OfKind commands ∧ d.Clear) ?_ fun _ => ?_
    · refine .bind (E := fun d => d.OfKind commands ∧ d.Clear) (.write (by decide) (by decide)
        fun _ hd => ⟨hd.afterWrite, Device.clear_afterWrite (by decide)⟩) fun _ => ?_
      refine .bind (.read (by decide) fun _ hd => ⟨hd.1.afterRead, ?_⟩) fun _ => .pure _
      rw [Device.Clear, Device.held_afterRead]
      exact hd.2
    · exact .bind hwait fun _ => .command (by decide) (by decide)
  unfold LocalApic.init
  dsimp only
  refine .bind (.command (by decide) (by decide)) fun _ => ?_
  refine .bind (.command (by decide) (by decide)) fun _ => ?_
  refine .bind (.command (by decide) (by decide)) fun _ => ?_
  refine .bind (.command (by decide) (by decide)) fun _ => ?_
  rw [if_pos rfl]
  refine .bind (.command (by decide) (by decide)) fun _ => ?_
  refine .bind (.read (by decide) fun _ hd => hd.afterRead) fun _ => ?_
  exact .ite (.bind (.command (by decide) (by decide)) fun _ => hrest) hrest

/-- **Setting the controller of the lines up** attends to it. -/
theorem attends_ioApic_init (n : Nat) (commands : Bool) (id : UInt8) :
    Attends n (Device.OfKind commands) (IoApic.init (registers n) id : Act M PUnit)
      (Device.OfKind commands) := by
  have hwrite (reg value : UInt32) : Attends n (Device.OfKind commands)
      (IoApic.write (registers n) reg value : Act M PUnit) (Device.OfKind commands) :=
    .bind (.write (by decide) (by simp [IoApic.select, LocalApic.commandLow])
        fun _ hd => hd.afterWrite) fun _ =>
      .write (by decide) (by simp [IoApic.window, LocalApic.commandLow]) fun _ hd => hd.afterWrite
  have hread (reg : UInt32) : Attends n (Device.OfKind commands)
      (IoApic.read (registers n) reg : Act M UInt32) (Device.OfKind commands) :=
    .bind (.write (by decide) (by simp [IoApic.select, LocalApic.commandLow])
        fun _ hd => hd.afterWrite) fun _ =>
      .read (by decide) fun _ hd => hd.afterRead
  unfold IoApic.init IoApic.maxLine
  dsimp only
  refine .bind (.bind (hread _) fun _ => .pure _) fun last => .bind (hread _) fun found => ?_
  have hlines : Attends n (Device.OfKind commands) ((List.range (last.toNat + 1)).forM fun n' =>
      IoApic.writeLine (registers n) (UInt32.ofNat n')
        (IoApic.disabled ||| (Interrupt.base + UInt32.ofNat n')) 0 : Act M PUnit)
      (Device.OfKind commands) :=
    .forM (fun _ => .bind (hwrite _ _) fun _ => hwrite _ _) _
  exact .ite (.bind (.say _) fun _ => hlines) hlines

/-! ## What leaves the processors alone -/

/-- Only what is shown of what is said is another. -/
def Murmurs (m m' : Machine M) : Prop :=
  ∃ logger log, m' = { m with bench := { m.bench with logger := logger, log := log } }

/-- No processor, and nothing the kernel has, is another. -/
structure Idles (m m' : Machine M) : Prop where
  beside : Beside m m'
  cpus : m'.cpus = m.cpus
  args : m'.args = m.args
  starting : m'.starting = m.starting

section Steps

variable {m m' m'' : Machine M}

theorem Murmurs.refl (m : Machine M) : Murmurs m m := ⟨m.bench.logger, m.bench.log, rfl⟩

theorem Murmurs.trans (h : Murmurs m m') (h' : Murmurs m' m'') : Murmurs m m'' := by
  obtain ⟨_, _, rfl⟩ := h
  obtain ⟨logger, log, rfl⟩ := h'
  exact ⟨logger, log, rfl⟩

theorem Idles.refl (m : Machine M) : Idles m m := ⟨.refl m, rfl, rfl, rfl⟩

theorem Idles.trans (h : Idles m m') (h' : Idles m' m'') : Idles m m'' :=
  ⟨h.beside.trans h'.beside, h'.cpus.trans h.cpus, h'.args.trans h.args,
    h'.starting.trans h.starting⟩

theorem Murmurs.idles (h : Murmurs m m') : Idles m m' := by
  obtain ⟨logger, log, rfl⟩ := h
  exact ⟨⟨rfl, rfl, rfl, rfl, rfl, rfl⟩, rfl, rfl, rfl⟩

theorem Murmurs.patience (h : Murmurs m m') : m'.bench.patience = m.bench.patience := by
  obtain ⟨logger, log, rfl⟩ := h
  rfl

theorem idles_bench (m : Machine M) (b : Bench) : Idles m { m with bench := b } :=
  ⟨⟨rfl, rfl, rfl, rfl, rfl, rfl⟩, rfl, rfl, rfl⟩

theorem completes_say (r : Log.Record) (m : Machine M) :
    Completes (say r) m fun _ m' => Murmurs m m' := by
  let log := if m.bench.logger.shows r then m.bench.log ++ [r] else m.bench.log
  refine ⟨⟨⟩, { m with bench := { m.bench with log := log } }, ?_, m.bench.logger, log, rfl⟩
  have hsaid : (if m.bench.logger.shows r then { m.bench with log := m.bench.log ++ [r] }
      else m.bench : Bench) = { m.bench with log := log } := by
    by_cases hr : m.bench.logger.shows r
    · rw [if_pos hr, show log = m.bench.log ++ [r] from if_pos hr]
    · rw [if_neg hr, show log = m.bench.log from if_neg hr]
  exact congrArg (fun b => EStateM.Result.ok PUnit.unit { m with bench := b }) hsaid

theorem completes_sayEach (records : List Log.Record) (m : Machine M) :
    Completes (records.forM say) m fun _ m' => Murmurs m m' := by
  induction records generalizing m with
  | nil => exact .pure (.refl m)
  | cons r records ih =>
    exact .bind ((completes_say r m).imp fun _ m₁ h₁ => (ih m₁).imp fun _ _ h => h₁.trans h)

theorem completes_installLogger (m : Machine M) :
    Completes installLogger m fun _ m' => Murmurs m m' := by
  refine .bind (.get ?_)
  cases m.bench.logger.install? (some .info) with
  | some l => exact .modify ⟨l, m.bench.log, rfl⟩
  | none => exact completes_say _ m

/-- **The registers at an address** are put into place, and that is noted. -/
theorem completes_mapRegisters {paddr : UInt32} {d : Device}
    (hd : m.board.deviceAt? paddr = some d) :
    Completes (mapRegisters paddr) m fun r m' => r = some (registers m.bench.devices.size) ∧
      Idles m m' ∧ m'.bench.patience = m.bench.patience ∧
      m'.bench.devices = m.bench.devices.push ⟨paddr.toNat, d⟩ := by
  refine .bind (.get ?_)
  simp only [hd]
  exact ⟨_, _, rfl, rfl, idles_bench m _, rfl, rfl⟩

/-- **Where there are no registers** just that is noted. -/
theorem completes_mapRegisters_none {paddr : UInt32} (hd : m.board.deviceAt? paddr = none) :
    Completes (mapRegisters paddr) m fun r m' => r = none ∧
      m' = { m with bench := { m.bench with events := .mapped paddr false :: m.bench.events } } := by
  refine .bind (.get ?_)
  simp only [hd]
  exact ⟨_, _, rfl, rfl, rfl⟩

/-- The topology is found and what the search said is said; the rest follows on that. -/
theorem completes_usableTopology_of {Q : Topology × Option (Registers (Act M)) → Machine M → Prop}
    (h : ∀ m₁, Murmurs m m₁ → Completes (if m.board.findTopology.1.isMp then do
        match ← mapRegisters m.board.findTopology.1.lapicAddr with
        | some lapic => pure (m.board.findTopology.1, some lapic)
        | none =>
          say (noLocalApic m.board.findTopology.1.lapicAddr)
          pure (Topology.uniprocessor, none)
      else pure (m.board.findTopology.1, none) : Act M _) m₁ Q) :
    Completes usableTopology m Q :=
  .bind (.get (.bind ((completes_sayEach _ m).imp fun _ m₁ hm₁ => h m₁ hm₁)))

/-- A machine with one processor needs no controller. -/
theorem completes_usableTopology_single (hmp : m.board.findTopology.1.isMp = false) :
    Completes usableTopology m fun r m' =>
      r = (m.board.findTopology.1, none) ∧ Murmurs m m' := by
  refine completes_usableTopology_of fun m₁ hm₁ => ?_
  rw [if_neg (by rw [hmp]; decide)]
  exact .pure ⟨rfl, hm₁⟩

/-- **A machine with several processors** has the local controller put into place. -/
theorem completes_usableTopology {d : Device} (hmp : m.board.findTopology.1.isMp = true)
    (hd : m.board.deviceAt? m.board.findTopology.1.lapicAddr = some d) :
    Completes usableTopology m fun r m' =>
      r = (m.board.findTopology.1, some (registers m.bench.devices.size)) ∧
      Idles m m' ∧ m'.bench.patience = m.bench.patience ∧ m'.bench.devices =
        m.bench.devices.push ⟨m.board.findTopology.1.lapicAddr.toNat, d⟩ := by
  refine completes_usableTopology_of fun m₁ hm₁ => ?_
  obtain ⟨logger, log, rfl⟩ := hm₁
  rw [if_pos hmp]
  refine .bind ((completes_mapRegisters (by exact hd)).imp fun r m' hr => ?_)
  obtain ⟨rfl, hidles, hpatience, hdevices⟩ := hr
  exact .pure ⟨rfl, (idles_bench m _).trans hidles, hpatience, hdevices⟩

/-- **Without a local controller** the machine is taken for one with a single processor. -/
theorem completes_usableTopology_none (hmp : m.board.findTopology.1.isMp = true)
    (hd : m.board.deviceAt? m.board.findTopology.1.lapicAddr = none) :
    Completes usableTopology m fun r m' => r = (Topology.uniprocessor, none) ∧
      Murmurs { m with bench := { m.bench with
        events := .mapped m.board.findTopology.1.lapicAddr false :: m.bench.events } } m' := by
  refine completes_usableTopology_of fun m₁ hm₁ => ?_
  obtain ⟨logger, log, rfl⟩ := hm₁
  rw [if_pos hmp]
  refine .bind ((completes_mapRegisters_none (by exact hd)).imp fun r m' hr => ?_)
  obtain ⟨rfl, rfl⟩ := hr
  refine .bind ((completes_say _ _).imp fun _ m₂ hm₂ => .pure ⟨rfl, ?_⟩)
  obtain ⟨logger', log', rfl⟩ := hm₂
  exact ⟨logger', log', rfl⟩

theorem completes_onBench {y : Bench.Act α} {v : α} {b : Bench} {Q : α → Machine M → Prop}
    (hy : y m.bench = .ok v b) (hQ : Q v { m with bench := b }) : Completes (onBench y) m Q := by
  refine ⟨v, { m with bench := b }, ?_, hQ⟩
  unfold onBench focus
  rw [hy]

/-- Nobody comes up while nobody is on its way. -/
theorem completes_settle {Q : PUnit → Machine M → Prop} (hstarting : m.starting = [])
    (hQ : Q ⟨⟩ m) : Completes settle m Q :=
  .of_ends ((ends_settle_nil hstarting).imp fun _ _ hr => ⟨⟨⟩, hr.1, hr.2 ▸ hQ⟩)

/-- An event is no more than that while nobody is on its way. -/
theorem completes_afterEvent {Q : PUnit → Machine M → Prop} (hstarting : m.starting = [])
    (hQ : Q ⟨⟩ m) : Completes afterEvent m Q := by
  have hsame : ({ m with starting := m.starting.map fun s => ⟨s.cpu, s.events + 1, s.hints⟩ } :
      Machine M) = m := by rw [hstarting, List.map_nil, ← hstarting]
  refine .bind (.modify ?_)
  rw [hsame]
  exact completes_settle hstarting hQ

/-- **Disconnecting the old controller** touches ports only. -/
theorem completes_switchToSymmetric (hstarting : m.starting = []) :
    Completes (switchToSymmetric platform) m fun _ m' => Idles m m' ∧
      m'.bench.devices = m.bench.devices ∧ m'.bench.patience = m.bench.patience := by
  refine .bind ((completes_say _ m).imp fun _ m₁ hm₁ => ?_)
  obtain ⟨logger, log, rfl⟩ := hm₁
  have houtb (b : Bench) (port : UInt16) (value : UInt8) :
      Completes (platform.outb port value : Act M PUnit) { m with bench := b } fun _ m' =>
        ∃ b' : Bench, m' = { m with bench := b' } ∧ b'.devices = b.devices ∧
          b'.patience = b.patience :=
    .bind (completes_onBench rfl (completes_afterEvent hstarting ⟨_, rfl, rfl, rfl⟩))
  refine .bind ((houtb _ _ _).imp fun _ m₂ hm₂ => ?_)
  obtain ⟨b, rfl, hdevices, hpatience⟩ := hm₂
  refine .bind (.bind (completes_onBench rfl (.bind (completes_afterEvent hstarting (.pure ?_)))))
  refine (houtb _ _ _).imp fun _ m₃ hm₃ => ?_
  obtain ⟨b', rfl, hdevices', hpatience'⟩ := hm₃
  exact ⟨idles_bench m b', hdevices'.trans hdevices, hpatience'.trans hpatience⟩

/-- **A device that is attended to** is the only one that is touched. -/
theorem Attends.idles {x : Act M α} {D D' : Device → Prop} {n paddr : Nat} {d : Device}
    (hx : Attends n D x D') (hstarting : m.starting = [])
    (hdevice : m.bench.devices[n]? = some ⟨paddr, d⟩) (hD : D d)
    (hpatience : d.stall ≤ m.bench.patience) :
    Completes x m fun _ m' => Idles m m' ∧
      (∃ d', m'.bench.devices[n]? = some ⟨paddr, d'⟩ ∧ D' d' ∧
        d'.stall + (m.bench.patience - d.stall) ≤ m'.bench.patience) ∧
      ∀ j, j ≠ n → m'.bench.devices[j]? = m.bench.devices[j]? := by
  have h : Underway m ⟨0, cpuLimit_pos⟩ n paddr [] D none (m.bench.patience - d.stall) m :=
    ⟨.refl m, rfl, .idle hstarting rfl, (List.append_nil _).symm,
      ⟨d, hdevice, hD, by omega⟩, fun _ _ => rfl⟩
  refine (hx.completes h).imp fun _ m' ⟨l, h'⟩ => ?_
  cases h'.coming with
  | idle hs hcpus =>
    exact ⟨⟨h'.beside, hcpus, h'.args, hs.trans hstarting.symm⟩, h'.serves.device,
      h'.serves.others⟩

/-- **The controller of the lines is set up**, if there is one. No other device is touched, and it
costs no more patience than the device does. -/
theorem completes_initLines {t : Topology} (hstarting : m.starting = [])
    (hpatience : m.board.stallAt t.ioApicAddr ≤ m.bench.patience) :
    Completes (initLines t) m fun _ m' => Idles m m' ∧
      (∀ j, j < m.bench.devices.size → m'.bench.devices[j]? = m.bench.devices[j]?) ∧
      m.bench.patience ≤
        m'.bench.patience + m.board.stallAt t.ioApicAddr := by
  have htail {m₁ : Machine M} (hstarting : m₁.starting = []) :
      Completes (if t.imcr then switchToSymmetric platform else pure ()) m₁ fun _ m' =>
        Idles m₁ m' ∧ m'.bench.devices = m₁.bench.devices ∧
          m'.bench.patience = m₁.bench.patience := by
    split
    · exact completes_switchToSymmetric hstarting
    · exact .pure ⟨.refl m₁, rfl, rfl⟩
  unfold initLines
  by_cases hmp : t.isMp = true
  · simp only [if_pos hmp]
    cases hd : m.board.deviceAt? t.ioApicAddr with
    | none =>
      refine .bind ((completes_mapRegisters_none hd).imp fun r m₁ hr => ?_)
      obtain ⟨rfl, rfl⟩ := hr
      refine (htail (by exact hstarting)).imp fun _ m' hm' => ?_
      obtain ⟨hidles, hdevices, hleft⟩ := hm'
      exact ⟨(idles_bench m _).trans hidles, fun j _ => by rw [hdevices],
        Nat.le_add_right_of_le (Nat.le_of_eq hleft.symm)⟩
    | some d =>
      have hstall : m.board.stallAt t.ioApicAddr = d.stall := by
        rw [Board.stallAt, hd]
        rfl
      rw [hstall] at hpatience ⊢
      refine .bind ((completes_mapRegisters hd).imp fun r m₁ hr => ?_)
      obtain ⟨rfl, hidles₁, hpatience₁, hdevices₁⟩ := hr
      have hdevice : m₁.bench.devices[m.bench.devices.size]? = some ⟨t.ioApicAddr.toNat, d⟩ := by
        rw [hdevices₁, Array.getElem?_push_size]
      have hattends := attends_ioApic_init (M := M) m.bench.devices.size d.destination.isSome
        t.ioApicId
      refine .bind ((hattends.idles (hidles₁.starting.trans hstarting) hdevice rfl
        (hpatience₁ ▸ hpatience)).imp fun _ m₂ hm₂ => ?_)
      obtain ⟨hidles₂, ⟨d', -, -, hleft₂⟩, hothers⟩ := hm₂
      have hidles := hidles₁.trans hidles₂
      refine (htail (hidles.starting.trans hstarting)).imp fun _ m' hm' => ?_
      obtain ⟨hidles', hdevices, hleft⟩ := hm'
      refine ⟨hidles.trans hidles', fun j hj => ?_, ?_⟩
      · rw [hdevices, hothers j (Nat.ne_of_lt hj), hdevices₁, Array.getElem?_push_lt hj,
          Array.getElem?_eq_getElem hj]
      · omega
  · simp only [if_neg hmp]
    refine (htail hstarting).imp fun _ m' hm' => ?_
    obtain ⟨hidles, hdevices, hleft⟩ := hm'
    exact ⟨hidles, fun j _ => by rw [hdevices], by omega⟩

end Steps

/-! ## The local controller -/

/-- **The local controller is at hand**, if there is one: commands written to it go somewhere or not,
and there is patience for it and `k` turns of waiting loops. -/
inductive Wired (commands : Bool) (k : Nat) (b : Bench) : Option (Registers (Act M)) → Prop
  | without : k ≤ b.patience → Wired commands k b none
  | within {n paddr : Nat} {d : Device} : b.devices[n]? = some ⟨paddr, d⟩ → d.OfKind commands →
      d.stall + k ≤ b.patience → Wired commands k b (some (registers n))

section Controllers

variable {m : Machine M} {commands : Bool} {k : Nat} {lapic : Option (Registers (Act M))}
  {t : Topology}

theorem Wired.of_eq {b b' : Bench} (h : Wired commands k b lapic) (hdevices : b'.devices = b.devices)
    (hpatience : b'.patience = b.patience) : Wired commands k b' lapic := by
  cases h with
  | without hk => exact .without (hpatience ▸ hk)
  | within hdevice hkind hk => exact .within (hdevices ▸ hdevice) hkind (hpatience ▸ hk)

/-- **The topology to boot with** is found, and the local controller is put into place. -/
theorem completes_usable
    (hpatience : m.board.stallAt m.board.usable.lapicAddr + k ≤ m.bench.patience) :
    Completes usableTopology m fun r m' => ∃ lapic, r = (m.board.usable, lapic) ∧ Idles m m' ∧
      Wired (m.board.commandsAt m.board.usable.lapicAddr) k m'.bench lapic ∧
      (m.board.usable.isMp = true → lapic.isSome) := by
  cases hmp : m.board.findTopology.1.isMp with
  | false =>
    have husable : m.board.usable = m.board.findTopology.1 := if_neg (by rw [hmp]; exact nofun)
    refine (completes_usableTopology_single hmp).imp fun r m' hr => ?_
    obtain ⟨rfl, logger, log, rfl⟩ := hr
    exact ⟨none, husable ▸ rfl, idles_bench m _, .without (by change k ≤ m.bench.patience; omega),
      fun h => absurd (husable ▸ h) (by rw [hmp]; exact nofun)⟩
  | true =>
    cases hd : m.board.deviceAt? m.board.findTopology.1.lapicAddr with
    | none =>
      have husable : m.board.usable = Topology.uniprocessor := if_pos ⟨hmp, by rw [hd]; rfl⟩
      refine (completes_usableTopology_none hmp hd).imp fun r m' hr => ?_
      obtain ⟨rfl, logger, log, rfl⟩ := hr
      exact ⟨none, husable ▸ rfl, idles_bench m _, .without (by change k ≤ m.bench.patience; omega),
        fun h => absurd (husable ▸ h) nofun⟩
    | some d =>
      have husable : m.board.usable = m.board.findTopology.1 :=
        if_neg (by rw [hd]; exact nofun)
      rw [husable, Board.stallAt, hd] at hpatience
      rw [husable, Board.commandsAt, hd]
      refine (completes_usableTopology hmp hd).imp fun r m' hr => ?_
      obtain ⟨rfl, hidles, hleft, hdevices⟩ := hr
      have hdevice : m'.bench.devices[m.bench.devices.size]? =
          some ⟨m.board.findTopology.1.lapicAddr.toNat, d⟩ := by
        rw [hdevices, Array.getElem?_push_size]
      exact ⟨_, rfl, hidles, .within hdevice rfl (hleft ▸ hpatience), fun _ => rfl⟩

/-- **The local controller is set up.** -/
theorem Wired.completes_init (h : Wired commands k m.bench lapic) (hstarting : m.starting = []) :
    Completes (lapic.forM fun lapic => LocalApic.init lapic true) m fun _ m' =>
      Idles m m' ∧ Wired commands k m'.bench lapic := by
  cases h with
  | without hk => exact .pure ⟨.refl m, .without hk⟩
  | @within n paddr d hdevice hkind hk =>
    refine ((attends_init n commands).idles hstarting hdevice hkind (by omega)).imp
      fun _ m' hm' => ?_
    obtain ⟨hidles, ⟨d', hdevice', hkind', hleft⟩, -⟩ := hm'
    exact ⟨hidles, .within hdevice' hkind' (by omega)⟩

/-- The local controller stays as it is while the one of the lines is set up. -/
theorem Wired.completes_initLines (hstarting : m.starting = [])
    (h : Wired commands (m.board.stallAt t.ioApicAddr + k) m.bench lapic) :
    Completes (initLines t) m fun _ m' => Idles m m' ∧ Wired commands k m'.bench lapic := by
  have hpatience : m.board.stallAt t.ioApicAddr ≤ m.bench.patience := by
    cases h <;> omega
  refine (Machine.completes_initLines hstarting hpatience).imp fun _ m' hm' => ?_
  obtain ⟨hidles, hdevices, hleft⟩ := hm'
  refine ⟨hidles, ?_⟩
  cases h with
  | without hk => exact .without (by omega)
  | within hdevice hkind hk =>
    obtain ⟨hn, -⟩ := Array.getElem?_eq_some_iff.1 hdevice
    exact .within ((hdevices _ hn).trans hdevice) hkind (by omega)

end Controllers

end Machine

end Exokernel
