import Exokernel.Proofs.Discovery
import Exokernel.Proofs.Populating
/-!
# From power on to the first program

The boot processor finds the topology, sets the controllers up, starts the other processors and makes the
environments, in that order. `Loads.completes_bspMain` puts the stages together: each leaves what the
later ones rely on. A machine with several processors but no local controller takes another way, on which
it keeps to itself (`Secluded`) whatever becomes of the environments. `bspMain_boots` says both.
-/

namespace Exokernel

/-! ## The topology -/

/-- **What the processors can be booted with**: there is one, the one the machine starts on is among
them, and there is no other if the machine is taken for a uniprocessor. -/
structure Topology.Proper (t : Topology) : Prop where
  ncpu_pos : 1 ≤ t.ncpu
  bsp_lt : t.bsp < t.ncpu
  alone : t.isMp = false → t.ncpu = 1

theorem Topology.Proper.division {t : Topology} (h : t.Proper) : Division t.policy t.ncpu :=
  t.division_policy h.ncpu_pos h.alone

theorem Board.proper_usable {b : Board} (h : b.findTopology.1.Proper) : b.usable.Proper := by
  unfold usable
  split
  · exact ⟨Nat.one_pos, Nat.one_pos, fun _ => rfl⟩
  · exact h

/-- Telling the CPUs apart brings none of them up. -/
theorem CpuSet.booted_configure (s : CpuSet) (t : Topology) (i : CpuIndex) :
    ((s.configure t).cpu i).booted = (s.cpu i).booted := by
  unfold cpu configure
  dsimp only
  rw [Vector.getElem_ofFn]
  split <;> rfl

namespace Machine

variable {M α β : Type} {m m' : Machine M} {cpu : CpuIndex}

/-! ## The other processors -/

section Others

variable {commands : Bool} {k : Nat} {lapic : Option (Registers (Act M))}

/-- What the processor the machine starts on does to start the others. -/
def wakeOthers (lapic : Option (Registers (Act M))) (lapicAddr : UInt32) (me : CpuIndex) :
    Act M PUnit :=
  lapic.forM fun lapic => do
    onBench (Bench.emit .entryInstalled)
    modify fun m => { m with args := { m.args with lapicAddr := lapicAddr } }
    startOthers lapic platform me stackTopOf

/-- **The others are started**, if there are any. -/
theorem Wired.completes_wakeOthers {me : CpuIndex} {wait : CpuIndex → Nat} {lapicAddr : UInt32}
    (h : Wired commands (((m.others me).map wait).sum + k) m.bench lapic)
    (hstarting : m.starting = [])
    (hcommands : m.others me ≠ [] → commands = true ∧ lapic.isSome)
    (hup : ∀ i ∈ m.others me, m.ComesUp i)
    (hwake : ∀ i ∈ m.others me, m.board.Asleep (m.cpus.cpu i).apicId 7 0 →
      m.board.wakes (m.cpus.cpu i).apicId 7 (wait i) = true) :
    Completes (wakeOthers lapic lapicAddr me) m fun _ m' => Beside m m' ∧ m'.starting = [] ∧
      m'.cpus = (m.others me).foldl CpuSet.setBooted m.cpus ∧ k ≤ m'.bench.patience := by
  cases h with
  | without hk =>
    have hnone : m.others me = [] :=
      Decidable.by_contra fun hsome => nomatch (hcommands hsome).2
    exact .pure ⟨.refl m, hstarting, by rw [hnone]; rfl, by omega⟩
  | @within n paddr d hdevice hkind hk =>
    refine .bind (completes_onBench rfl (.bind (.modify ?_)))
    let told : Machine M := { m with
      bench := { m.bench with events := .entryInstalled :: m.bench.events }
      args := { m.args with lapicAddr := lapicAddr } }
    have htold : Beside m told := ⟨rfl, rfl, rfl, rfl, rfl, rfl⟩
    change Completes _ told _
    by_cases hnone : m.others me = []
    · refine .bind (.cpuSet ?_)
      change Completes ((m.others me).forM _) told _
      rw [hnone]
      exact .pure ⟨htold, hstarting, rfl, by change k ≤ m.bench.patience; omega⟩
    · obtain ⟨high, hhigh⟩ := Option.isSome_iff_exists.1 (hkind.trans (hcommands hnone).1)
      have hgoes := goes_startOthers (m := told) (k := k) me wait hdevice hhigh hk hstarting
        (fun i t ht => ht ▸ tells_stackTopOf i t)
        (fun i hi => ⟨(hup i hi).down, (hup i hi).number, (hup i hi).wakes⟩) hwake
      obtain ⟨_, m', hrun, _, -, hm'⟩ :=
        (Notes.startOthers (registers n) platform me stackTopOf).completes hgoes
      refine ⟨_, m', hrun, htold.trans hm'.beside, hm'.starting, hm'.cpus, ?_⟩
      obtain ⟨d', -, -, hleft⟩ := hm'.serves.device
      omega

end Others

/-! ## The boot processor -/

/-- The machine has not been booted: nothing is set up in its kernel, the lock is free, and no CPU is up
or on its way. -/
structure Unbooted (mem : M) (m : Machine M) : Prop where
  kernel : m.kernel = State.fresh mem
  holder : m.lock.holder = none
  starting : m.starting = []
  down : ∀ i, (m.cpus.cpu i).booted = false

/-- The machine with the CPUs of a topology. -/
def configured (m : Machine M) (t : Topology) : Machine M := { m with cpus := m.cpus.configure t }

/-- **The other processors come up** when they are started: there is a controller that sends commands,
and each comes up for them. -/
structure Wakes (m : Machine M) (t : Topology) (bsp : CpuIndex) : Prop where
  commands : 1 < t.ncpu → m.board.commandsAt t.lapicAddr = true
  up : ∀ i ∈ (m.configured t).others bsp, (m.configured t).ComesUp i

/-- **The CPU has taken the lock** since `m`, and the kernel is `k`; the processors and the controllers
are as they were. -/
structure Held (cpu : CpuIndex) (k : State M) (m m' : Machine M) : Prop where
  kernel : m'.kernel = k
  holder : m'.lock.holder = some cpu
  interrupts : m'.interrupts = m.interrupts.push m.acting cpu
  acting : m'.acting = m.acting
  board : m'.board = m.board
  cpus : m'.cpus = m.cpus
  starting : m'.starting = m.starting
  devices : m'.bench.devices = m.bench.devices
  patience : m'.bench.patience = m.bench.patience

section Boot

variable [Memory M] {mem : M} {t : Topology} {bsp : CpuIndex} {idle : Image}
  {images : List (Image × Nat)} {idles progs : List (CpuIndex × Loaded)} {commands : Bool}
  {lapic : Option (Registers (Act M))} {wait : CpuIndex → Nat}

/-- What `bsp` does once the controllers are set up. -/
def takeOver (t : Topology) (lapic : Option (Registers (Act M))) (bsp : CpuIndex) (idle : Image)
    (images : List (Image × Nat)) : Act M Exit := do
  acquire bsp
  let _ ← onKernel (Request.init t.policy (← get).cpus.count)
  wakeOthers lapic t.lapicAddr bsp
  populate bsp idle images

/-- **Under the lock** the table is set up, the others are started, and the environments are made. -/
theorem Loads.completes_takeOver (h : Loads t idle images mem idles progs) (ht : t.Proper)
    (hbsp : bsp.val < t.ncpu) (hkernel : m.kernel = State.fresh mem) (hfree : m.lock.holder = none)
    (hstarting : m.starting = []) (hcount : m.cpus.count = t.ncpu)
    (hwired : Wired commands (((m.others bsp).map wait).sum + 1) m.bench lapic)
    (hcommands : m.others bsp ≠ [] → commands = true ∧ lapic.isSome)
    (hup : ∀ i ∈ m.others bsp, m.ComesUp i)
    (hwake : ∀ i ∈ m.others bsp, m.board.Asleep (m.cpus.cpu i).apicId 7 0 →
      m.board.wakes (m.cpus.cpu i).apicId 7 (wait i) = true) :
    Completes (takeOver t lapic bsp idle images) m (Booted t bsp idles progs) := by
  obtain ⟨k, hk⟩ := ht.division.exists_init (State.fresh mem)
  obtain ⟨i, hpop⟩ := m.interrupts.exists_pop_push m.acting bsp
  have hfilled := (State.filled_of_init hk).hush
  have hmem : k.hush.memory = mem := by
    obtain ⟨-, text, rfl⟩ := State.init_eq_ok hk
    rfl
  have hrequest : Request.init t.policy m.cpus.count m.kernel = .ok (k.policy, k) := by
    unfold Request.init
    rw [hcount, hkernel, hk]
    rfl
  refine .bind (completes_acquire hfree (.bind (.get (.bind
    (Completes.imp (Q := fun _ m₁ => Held bsp k.hush m m₁) ?_ fun _ m₁ hm₁ => ?_)))))
  · refine (completes_onKernel (by exact hrequest)).imp fun _ m₁ hm₁ => ?_
    obtain ⟨-, logger, log, rfl⟩ := hm₁
    exact ⟨rfl, rfl, rfl, rfl, rfl, rfl, rfl, rfl, rfl⟩
  have hothers : m₁.others bsp = m.others bsp := by
    rw [others, hm₁.cpus]
    rfl
  rw [← hothers] at hwired hcommands hup hwake
  refine .bind (((hwired.of_eq hm₁.devices hm₁.patience).completes_wakeOthers
    (hm₁.starting.trans hstarting) hcommands
    (fun i hi => (hup i hi).of_eq hm₁.board hm₁.cpus) (by rwa [hm₁.board, hm₁.cpus])).imp
      fun _ m₂ hm₂ => ?_)
  obtain ⟨hbeside, hstarting₂, hcpus, hpatience⟩ := hm₂
  have hkernel₂ : m₂.kernel = k.hush := hbeside.kernel.trans hm₁.kernel
  have hpop₂ : m₂.interrupts.pop m₂.acting bsp = .ok i := by
    rw [hbeside.interrupts, hbeside.acting, hm₁.interrupts, hm₁.acting]
    exact hpop
  refine Loads.completes_populate (i := i) (by rw [hkernel₂, hmem]; exact h) ht.division hbsp
    (hkernel₂ ▸ hfilled) ?_ (fun c hc hne => ?_) (hbeside.lock ▸ hm₁.holder) hpop₂ hstarting₂
    hpatience
  · rw [hcpus, count_foldl_setBooted, hm₁.cpus, hcount]
  · rw [hcpus]
    exact booted_foldl_setBooted (mem_others.2 ⟨by rw [hm₁.cpus, hcount]; exact hc, hne⟩) _

omit [Memory M] in
/-- There are several CPUs where there is one to be started. -/
theorem one_lt_count (h : m.others bsp ≠ []) (hbsp : bsp.val < m.cpus.count) : 1 < m.cpus.count := by
  obtain ⟨i, hi⟩ := List.exists_mem_of_ne_nil _ h
  obtain ⟨hlt, hne⟩ := mem_others.1 hi
  have hval : i.val ≠ bsp.val := fun heq => hne (Fin.ext heq)
  omega

/-- **The boot processor brings the machine up**, with patience for the controllers and the waits. -/
theorem Loads.completes_bspMain (hm : m.Unbooted mem) (husable : m.board.usable = t) (ht : t.Proper)
    (hbsp : bsp.val = t.bsp) (h : Loads t idle images mem idles progs) (hwakes : m.Wakes t bsp)
    (hwait : ∀ i ∈ (m.configured t).others bsp,
      m.board.Asleep ((m.cpus.configure t).cpu i).apicId 7 0 →
        m.board.wakes ((m.cpus.configure t).cpu i).apicId 7 (wait i) = true)
    (hpatience : m.board.stallAt t.lapicAddr + (m.board.stallAt t.ioApicAddr +
      ((((m.configured t).others bsp).map wait).sum + 1)) ≤ m.bench.patience) :
    Completes (bspMain idle images) m (Booted t bsp idles progs) := by
  refine .bind ((completes_installLogger m).imp fun _ m₁ hm₁ => ?_)
  have hboard₁ := hm₁.idles.beside.board
  rw [← hboard₁] at hpatience
  have husable₁ : m₁.board.usable = t := hboard₁ ▸ husable
  refine .bind ((completes_usable (by rwa [husable₁, hm₁.patience])).imp fun r m₂ hm₂ => ?_)
  rw [husable₁] at hm₂
  obtain ⟨lapic, rfl, hidles₂, hwired₂, hsome⟩ := hm₂
  have hidles := hm₁.idles.trans hidles₂
  refine .bind (.modify (.bind (.get ?_)))
  have hroom : t.bsp < cpuLimit := hbsp ▸ bsp.isLt
  have hfound : (m₂.cpus.configure t).bsp? = some bsp :=
    (dif_pos hroom).trans (congrArg some (Fin.ext hbsp.symm))
  simp only [hfound]
  have hstarting : (m₂.configured t).starting = [] := hidles.starting.trans hm.starting
  refine .bind ((Wired.completes_init (m := m₂.configured t) hwired₂ hstarting).imp
    fun _ m₃ hm₃ => ?_)
  obtain ⟨hidles₃, hwired₃⟩ := hm₃
  have hboard₃ : m₃.board = m.board := hidles₃.beside.board.trans hidles.beside.board
  rw [hboard₁, ← hboard₃] at hwired₃
  refine .bind ((Wired.completes_initLines (hidles₃.starting.trans hstarting) hwired₃).imp
    fun _ m₄ hm₄ => ?_)
  obtain ⟨hidles₄, hwired₄⟩ := hm₄
  -- the controllers are set up, and everything else is as it was
  have hset := hidles₃.trans hidles₄
  have hconfigured : Beside m₂ (m₂.configured t) := ⟨rfl, rfl, rfl, rfl, rfl, rfl⟩
  have hbeside : Beside m m₄ := (hidles.beside.trans hconfigured).trans hset.beside
  have hcpus : m₄.cpus = m.cpus.configure t := by
    rw [hset.cpus, configured, hidles.cpus]
  have hothers : m₄.others bsp = (m.configured t).others bsp := by
    rw [others, hcpus]
    rfl
  rw [← hothers] at hwired₄ hwait
  refine h.completes_takeOver ht (hbsp ▸ ht.bsp_lt) (hbeside.kernel.trans hm.kernel)
    (hbeside.lock ▸ hm.holder) (hset.starting.trans hstarting) (hcpus ▸ rfl) hwired₄
    (fun hsome' => ?_) (fun i hi => ?_) ?_
  · have hmany : 1 < t.ncpu :=
      one_lt_count (m := m.configured t) (hothers ▸ hsome') (hbsp ▸ ht.bsp_lt)
    have hmp : t.isMp = true :=
      Bool.not_eq_false _ ▸ fun hmp => absurd (ht.alone hmp) (Nat.ne_of_gt hmany)
    exact ⟨hboard₃ ▸ hwakes.commands hmany, hsome hmp⟩
  · exact (hwakes.up i (hothers ▸ hi)).of_eq hbeside.board hcpus
  · rw [hbeside.board, hcpus]
    exact hwait

end Boot

/-! ## Without a local controller -/

/-- **The machine has kept to itself** since `m`: nothing happened at the bench but turns of waiting
loops, nobody is on its way, no CPU but `bsp` is another, and the policy is the same. -/
structure Secluded (bsp : CpuIndex) (m m' : Machine M) : Prop where
  devices : m'.bench.devices = m.bench.devices
  ports : m'.bench.ports = m.bench.ports
  events : ∃ n, m'.bench.events = List.replicate n .spun ++ m.bench.events
  starting : m'.starting = []
  count : m'.cpus.count = m.cpus.count
  others : ∀ i, i ≠ bsp → m'.cpus.cpu i = m.cpus.cpu i
  policy : m'.kernel.policy = m.kernel.policy

/-- However the computation ends, the machine has kept to itself. -/
def Secludes (bsp : CpuIndex) (x : Act M α) : Prop :=
  ∀ m, m.starting = [] → Ends x m fun _ m' => Secluded bsp m m'

section Seclusion

variable {bsp : CpuIndex}

theorem Secluded.refl (hstarting : m.starting = []) : Secluded bsp m m :=
  ⟨rfl, rfl, ⟨0, rfl⟩, hstarting, rfl, fun _ _ => rfl, rfl⟩

theorem Secluded.trans {m'' : Machine M} (h : Secluded bsp m m') (h' : Secluded bsp m' m'') :
    Secluded bsp m m'' := by
  obtain ⟨n, hn⟩ := h.events
  obtain ⟨n', hn'⟩ := h'.events
  refine ⟨h'.devices.trans h.devices, h'.ports.trans h.ports, ⟨n' + n, ?_⟩, h'.starting,
    h'.count.trans h.count, fun i hi => (h'.others i hi).trans (h.others i hi),
    h'.policy.trans h.policy⟩
  rw [hn', hn, List.replicate_add, List.append_assoc]

/-- What goes through ends as it does. -/
theorem Completes.ends {x : Act M α} {Q : α → Machine M → Prop}
    {R : Except Fault α → Machine M → Prop} (h : Completes x m Q)
    (hR : ∀ a m', Q a m' → R (.ok a) m') : Ends x m R := by
  refine (Ends.ok_iff.2 h).imp fun r m' hr => ?_
  obtain ⟨a, rfl, hQ⟩ := hr
  exact hR a m' hQ

/-- The first part goes through, and the rest ends as it does. -/
theorem Completes.bind_ends {x : Act M α} {f : α → Act M β} {R : Except Fault β → Machine M → Prop}
    (h : Completes x m fun a m' => Ends (f a) m' R) : Ends (x >>= f) m R :=
  Ends.bind_iff.2 (h.ends fun _ _ h => h)

namespace Secludes

theorem pure (a : α) : Secludes bsp (pure a : Act M α) := fun _ => .refl

theorem throw (e : Fault) : Secludes bsp (throw e : Act M α) := fun _ => .refl

theorem get : Secludes bsp (get : Act M (Machine M)) := fun _ => .refl

theorem bind {x : Act M α} {f : α → Act M β} (hx : Secludes bsp x) (hf : ∀ a, Secludes bsp (f a)) :
    Secludes bsp (x >>= f) := by
  intro m hstarting
  refine Ends.bind_iff.2 ((hx m hstarting).imp fun r m₁ hm₁ => ?_)
  cases r with
  | error e => exact hm₁
  | ok a => exact (hf a m₁ hm₁.starting).imp fun _ _ hm' => hm₁.trans hm'

theorem forM {f : β → Act M PUnit} (hf : ∀ b, Secludes bsp (f b)) (l : List β) :
    Secludes bsp (l.forM f) := by
  induction l with
  | nil => exact pure _
  | cons b l ih => exact bind (hf b) fun _ => ih

theorem say (r : Log.Record) : Secludes bsp (Exokernel.say r : Act M PUnit) := by
  intro m hstarting
  refine (completes_say r m).ends fun _ m' hm' => ?_
  obtain ⟨logger, log, rfl⟩ := hm'
  exact ⟨rfl, rfl, ⟨0, rfl⟩, hstarting, rfl, fun _ _ => rfl, rfl⟩

theorem release (cpu : CpuIndex) : Secludes bsp (release cpu : Act M PUnit) := by
  intro m hstarting
  refine Completes.bind_ends (.thisCpu (Ends.focus_iff.2 ?_))
  unfold Ends
  split <;> exact ⟨rfl, rfl, ⟨0, rfl⟩, hstarting, rfl, fun _ _ => rfl, rfl⟩

theorem hint : Secludes bsp (hint : Act M PUnit) := by
  intro m hstarting
  rcases Nat.eq_zero_or_pos m.bench.patience with hnone | hsome
  · refine Ends.bind_iff.2 (Ends.focus_iff.2 ?_)
    simp only [Bench.spin, Bench.spend, Ends.bind_iff, Ends.get_iff, hnone, Ends.throw_iff]
    exact .refl hstarting
  · exact (completes_hint (Q := fun _ => Secluded bsp m) hstarting hsome
      ⟨rfl, rfl, ⟨1, rfl⟩, hstarting, rfl, fun _ _ => rfl, rfl⟩).ends fun _ _ h => h

/-- A request that leaves the policy as it is. -/
theorem onKernel {r : Request M α} (hr : ∀ k a k', r k = .ok (a, k') → k'.policy = k.policy) :
    Secludes bsp (onKernel r : Act M α) := by
  intro m hstarting
  cases h : r m.kernel with
  | error e =>
    refine Ends.bind_iff.2 (Ends.get_iff.2 ?_)
    simp only [h]
    exact .refl hstarting
  | ok p =>
    obtain ⟨a, k⟩ := p
    refine (completes_onKernel h).ends fun _ m' hm' => ?_
    obtain ⟨-, logger, log, rfl⟩ := hm'
    have hpolicy : k.policy = m.kernel.policy := hr _ _ _ h
    exact ⟨rfl, rfl, ⟨0, rfl⟩, hstarting, rfl, fun _ _ => rfl, hpolicy⟩

/-- A CPU number that is not served is no request. -/
theorem served {r : Request M α} (n : Nat)
    (hr : ∀ k a k', r k = .ok (a, k') → k'.policy = k.policy) :
    Secludes bsp (Machine.onKernel (do Request.served n; r) : Act M α) :=
  onKernel fun k _ _ h => hr k _ _ (of_requires h)

theorem createAtBoot [Memory M] (image : Image) (n : Nat) :
    Secludes bsp (createAtBoot image n : Act M PUnit) := by
  refine bind (served n fun k a k' h => ?_) fun r => ?_
  · obtain rfl : ((State.create image n).run k).2 = k' := congrArg Prod.snd (Except.ok.inj h)
    refine Op.of_ends (P := fun k' => k'.policy = k.policy) ?_
    exact State.ends_create (fun _ => rfl) (fun _ _ _ => rfl) (fun _ _ _ _ _ _ _ _ => rfl)
      fun _ _ _ _ _ _ _ _ => rfl
  · cases r with
    | ok => exact pure _
    | error e => exact throw _

theorem schedule (cpu : CpuIndex) : Secludes bsp (schedule cpu : Act M Exit) := by
  refine bind (served cpu.val fun _ _ _ => State.policy_of_scheduleNext) fun r => ?_
  cases r with
  | ok d =>
    refine bind (bind (release cpu) fun _ => hint) fun _ =>
      bind (fun m hstarting => ?_) fun _ => pure _
    exact ⟨rfl, rfl, ⟨0, rfl⟩, hstarting, rfl, fun _ _ => rfl, rfl⟩
  | error e => exact bind (say _) fun _ => bind (release cpu) fun _ => pure _

theorem populate [Memory M] (idle : Image) (images : List (Image × Nat)) :
    Secludes bsp (populate bsp idle images : Act M Exit) := by
  refine bind (fun m hstarting => ?_) fun _ => bind get fun _ =>
    bind (forM (fun _ => createAtBoot _ _) _) fun _ =>
      bind (forM (fun _ => createAtBoot _ _) _) fun _ => schedule bsp
  refine ⟨rfl, rfl, ⟨0, rfl⟩, hstarting, rfl, fun i hi => ?_, rfl⟩
  rw [CpuSet.cpu_setBooted, if_neg hi]

end Secludes

/-- **The machine runs on one processor**, since it has no local controller at the address: that is
noted, no device and no port is touched since `m`, nobody is started, and there is one queue for all. -/
structure Single (paddr : UInt32) (m m' : Machine M) : Prop where
  devices : m'.bench.devices = m.bench.devices
  ports : m'.bench.ports = m.bench.ports
  events : ∃ n, m'.bench.events = List.replicate n .spun ++ .mapped paddr false :: m.bench.events
  starting : m'.starting = []
  count : m'.cpus.count = 1
  down : ∀ i : CpuIndex, i.val ≠ 0 → (m'.cpus.cpu i).booted = false
  policy : m'.kernel.policy = .global

/-- There is no local controller at the address, and nothing but that was found out since `m`. -/
structure Missed (paddr : UInt32) (m m' : Machine M) : Prop where
  devices : m'.bench.devices = m.bench.devices
  ports : m'.bench.ports = m.bench.ports
  events : m'.bench.events = .mapped paddr false :: m.bench.events
  kernel : m'.kernel = m.kernel
  holder : m'.lock.holder = m.lock.holder
  starting : m'.starting = m.starting
  cpus : m'.cpus = m.cpus

section Fallback

variable [Memory M] {mem : M} {idle : Image} {images : List (Image × Nat)}

/-- A single processor takes over without touching anything else. -/
theorem ends_takeOver_single (hkernel : m.kernel = State.fresh mem) (hfree : m.lock.holder = none)
    (hstarting : m.starting = []) (hcount : m.cpus.count = 1) :
    Ends (takeOver .uniprocessor none bsp idle images) m fun _ m' => Secluded bsp m m' := by
  obtain ⟨k, hk⟩ : ∃ k, (State.fresh mem).init .global 1 = .ok k :=
    (Topology.division_policy (t := .uniprocessor) Nat.le.refl fun _ => rfl).exists_init _
  have hpolicy : k.policy = m.kernel.policy := by
    obtain ⟨-, text, rfl⟩ := State.init_eq_ok hk
    rw [hkernel]
    rfl
  have hrequest : Request.init (Topology.policy .uniprocessor) m.cpus.count m.kernel =
      .ok (k.policy, k) := by
    rw [hcount, hkernel, Request.init]
    change (State.init .global 1 (State.fresh mem) >>= _) = _
    rw [hk]
    rfl
  refine Completes.bind_ends (completes_acquire hfree (Completes.bind_ends (.get ?_)))
  refine Completes.bind_ends
    (Completes.imp (Q := fun _ m₁ => Secluded bsp m m₁) ?_ fun _ m₁ hm₁ => ?_)
  · refine (completes_onKernel (by exact hrequest)).imp fun _ m₁ hm₁ => ?_
    obtain ⟨-, logger, log, rfl⟩ := hm₁
    exact ⟨rfl, rfl, ⟨0, rfl⟩, hstarting, rfl, fun _ _ => rfl, hpolicy⟩
  · refine Completes.bind_ends (.pure ?_)
    exact (Secludes.populate idle images m₁ hm₁.starting).imp fun _ _ hm' => hm₁.trans hm'

/-- **Without a local controller** the boot processor keeps to itself, however it ends. -/
theorem ends_bspMain_without (hm : m.Unbooted mem) (hmp : m.board.findTopology.1.isMp = true)
    (hd : m.board.deviceAt? m.board.findTopology.1.lapicAddr = none) :
    Ends (bspMain idle images) m fun _ m' => Single m.board.findTopology.1.lapicAddr m m' := by
  refine Completes.bind_ends ((completes_installLogger m).imp fun _ m₁ hm₁ => ?_)
  have hboard := hm₁.idles.beside.board
  have hmp₁ : m₁.board.findTopology.1.isMp = true := hboard ▸ hmp
  have hd₁ : m₁.board.deviceAt? m₁.board.findTopology.1.lapicAddr = none := hboard ▸ hd
  refine Completes.bind_ends ((completes_usableTopology_none hmp₁ hd₁).imp fun r m₂ hm₂ => ?_)
  obtain ⟨rfl, hm₂⟩ := hm₂
  have hmissed : Missed m.board.findTopology.1.lapicAddr m m₂ := by
    obtain ⟨logger, log, rfl⟩ := hm₁
    obtain ⟨logger', log', rfl⟩ := hm₂
    exact ⟨rfl, rfl, rfl, rfl, rfl, rfl, rfl⟩
  refine Completes.bind_ends (.modify (Completes.bind_ends (.get ?_)))
  -- the topology of a single processor needs no controllers
  refine Completes.bind_ends (.pure (Completes.bind_ends (.pure ?_)))
  refine (ends_takeOver_single (m := m₂.configured .uniprocessor) (hmissed.kernel.trans hm.kernel)
    (hmissed.holder.trans hm.holder) (hmissed.starting.trans hm.starting) rfl).imp fun _ m' hm' => ?_
  obtain ⟨n, hn⟩ := hm'.events
  refine ⟨hm'.devices.trans hmissed.devices, hm'.ports.trans hmissed.ports, ⟨n, ?_⟩, hm'.starting,
    hm'.count, fun i hi => ?_, ?_⟩
  · rw [hn]
    exact congrArg _ hmissed.events
  · rw [hm'.others i fun heq => hi (congrArg Fin.val heq), configured, CpuSet.booted_configure,
      hmissed.cpus]
    exact hm.down i
  · rw [hm'.policy, configured, hmissed.kernel, hm.kernel]
    rfl

end Fallback

end Seclusion

/-! ## From power on to the first program -/

section Main

variable [Memory M] {mem : M}

/-- **The boot processor brings the machine up.** The processors that the board's topology tells of come
up when they are started, there is room for an idle environment on each CPU and for the images given,
and memory for them. Then, with patience for the waits, the boot processor leaves the kernel for its
first program, the lock is free, every CPU is up, and everything is in its place and ready to start.
Where there are several processors but no local controller for them, no device, port or processor is
touched, whatever there is to run, and the machine has one CPU and one queue. -/
theorem bspMain_boots (hm : m.Unbooted mem) (idle : Image) (images : List (Image × Nat)) :
    (∀ (t : Topology) (bsp : CpuIndex) (idles progs : List (CpuIndex × Loaded)),
      m.board.findTopology.1.Proper → m.board.usable = t → bsp.val = t.bsp → m.Wakes t bsp →
      Loads t idle images mem idles progs →
      ∃ p, ∀ q, p ≤ q → ∃ exit m', bspMain idle images (m.withPatience q) = .ok exit m' ∧
        Booted t bsp idles progs exit m') ∧
    (m.board.findTopology.1.isMp = true →
      m.board.deviceAt? m.board.findTopology.1.lapicAddr = none →
      Ends (bspMain idle images) m fun _ m' => Single m.board.findTopology.1.lapicAddr m m') := by
  refine ⟨fun t bsp idles progs hproper husable hbsp hwakes hload => ?_, ends_bspMain_without hm⟩
  obtain ⟨wait, hwait⟩ := exists_waits hwakes.up
  refine ⟨m.board.stallAt t.lapicAddr + (m.board.stallAt t.ioApicAddr +
    ((((m.configured t).others bsp).map wait).sum + 1)), fun q hq => ?_⟩
  exact hload.completes_bspMain (m := m.withPatience q)
    ⟨hm.kernel, hm.holder, hm.starting, hm.down⟩ husable (husable ▸ Board.proper_usable hproper) hbsp
    ⟨hwakes.commands, fun i hi => (hwakes.up i hi).of_eq rfl rfl⟩ hwait hq

/-- A machine with three CPUs and some devices. -/
def machineOfThree (devices : List (UInt32 × Device)) : Machine Frames :=
  let board : Board :=
    { topology := some topologyOfThree, phys := .ofRegions [], devices := devices
      wakes := Board.wakesAfter 3 [] }
  fresh board {} {}

/-- With a local controller the machine comes up with three CPUs, and without one with a single CPU. -/
theorem bspMain_boots_three :
    (∃ idles progs, Loads topologyOfThree [0x7f] [([0x7f], 1), ([0x7f], 0), ([0x7f], 1)] ({} : Frames)
        idles progs ∧
      ∃ p, ∀ q, p ≤ q → ∃ exit m', bspMain [0x7f] [([0x7f], 1), ([0x7f], 0), ([0x7f], 1)]
        ((machineOfThree [(0xfee00000, .file {} none)]).withPatience q) = .ok exit m' ∧
        Booted topologyOfThree 1 idles progs exit m') ∧
    Ends (bspMain [0x7f] [([0x7f], 1), ([0x7f], 7)]) (machineOfThree []) fun _ m' =>
      Single 0xfee00000 (machineOfThree []) m' := by
  have hunbooted (devices : List (UInt32 × Device)) : (machineOfThree devices).Unbooted {} :=
    ⟨rfl, rfl, rfl, (by decide : ∀ i, (CpuSet.fresh.cpu i).booted = false)⟩
  constructor
  · obtain ⟨idles, progs, hload⟩ : ∃ idles progs, Loads topologyOfThree [0x7f]
        [([0x7f], 1), ([0x7f], 0), ([0x7f], 1)] ({} : Frames) idles progs := by
      have hall : ((loadEach (placed topologyOfThree.policy ((List.range topologyOfThree.ncpu).map
          fun n => ([0x7f], n))) ({} : Frames)).bind fun r => loadEach (placed topologyOfThree.policy
            [([0x7f], 1), ([0x7f], 0), ([0x7f], 1)]) r.2).isSome := by decide +kernel
      obtain ⟨⟨progs, mem₂⟩, hall⟩ := Option.isSome_iff_exists.1 hall
      obtain ⟨⟨idles, mem₁⟩, hidles, hprogs⟩ := Option.bind_eq_some_iff.1 hall
      exact ⟨idles, progs, by decide, by decide, mem₁, mem₂, hidles, hprogs⟩
    refine ⟨idles, progs, hload, ?_⟩
    generalize hm : machineOfThree [(0xfee00000, .file {} none)] = m
    have hproper : m.board.findTopology.1.Proper := by
      rw [← hm]
      exact ⟨by decide, by decide, by decide⟩
    have husable : m.board.usable = topologyOfThree := by
      rw [← hm]
      rfl
    have hothers : (m.configured topologyOfThree).others 1 = [0, 2] := by
      rw [← hm]
      decide +kernel
    have hwakes : m.Wakes topologyOfThree 1 := by
      refine ⟨fun _ => by rw [← hm]; rfl, ?_⟩
      rw [hothers, ← hm]
      simp only [List.forall_mem_cons, List.not_mem_nil, false_imp_iff, implies_true, and_true]
      exact ⟨⟨by decide, by decide, .inr ⟨3, by decide⟩⟩, ⟨by decide, by decide, .inr ⟨3, by decide⟩⟩⟩
    exact (bspMain_boots (hm ▸ hunbooted _) _ _).1 topologyOfThree 1 idles progs hproper husable rfl
      hwakes hload
  · generalize hm : machineOfThree [] = m
    have hmp : m.board.findTopology.1.isMp = true := by rw [← hm]; rfl
    have hd : m.board.deviceAt? m.board.findTopology.1.lapicAddr = none := by rw [← hm]; rfl
    have haddr : m.board.findTopology.1.lapicAddr = 0xfee00000 := by rw [← hm]; rfl
    rw [← haddr]
    exact (bspMain_boots (hm ▸ hunbooted []) _ _).2 hmp hd

end Main

end Machine

end Exokernel
