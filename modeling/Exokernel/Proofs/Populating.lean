import Exokernel.Proofs.Entries
import Exokernel.Proofs.Seating
import Exokernel.Proofs.Setup
/-!
# The environments a machine starts with

Under the lock, with nobody else about, a request to the kernel is answered or fails on its own account.
The boot processor makes an idle environment for every CPU and then the environments of the images,
each in the next slot of its queue (`completes_createEach`), and then the first one is run. `Loads` says
what that takes, and `Booted` what it comes to (`Loads.completes_populate`).
-/

namespace Exokernel

/-! ## Interrupts under the lock -/

/-- A pair that was begun can be ended, whichever CPU begins it for whom. -/
theorem Interrupts.exists_pop_push (i : Interrupts) (acting owner : CpuIndex) :
    ∃ i', (i.push acting owner).pop acting owner = .ok i' := by
  have hflag : (i.push acting owner).flag acting = false := by simp [push, setNest, setFlag, flag]
  have hdepth : ((i.push acting owner).nest owner).depth = (i.nest owner).depth + 1 := by
    simp [push, setNest, nest]
  unfold pop
  simp only [hflag, hdepth, Bool.false_eq_true, if_false]
  exact ⟨_, rfl⟩

namespace Machine

variable {M α : Type} {m m' : Machine M} {cpu : CpuIndex}

/-! ## The lock of a machine that nobody else uses -/

/-- **A free lock** is taken at once. -/
theorem completes_acquire {Q : PUnit → Machine M → Prop} (hfree : m.lock.holder = none)
    (hQ : Q ⟨⟩ { m with
      lock := { m.lock with holder := some cpu }
      interrupts := m.interrupts.push m.acting cpu }) : Completes (acquire cpu) m Q := by
  refine .bind (.thisCpu (.bind (.of_ends (Ends.focus_iff.2 ?_))))
  refine (SpinLock.ends_request_free hfree).imp fun r t hr => ?_
  obtain ⟨rfl, rfl⟩ := hr
  exact ⟨true, rfl, .pure hQ⟩

/-- **The lock is given back**, and the pair of disabled interrupts is ended. -/
theorem completes_release {i : Interrupts} {Q : PUnit → Machine M → Prop}
    (hheld : m.lock.holder = some cpu) (hpop : m.interrupts.pop m.acting cpu = .ok i)
    (hQ : Q ⟨⟩ { m with lock := { m.lock with holder := none }, interrupts := i }) :
    Completes (release cpu) m Q := by
  have hrelease := SpinLock.ends_release_held hheld hpop
  refine .bind (.thisCpu (.of_ends (Ends.focus_iff.2 (hrelease.imp fun r t hr => ?_))))
  obtain ⟨rfl, rfl⟩ := hr
  exact ⟨⟨⟩, rfl, hQ⟩

/-- **A turn of a waiting loop** costs patience. -/
theorem completes_hint {Q : PUnit → Machine M → Prop} (hstarting : m.starting = [])
    (hpatience : 0 < m.bench.patience)
    (hQ : Q ⟨⟩ { m with bench := { m.bench with
      events := .spun :: m.bench.events, patience := m.bench.patience - 1 } }) :
    Completes hint m Q := by
  have hsame (b : Bench) : ({ m with
      bench := b
      starting := m.starting.map fun s => ⟨s.cpu, s.events, s.hints + 1⟩ } : Machine M) =
      { m with bench := b } := by rw [hstarting, List.map_nil, ← hstarting]
  have hspin := Bench.spin_eq (b := m.bench) (Nat.sub_add_cancel hpatience).symm
  refine .bind (completes_onBench hspin (.bind (.modify ?_)))
  rw [hsame]
  exact completes_settle hstarting hQ

/-- **A request** that is answered. -/
theorem completes_onKernel {r : Request M α} {a : α} {k : State M}
    (hr : r m.kernel = .ok (a, k)) :
    Completes (onKernel r) m fun b m' => b = a ∧ Murmurs { m with kernel := k.hush } m' := by
  refine .bind (.get ?_)
  simp only [hr]
  exact .bind (.modify (.bind ((completes_sayEach _ _).imp fun _ m' hm' => .pure ⟨rfl, hm'⟩)))

/-! ## Environments made at boot -/

/-- Nothing is another but the kernel and what is shown of what is said. -/
structure Speaks (m m' : Machine M) : Prop where
  cpus : m'.cpus = m.cpus
  lock : m'.lock = m.lock
  interrupts : m'.interrupts = m.interrupts
  acting : m'.acting = m.acting
  starting : m'.starting = m.starting
  patience : m'.bench.patience = m.bench.patience

theorem Speaks.refl (m : Machine M) : Speaks m m := ⟨rfl, rfl, rfl, rfl, rfl, rfl⟩

theorem Speaks.trans {m'' : Machine M} (h : Speaks m m') (h' : Speaks m' m'') : Speaks m m'' :=
  ⟨h'.cpus.trans h.cpus, h'.lock.trans h.lock, h'.interrupts.trans h.interrupts,
    h'.acting.trans h.acting, h'.starting.trans h.starting, h'.patience.trans h.patience⟩

section Creation

variable [Memory M] {policy : Policy} {ncpu n : Nat} {l : List (CpuIndex × Loaded)} {image : Image}

theorem request_create {k : State M} (image : Image) (hserves : k.Serves n) :
    Request.create image n k = .ok ((State.create image n).run k) :=
  requires_bind.trans (if_pos hserves)

/-- **An environment is made at boot**, in the next slot of its queue. -/
theorem completes_createAtBoot {p : Loaded} {mem mem' : M}
    (h : State.Filled policy ncpu l m.kernel) (hcpu : policy = .global ∨ n < ncpu)
    (hroom : (share l (policy.queueFor n)).length <
      (RunQueue.forCpu policy (policy.queueFor n)).len)
    (hdir : Memory.createSpace m.kernel.memory = .ok p.dir mem)
    (hload : Memory.loadImage p.dir image mem = .ok p.entry mem') :
    Completes (createAtBoot image n) m fun _ m' => Speaks m m' ∧
      State.Filled policy ncpu (l ++ [(policy.queueFor n, p)]) m'.kernel ∧
      m'.kernel.memory = mem' := by
  have hserves : m.kernel.Serves n := hcpu.imp h.sound.policy_eq.trans fun hn =>
    Nat.lt_of_lt_of_le hn h.sound.division.le
  have hqueue := h.sound.queueOf_eq n
  have hlt := h.sound.division.queueFor_lt hcpu
  rw [← hqueue] at hlt hroom ⊢
  have hends := Op.ends_iff_run.1 (h.ends_create hlt image)
  have hrequest := request_create image hserves
  generalize (State.create image n).run m.kernel = end' at hends hrequest
  obtain ⟨r, k⟩ := end'
  refine .bind ((completes_onKernel hrequest).imp fun a m' ha => ?_)
  obtain ⟨rfl, logger, log, rfl⟩ := ha
  cases a with
  | error e => exact absurd ⟨hroom, p, mem, mem', hdir, hload⟩ hends
  | ok id =>
    obtain ⟨⟨dir', entry'⟩, mem₁, hdir', hload', hfilled⟩ := hends
    obtain ⟨dir, entry⟩ := p
    cases hdir.symm.trans hdir'
    rw [hload] at hload'
    injection hload' with hentry hmem
    subst hentry
    exact .pure ⟨⟨rfl, rfl, rfl, rfl, rfl, rfl⟩, hfilled.hush, hmem.symm⟩

/-- **They are made one after the other**, as long as there is room for them. -/
theorem completes_createEach {images : List (Image × Nat)} {r : List (CpuIndex × Loaded)} {mem' : M}
    (h : State.Filled policy ncpu l m.kernel)
    (hcpus : ∀ x ∈ images, policy = .global ∨ x.2 < ncpu)
    (hroom : ∀ c : CpuIndex, c.val < ncpu → (share l c).length +
      (share (placed policy images) c).length ≤ (RunQueue.forCpu policy c).len)
    (hload : loadEach (placed policy images) m.kernel.memory = some (r, mem')) :
    Completes (images.forM fun x => createAtBoot x.1 x.2) m fun _ m' => Speaks m m' ∧
      State.Filled policy ncpu (l ++ r) m'.kernel ∧ m'.kernel.memory = mem' := by
  induction images generalizing l m r with
  | nil =>
    cases hload
    refine .pure ⟨.refl m, ?_, rfl⟩
    rwa [List.append_nil]
  | cons x images ih =>
    obtain ⟨hcpu, hrest⟩ := List.forall_mem_cons.1 hcpus
    obtain ⟨p, mem₁, mem₂, r', hdir, hentry, hload', rfl⟩ := loadEach_cons hload
    -- the image takes one of the places that are left to it and those after it
    have hshare (c : CpuIndex) : share (placed policy (x :: images)) c =
        share [(policy.queueFor x.2, x.1)] c ++ share (placed policy images) c :=
      share_append [(policy.queueFor x.2, x.1)] (placed policy images) c
    have hlt := h.sound.division.queueFor_lt hcpu
    have hhere := hroom _ hlt
    rw [hshare, share_singleton_self, List.length_append, List.length_singleton] at hhere
    refine .bind ((completes_createAtBoot h hcpu (by omega) hdir hentry).imp fun _ m₁ hm₁ => ?_)
    obtain ⟨hspeaks, hfilled, hmem⟩ := hm₁
    have hroom₁ (c : CpuIndex) (hc : c.val < ncpu) :
        (share (l ++ [(policy.queueFor x.2, p)]) c).length +
          (share (placed policy images) c).length ≤ (RunQueue.forCpu policy c).len := by
      have hsame : (share [(policy.queueFor x.2, p)] c).length =
          (share [(policy.queueFor x.2, x.1)] c).length := length_share_of_map_fst (by rfl) c
      have hroom := hroom c hc
      rw [hshare, List.length_append] at hroom
      rw [share_append, List.length_append, hsame]
      omega
    refine (ih hfilled hrest hroom₁ (hmem ▸ hload')).imp fun _ m' hm' => ?_
    obtain ⟨hspeaks', hfilled', hmem'⟩ := hm'
    refine ⟨hspeaks.trans hspeaks', ?_, hmem'⟩
    rwa [List.append_assoc, List.singleton_append] at hfilled'

end Creation

/-- **The first environment is run**, and the lock is given back on the way to it. -/
theorem completes_schedule {policy : Policy} {ncpu : Nat} {l : List (CpuIndex × Loaded)}
    {idle : Loaded} {others : List Loaded} {i : Interrupts}
    (h : State.Filled policy ncpu l m.kernel) (hcpu : cpu.val < ncpu)
    (hl : share l cpu = idle :: others) (hheld : m.lock.holder = some cpu)
    (hpop : m.interrupts.pop m.acting cpu = .ok i) (hstarting : m.starting = [])
    (hpatience : 0 < m.bench.patience) :
    Completes (schedule cpu) m fun exit m' =>
      exit = .user (others.headD idle).frame (others.headD idle).dir ∧ m'.lock.holder = none ∧
      m'.cpus = m.cpus ∧ ∃ s,
        (RunQueue.forCpu policy cpu).slotAt (min 1 others.length) = some s ∧
        m'.kernel = (m.kernel.running cpu.val s).hush := by
  obtain ⟨s, hs, hnext⟩ := h.first_pass hcpu hl
  have hserves : m.kernel.Serves cpu.val := .inr cpu.isLt
  have hrequest : Request.scheduleNext cpu.val m.kernel = m.kernel.scheduleNext cpu.val :=
    requires_bind.trans (if_pos hserves)
  refine .bind ((completes_onKernel (hrequest.trans hnext)).imp fun a m₁ ha => ?_)
  obtain ⟨rfl, logger, log, rfl⟩ := ha
  exact .bind (.bind (completes_release hheld hpop (completes_hint hstarting hpatience
    (.bind (.modify (.pure ⟨rfl, rfl, rfl, s, hs, rfl⟩))))))

/-! ## The environments of a machine -/

/-- **There is room for everything**, and memory for it: the images are for CPUs that exist, or for any
if there is one queue for all, each slice has room for an idle environment and those that are for it,
and the programs can be loaded one after the other, the idle ones as `idles` and the images as `progs`. -/
structure Loads [Memory M] (t : Topology) (idle : Image) (images : List (Image × Nat)) (mem : M)
    (idles progs : List (CpuIndex × Loaded)) : Prop where
  cpus : ∀ x ∈ images, t.policy = .global ∨ x.2 < t.ncpu
  room : ∀ c : CpuIndex, c.val < t.ncpu →
    (share (placed t.policy images) c).length < (RunQueue.forCpu t.policy c).len
  memory : ∃ mem₁ mem₂,
    loadEach (placed t.policy ((List.range t.ncpu).map fun n => (idle, n))) mem = some (idles, mem₁) ∧
    loadEach (placed t.policy images) mem₁ = some (progs, mem₂)

/-- The status of the environment at a place of a CPU's slice once `bsp` has left the kernel: `bsp` runs
the first one behind its idle environment, or that one if it has no other. -/
def statusAt (progs : List (CpuIndex × Loaded)) (bsp c : CpuIndex) (place : Nat) : Status :=
  if c = bsp ∧ place = min 1 (share progs bsp).length then .running else .runnable

/-- **The table is populated**: the idle environments are in the idle slots, and behind each the
programs that are for its CPU, in order. They are all ready to start, except the one `bsp` runs. -/
structure Populated (t : Topology) (bsp : CpuIndex) (idles progs : List (CpuIndex × Loaded))
    (k : State M) : Prop where
  policy : k.policy = t.policy
  current : k.current bsp.val =
    (RunQueue.forCpu t.policy bsp).slotAt (min 1 (share progs bsp).length)
  idle : ∀ c : CpuIndex, c.val < t.ncpu → ∃ p, share idles c = [p] ∧
    p.Starts (statusAt progs bsp c 0) (k.env (RunQueue.forCpu t.policy c).idle)
  image : ∀ c : CpuIndex, c.val < t.ncpu → ∀ (j : Nat) p, (share progs c)[j]? = some p →
    ∃ s, (RunQueue.forCpu t.policy c).slotAt (j + 1) = some s ∧
      p.Starts (statusAt progs bsp c (j + 1)) (k.env s)

/-- **The machine is up**: `bsp` has left the kernel for the first of its programs, or its idle one if
it has no other, the lock is free, every CPU is up, and the table is populated. -/
structure Booted (t : Topology) (bsp : CpuIndex) (idles progs : List (CpuIndex × Loaded)) (exit : Exit)
    (m : Machine M) : Prop where
  exit : ∃ idle, share idles bsp = [idle] ∧ exit =
    .user ((share progs bsp).headD idle).frame ((share progs bsp).headD idle).dir
  holder : m.lock.holder = none
  count : m.cpus.count = t.ncpu
  up : ∀ c : CpuIndex, c.val < t.ncpu → (m.cpus.cpu c).booted = true
  table : Populated t bsp idles progs m.kernel

section Populating

variable [Memory M] {t : Topology} {bsp : CpuIndex} {idle : Image} {images : List (Image × Nat)}
  {mem : M} {idles progs : List (CpuIndex × Loaded)}

/-- Every CPU has one idle environment. -/
theorem Loads.exists_idle (h : Loads t idle images mem idles progs)
    (hdivision : Division t.policy t.ncpu) {c : CpuIndex} (hc : c.val < t.ncpu) : ∃ p, share idles c = [p] := by
  obtain ⟨_, _, hidles, -⟩ := h.memory
  have hfst : idles.map Prod.fst = (List.finRange cpuLimit).filter (·.val < t.ncpu) := by
    rw [map_fst_loadEach hidles, placed, List.map_map, List.map_map]
    exact hdivision.map_queueFor
  refine exists_share_eq ?_ ?_
  · rw [hfst]
    exact (List.nodup_finRange cpuLimit).filter _
  · rw [hfst]
    simpa using hc

/-- **The idle environments are made.** -/
theorem Loads.completes_idles (h : Loads t idle images m.kernel.memory idles progs)
    (hdivision : Division t.policy t.ncpu)
    (hfilled : State.Filled t.policy t.ncpu [] m.kernel) (hcount : m.cpus.count = t.ncpu) :
    Completes (m.cpus.members.forM fun cpu => createAtBoot idle cpu.val) m fun _ m' =>
      Speaks m m' ∧ State.Filled t.policy t.ncpu idles m'.kernel ∧
      ∃ mem', loadEach (placed t.policy images) m'.kernel.memory = some (progs, mem') := by
  obtain ⟨mem₁, mem₂, hidles, hprogs⟩ := h.memory
  have hmembers : m.cpus.members.forM (fun cpu => createAtBoot (M := M) idle cpu.val) =
      ((List.range t.ncpu).map fun n => (idle, n)).forM fun x => createAtBoot x.1 x.2 := by
    rw [← hcount, ← map_val_finRange_filter m.cpus.count_le, List.map_map]
    symm
    exact List.forM_map
  have hcpus : ∀ x ∈ (List.range t.ncpu).map fun n => (idle, n),
      t.policy = .global ∨ x.2 < t.ncpu := by
    rintro _ hx
    obtain ⟨n, hn, rfl⟩ := List.mem_map.1 hx
    exact .inr (List.mem_range.1 hn)
  have hroom (c : CpuIndex) (hc : c.val < t.ncpu) : (share ([] : List (CpuIndex × Loaded)) c).length +
      (share (placed t.policy ((List.range t.ncpu).map fun n => (idle, n))) c).length ≤
        (RunQueue.forCpu t.policy c).len := by
    obtain ⟨p, hp⟩ := h.exists_idle hdivision hc
    rw [← length_share_of_map_fst (map_fst_loadEach hidles), hp]
    exact RunQueue.len_forCpu_pos t.policy c
  rw [hmembers]
  refine (completes_createEach hfilled hcpus hroom hidles).imp fun _ m' hm' => ?_
  obtain ⟨hspeaks, hfilled', rfl⟩ := hm'
  exact ⟨hspeaks, hfilled', mem₂, hprogs⟩

/-- **Everything is in its place** once `bsp` was given its first environment. -/
theorem Loads.populated {k : State M} {s : Slot} (h : Loads t idle images mem idles progs)
    (hdivision : Division t.policy t.ncpu) (hbsp : bsp.val < t.ncpu)
    (hfilled : State.Filled t.policy t.ncpu (idles ++ progs) k)
    (hs : (RunQueue.forCpu t.policy bsp).slotAt (min 1 (share progs bsp).length) = some s) :
    Populated t bsp idles progs (k.running bsp.val s).hush := by
  have hshare (c : CpuIndex) (hc : c.val < t.ncpu) :
      ∃ p, share idles c = [p] ∧ share (idles ++ progs) c = p :: share progs c := by
    obtain ⟨p, hp⟩ := h.exists_idle hdivision hc
    exact ⟨p, hp, by rw [share_append, hp]; rfl⟩
  refine ⟨(State.policy_running _ _ _).trans hfilled.sound.policy_eq, ?_, fun c hc => ?_,
    fun c hc j p hp => ?_⟩
  · rw [State.current_hush, State.current_running, hs]
  · obtain ⟨p, hp, hcons⟩ := hshare c hc
    obtain ⟨u, hu, hstart⟩ := hfilled.starts hbsp hs hc (j := 0) (p := p) (by rw [hcons]; rfl)
    rw [RunQueue.slotAt_zero (Nat.ne_of_gt (RunQueue.len_forCpu_pos t.policy c))] at hu
    cases hu
    exact ⟨p, hp, hstart⟩
  · obtain ⟨_, -, hcons⟩ := hshare c hc
    exact hfilled.starts hbsp hs hc (j := j + 1) (p := p) (by rw [hcons]; exact hp)

/-- What `bsp` does once the other processors are up. -/
def populate (bsp : CpuIndex) (idle : Image) (images : List (Image × Nat)) : Act M Exit := do
  modify fun m => { m with cpus := m.cpus.setBooted bsp }
  (← get).cpus.members.forM fun cpu => createAtBoot idle cpu.val
  images.forM fun (image, cpu) => createAtBoot image cpu
  schedule bsp

/-- **The environments are made**, and the first one is run. -/
theorem Loads.completes_populate {i : Interrupts} (h : Loads t idle images m.kernel.memory idles progs)
    (hdivision : Division t.policy t.ncpu) (hbsp : bsp.val < t.ncpu)
    (hfilled : State.Filled t.policy t.ncpu [] m.kernel) (hcount : m.cpus.count = t.ncpu)
    (hup : ∀ c : CpuIndex, c.val < t.ncpu → c ≠ bsp → (m.cpus.cpu c).booted = true)
    (hheld : m.lock.holder = some bsp) (hpop : m.interrupts.pop m.acting bsp = .ok i)
    (hstarting : m.starting = []) (hpatience : 0 < m.bench.patience) :
    Completes (populate bsp idle images) m (Booted t bsp idles progs) := by
  let up : Machine M := { m with cpus := m.cpus.setBooted bsp }
  have hload : Loads t idle images up.kernel.memory idles progs := h
  refine .bind (.modify (.bind (.get ?_)))
  refine .bind ((hload.completes_idles hdivision hfilled hcount).imp fun _ m₁ hm₁ => ?_)
  obtain ⟨hspeaks₁, hfilled₁, mem', hprogs⟩ := hm₁
  have hroom (c : CpuIndex) (hc : c.val < t.ncpu) : (share idles c).length +
      (share (placed t.policy images) c).length ≤ (RunQueue.forCpu t.policy c).len := by
    obtain ⟨p, hp⟩ := h.exists_idle hdivision hc
    have hroom := h.room c hc
    rw [hp, List.length_singleton]
    omega
  refine .bind ((completes_createEach hfilled₁ h.cpus hroom hprogs).imp fun _ m₂ hm₂ => ?_)
  obtain ⟨hspeaks₂, hfilled₂, -⟩ := hm₂
  have hspeaks : Speaks up m₂ := hspeaks₁.trans hspeaks₂
  obtain ⟨p, hp⟩ := h.exists_idle hdivision hbsp
  have hfirst : share (idles ++ progs) bsp = p :: share progs bsp := by
    rw [share_append, hp]
    rfl
  refine (completes_schedule hfilled₂ hbsp hfirst (hspeaks.lock ▸ hheld)
    (hspeaks.interrupts ▸ hspeaks.acting ▸ hpop) (hspeaks.starting.trans hstarting)
    (hspeaks.patience ▸ hpatience)).imp fun exit m' hm' => ?_
  obtain ⟨rfl, hfree, hcpus, s, hs, hkernel⟩ := hm'
  have hcpus' : m'.cpus = m.cpus.setBooted bsp := hcpus.trans hspeaks.cpus
  refine ⟨⟨p, hp, rfl⟩, hfree, hcpus' ▸ hcount, fun c hc => ?_,
    hkernel ▸ h.populated hdivision hbsp hfilled₂ hs⟩
  rw [hcpus', CpuSet.cpu_setBooted]
  split
  · rfl
  · next hne => exact hup c hc hne

end Populating

end Machine

end Exokernel
