import Exokernel.Proofs.Isolation
/-!
# Destruction from another CPU

While a CPU is in user mode, other CPUs may destroy the environment it executes. The state of the
slot tells them that it runs, and they only mark it then. The mark itself takes the place of that
state, and so does whatever else another CPU writes there: once the slot is not marked as running
any more, the environment is freed while its CPU still executes it.
-/

namespace Exokernel

open MemoryView Memory

/-- The visit destroys the environment of a slot: it is told to from outside, or the environment of
its CPU is not to go itself and calls for it with authority over the other one. -/
def Visit.Destroys {M : Type} (k : State M) (s : Slot) : Visit → Prop
  | destroy _ t => t = s
  | call cpu tf => tf.eax = Call.envDestroy.number ∧ k.resolve cpu.val tf.args.first true = .ok s ∧
      ∀ t, k.current cpu.val = some t → (k.env t).status ≠ .dying
  | create _ _ _ | alloc _ _ _ | enter _ => False

namespace State

variable {M : Type} {k k' k'' : State M} {policy : Policy} {ncpu cpu : Nat} {s t : Slot}
  {c : CpuIndex} {r : Except NothingRunnable Dispatch}

/-! ## What leaves an occupant where it is -/

/-- Who occupies the slot stays. -/
def Retains (s : Slot) (k k' : State M) : Prop :=
  (k.env s).status ≠ .free → Env.Stays (k.env s) (k'.env s)

namespace Retains

theorem of_eq (h : k'.env s = k.env s) : Retains s k k' := fun _ => by
  rw [h]
  exact .refl _

theorem trans (h : Retains s k k') (h' : Retains s k' k'') : Retains s k k'' := fun hs =>
  have hfirst := h hs
  hfirst.trans (h' (mt hfirst.free.1 hs))

theorem setEnv {e : Env} (h : Env.Alike (k.env t) e) : Retains s k (k.setEnv t e) :=
  fun _ => stays_setEnv k h.toStays s

theorem save (k : State M) (t : Slot) (tf : TrapFrame) : Retains s k (k.save t tf) :=
  setEnv (.of_registers _ _ _)

theorem leaves (h : Leaves cpu k r k') : Retains s k k' := by
  cases h with
  | idle => exact of_eq rfl
  | user _ hrun => exact fun _ => stays_running k cpu (Status.ne_free_of_canRun hrun) s

/-- A slot that is taken was free. -/
theorem occupy (hfree : (k.env t).status = .free) (cpu : Nat) (parent : Option EnvId)
    (dir : PageDir) (mem : M) : Retains s k (k.occupy cpu t parent dir mem) := fun hs => by
  have hne : s ≠ t := by
    rintro rfl
    exact hs hfree
  rw [env_occupy, if_neg hne]
  exact .refl _

variable [Memory M]

theorem free (hne : s ≠ t) : Retains s k (k.free t) := of_eq (by rw [env_free, if_neg hne])

theorem destroy (hne : s ≠ t) (cpu : Nat) : Retains s k (k.destroy cpu t).2 := by
  rcases destroy_cases k cpu t with ⟨-, hk⟩ | ⟨-, hk⟩
  · rw [hk]
    exact of_eq (by rw [env_setEnv, if_neg hne])
  · rw [hk]
    exact free hne

theorem change (h : Sound policy ncpu k) (hcpu : cpu < ncpu) (hk : Change cpu k k') :
    Retains s k k' := by
  cases hk with
  | speak => exact of_eq rfl
  | touch => exact of_eq rfl
  | amend he => exact setEnv (h.alike_of_amends hcpu he)
  | @fork p t dir mem hp ht =>
    have hfree := (h.head (h.queueOf_lt hcpu) ht).2
    exact (occupy hfree cpu (k.env p).id dir mem).trans
      (setEnv (.of_registers _ _ _))

/-- **No change on behalf of an environment** removes another one. -/
theorem changes (h : Sound policy ncpu k) (hcpu : cpu < ncpu) (hk : Changes cpu k k') :
    Sound policy ncpu k' ∧ Retains s k k' := by
  induction hk with
  | refl => exact ⟨h, of_eq rfl⟩
  | tail _ hk ih => exact ⟨ih.1.change hcpu hk, ih.2.trans (change ih.1 hcpu hk)⟩

/-- Destroying one environment removes no other. -/
theorem destruction {tf : TrapFrame} {victim : Slot} {next : Next}
    (hk : Destruction k cpu tf victim next k') (hne : s ≠ victim) : Retains s k k' := by
  obtain ⟨t, text, k₁, -, -, hdestroy, hend⟩ := hk.ends
  have hgone : Retains s k k₁ := by
    have hsaid : Retains s (k.save t tf) ((k.save t tf).say .debug Log.Target.calls text) := of_eq rfl
    rw [hdestroy]
    exact ((save k t tf).trans hsaid).trans (destroy hne cpu)
  rcases hend with ⟨-, hk'⟩ | ⟨-, -, hk'⟩
  · rw [hk']
    exact hgone
  · rw [hk']
    exact hgone.trans (save k₁ t _)

end Retains

/-! ## What becomes of a slot that is destroyed from another CPU -/

/-- Neither the slot nor memory changes. -/
structure Untouched (s : Slot) (k k' : State M) : Prop where
  env : k'.env s = k.env s
  memory : k'.memory = k.memory

theorem Untouched.trans (h : Untouched s k k') (h' : Untouched s k' k'') : Untouched s k k'' :=
  ⟨h'.env.trans h.env, h'.memory.trans h.memory⟩

theorem untouched_setEnv (hne : s ≠ t) (e : Env) : Untouched s k (k.setEnv t e) :=
  ⟨by rw [env_setEnv, if_neg hne], rfl⟩

/-- **The CPU that leaves the kernel** touches no slot of another one. -/
theorem Sound.untouched_leaves (h : Sound policy ncpu k) (hcpu : cpu < ncpu)
    (hs : ¬ Owns policy ncpu (k.queueOf cpu) s) (hk : Leaves cpu k r k') : Untouched s k k' := by
  cases hk with
  | idle => exact ⟨rfl, rfl⟩
  | @user t ht =>
    have howns := (h.contains_iff (h.queueOf_lt hcpu)).1 ht
    have hne : s ≠ t := by
      rintro rfl
      exact hs howns
    have hcur : k.current cpu ≠ some s := fun hcur =>
      hs (h.current _ s (h.queueOf_lt hcpu) hcur).1
    refine ⟨?_, by rw [memory_hush, memory_running]⟩
    rw [env_hush, env_running, if_neg hne, if_neg fun hsus => hcur hsus.1]

variable [Memory M]

/-- **The fate of a slot that is destroyed**: if it is marked as running it is marked as dying, and
memory stays; otherwise it is free, and its address space is gone. -/
def Disposed (s : Slot) (k k' : State M) : Prop :=
  if (k.env s).status = .running then
    k'.env s = { k.env s with status := .dying } ∧ k'.memory = k.memory
  else
    (k'.env s).status = .free ∧ k'.memory = Memory.destroySpace (k.env s).pgdir k.memory

theorem Untouched.disposed (h : Untouched s k k') (h' : Disposed s k' k'') : Disposed s k k'' := by
  unfold Disposed at h' ⊢
  rw [h.env, h.memory] at h'
  exact h'

theorem Disposed.untouched (h : Disposed s k k') (h' : Untouched s k' k'') : Disposed s k k'' := by
  unfold Disposed at h ⊢
  rw [h'.env, h'.memory]
  exact h

theorem disposed_destroy (hfar : (k.env s).cpu.val ≠ cpu) : Disposed s k (k.destroy cpu s).2 := by
  have hfree : (k.free s).memory = Memory.destroySpace (k.env s).pgdir k.memory := memory_free k s
  unfold Disposed State.destroy
  dsimp only
  by_cases hrun : (k.env s).status = .running
  · rw [if_pos hrun, if_pos ⟨hrun, hfar⟩]
    exact ⟨env_setEnv_self k s _, rfl⟩
  · rw [if_neg hrun, if_neg fun h => hrun h.1]
    split <;>
      · refine ⟨?_, hfree⟩
        rw [env_free, if_pos rfl]

/-- The environment of one CPU destroys one of another CPU. -/
theorem Sound.disposed_destruction (h : Sound policy ncpu k) (hcpu : cpu < ncpu)
    (hs : ¬ Owns policy ncpu (k.queueOf cpu) s) (hocc : (k.env s).status ≠ .free) {tf : TrapFrame}
    {next : Next} (hk : Destruction k cpu tf s next k') : Disposed s k k' := by
  obtain ⟨t, text, k₁, hcur, -, hdestroy, hend⟩ := hk.ends
  have hne : s ≠ t := by
    rintro rfl
    exact hs (h.current _ s (h.queueOf_lt hcpu) hcur).1
  have hfar : (k.env s).cpu.val ≠ cpu := fun heq =>
    hs ((h.queueOf_eq_iff hcpu).2 heq ▸ h.owns_cpu hocc)
  -- the caller is in another slot, so saving its registers does not matter here
  have hsaid : Untouched s k ((k.save t tf).say .debug Log.Target.calls text) :=
    (untouched_setEnv hne _).trans ⟨rfl, rfl⟩
  have hgone : Disposed s k k₁ := by
    rw [hdestroy]
    refine hsaid.disposed (disposed_destroy ?_)
    rw [hsaid.env]
    exact hfar
  rcases hend with ⟨-, hk'⟩ | ⟨-, -, hk'⟩
  · rw [hk']
    exact hgone
  · rw [hk']
    exact hgone.untouched (untouched_setEnv hne _)

/-! ## Visits of the other CPUs -/

variable {v : Visit} {x : Option (Except NothingRunnable Dispatch)}

omit [Memory M] in
/-- A CPU that takes part does not own what another one owns. -/
theorem Sound.not_owns_queueOf (h : Sound policy ncpu k) (hs : Owns policy ncpu c s) {d : CpuIndex}
    (hd : d.val < ncpu) (hne : d ≠ c) : ¬ Owns policy ncpu (k.queueOf d.val) s := by
  rw [h.queueOf_self hd]
  exact fun howns => hne (howns.unique hs)

/-- **A visit of another CPU that does not destroy the environment leaves it in its slot.** -/
theorem Sound.retains_of_visit (h : Sound policy ncpu k) (hv : v.Proper ncpu k)
    (hk : v.effect k = .ok (x, k')) (hs : Owns policy ncpu c s) (hne : v.cpu ≠ c)
    (hd : ¬ v.Destroys k s) : Retains s k k' := by
  have hushed : ∀ {k₁ : State M}, Retains s k k₁ → Retains s k k₁.hush :=
    fun hk => hk.trans (.of_eq rfl)
  cases v with
  | create d image queue =>
    cases hk
    refine hushed (Op.of_ends (P := Retains s k) ?_)
    refine ends_create (fun _ => .of_eq rfl) (fun e mem _ => .of_eq rfl)
      (fun t dir mem e mem' ht _ _ hocc => ?_) fun t dir mem entry mem' ht _ _ hocc => ?_
    all_goals
      have hst : s ≠ t := by
        rintro rfl
        exact hocc (h.head (h.queueOf_lt hv.2) ht).2
      -- the slot that is taken was free, so it is another one
      have hold : (k.occupy queue t none dir mem).env s = k.env s := by rw [env_occupy, if_neg hst]
    · exact Retains.of_eq (by rw [env_free, if_neg hst]; exact hold) hocc
    · exact Retains.of_eq (by rw [launch, env_mapEnv, if_neg hst]; exact hold) hocc
  | alloc d parent queue =>
    cases hk
    refine hushed (Op.of_ends (P := Retains s k) ?_)
    exact ends_alloc (fun _ => .of_eq rfl) (fun e mem _ => .of_eq rfl)
      fun t dir mem ht _ => .occupy (h.head (h.queueOf_lt hv.2) ht).2 queue parent dir mem
  | destroy d t =>
    cases hk
    exact hushed (.destroy (fun heq => hd heq.symm) d.val)
  | enter d =>
    obtain ⟨r, -, hpass⟩ := Visit.effect_enter_eq_ok hk
    exact .leaves (leaves_pass h hv hpass)
  | call d tf =>
    obtain ⟨r, -, htrap⟩ := Visit.effect_call_eq_ok hk
    rcases trap_cases h hv htrap with ⟨t, ht, -, hleaves⟩ | ⟨halive, hleaves⟩
    · have hst : s ≠ t := by
        rintro rfl
        exact h.not_owns_queueOf hs hv hne (h.current _ s (h.queueOf_lt hv) ht).1
      exact (hushed (.free hst)).trans (.leaves hleaves)
    · have hstart : Sound policy ncpu k.hush := h.move hv .hush
      have hcall : Retains s k.hush (k.hush.syscall d.val tf).2 := by
        rcases syscall_cases d.val tf k.hush with hchanges | ⟨victim, hkill⟩ | ⟨t, b, hsend⟩
        · exact (Retains.changes hstart hv hchanges).2
        · refine .destruction hkill ?_
          rintro rfl
          obtain ⟨t, -, -, -, hraw, -⟩ := hkill.ends
          have hnames := (sameNames_hush k).trans (sameNames_frame k.hush t tf)
          exact hd ⟨hkill.number, (hnames.resolve d.val _ true).symm.trans hraw, halive⟩
        · obtain ⟨k₁, hmessage, hk₁⟩ := hsend.ends
          have hsaved : Sound policy ncpu (k.hush.save t tf) :=
            hstart.move hv (.change (.amend (.save tf hsend.current)))
          have hput : Retains s (k.hush.save t tf) k₁ :=
            fun _ => (hsaved.alike_of_delivery hv hmessage s).toStays
          rw [hk₁]
          exact ((Retains.save k.hush t tf).trans hput).trans (.save k₁ t _)
      exact (hushed ((Retains.of_eq rfl).trans hcall)).trans (.leaves hleaves)

/-- **A visit of another CPU that destroys the environment** marks it or frees it. -/
theorem Sound.disposed_of_visit (h : Sound policy ncpu k) (hv : v.Proper ncpu k)
    (hk : v.effect k = .ok (x, k')) (hs : Owns policy ncpu c s) (hne : v.cpu ≠ c)
    (hocc : (k.env s).status ≠ .free) (hd : v.Destroys k s) : Disposed s k k' := by
  cases v with
  | create => exact hd.elim
  | alloc => exact hd.elim
  | enter => exact hd.elim
  | destroy d t =>
    cases hd
    cases hk
    have hfar : (k.env s).cpu.val ≠ d.val := by
      rw [h.owner c s hs]
      exact fun heq => hne (Fin.ext heq.symm)
    exact (disposed_destroy hfar).untouched ⟨rfl, rfl⟩
  | call d tf =>
    obtain ⟨r, -, htrap⟩ := Visit.effect_call_eq_ok hk
    rcases trap_cases h hv htrap with ⟨t, ht, hdying, -⟩ | ⟨-, hleaves⟩
    · exact absurd hdying (hd.2.2 t ht)
    · have hstart : Sound policy ncpu k.hush := h.move hv .hush
      have hcalled := (hstart.effects (effects_syscall hv tf k.hush)).move hv .hush
      have hraw : k.hush.resolve d.val tf.args.first true = .ok s :=
        ((sameNames_hush k).resolve d.val _ true).trans hd.2.1
      have hgone : Disposed s k.hush (k.hush.syscall d.val tf).2 :=
        hstart.disposed_destruction hv (hstart.not_owns_queueOf hs hv hne) hocc
          (destruction_of_resolve hd.1 hraw)
      -- the way out touches slots of the CPU's own slice only
      have hout := hcalled.untouched_leaves hv (hcalled.not_owns_queueOf hs hv hne) hleaves
      have hshown : Untouched s (k.hush.syscall d.val tf).2 (k.hush.syscall d.val tf).2.hush := ⟨rfl, rfl⟩
      exact Untouched.disposed ⟨rfl, rfl⟩ (hgone.untouched (hshown.trans hout))

end State

namespace Machine

open State

variable {M : Type} [Memory M] {A : Visit → Prop} {policy : Policy} {ncpu : Nat} {m₀ : M}
  {m m₁ m' : Machine M} {u : CpuIndex → Option Slot} {v : Visit} {x : Option Exit} {c : CpuIndex}
  {s : Slot}

/-- A CPU in user mode is in a slot of its slice. -/
theorem Ran.owns (h : Ran A policy ncpu m₀ m u) (hs : u c = some s) : Owns policy ncpu c s := by
  induction h with
  | start => cases hs
  | @visit m m₁ m' u v x hran ha hv hm₁ hperform ih =>
    dsimp only at hs
    split at hs
    · next hc =>
      subst hc
      have hsound := (hran.visit ha hv hm₁ hperform).sound
      have hcpu : v.cpu.val < ncpu := by
        cases v with
        | create | alloc | destroy => exact hv.1
        | enter | call => exact hv
      unfold userSlot at hs
      split at hs
      · have howns := (hsound.current _ s (hsound.queueOf_lt hcpu) hs).1
        rw [hsound.queueOf_self hcpu] at howns
        exact howns
      · cases hs
    · exact ih hs

variable [MemoryView M] [LawfulMemory M]

/-- **Under a CPU's feet.** While a CPU is in user mode in an occupied slot, a visit of another CPU
frees the slot exactly if it destroys the environment while the slot is not marked as running, and
exactly then it destroys the address space. Any other visit leaves the environment where it is; one
that destroys it while the slot is marked as running marks it as dying, and that is all. -/
theorem Ran.freed_from_outside_iff (h : Ran A policy ncpu m₀ m u) (hm : Valid m₀)
    (hv : v.Proper ncpu m.kernel) (hm₁ : m₁.kernel = m.kernel) (hperform : v.perform m₁ = .ok x m')
    (hs : u c = some s) (hne : v.cpu ≠ c) (hocc : (m.kernel.env s).status ≠ .free) :
    ((m'.kernel.env s).status = .free ↔
        v.Destroys m.kernel s ∧ (m.kernel.env s).status ≠ .running) ∧
      (¬ Live m'.kernel.memory (m.kernel.env s).pgdir ↔
        v.Destroys m.kernel s ∧ (m.kernel.env s).status ≠ .running) ∧
      (¬ v.Destroys m.kernel s → Env.Stays (m.kernel.env s) (m'.kernel.env s)) ∧
      (v.Destroys m.kernel s → (m.kernel.env s).status = .running →
        m'.kernel.env s = { m.kernel.env s with status := .dying }) := by
  obtain ⟨r, hr, -⟩ := Visit.effect_of_perform hperform
  rw [hm₁] at hr
  have howns := h.owns hs
  have hhoused := h.housed hm
  have hafter := hhoused.effects h.sound (effects_of_visit h.sound hv hr)
  have hretained : ¬ v.Destroys m.kernel s → Env.Stays (m.kernel.env s) (m'.kernel.env s) :=
    fun hd => h.sound.retains_of_visit hv hr howns hne hd hocc
  have hdisposed : v.Destroys m.kernel s → Disposed s m.kernel m'.kernel :=
    fun hd => h.sound.disposed_of_visit hv hr howns hne hocc hd
  have hmarked : v.Destroys m.kernel s → (m.kernel.env s).status = .running →
      m'.kernel.env s = { m.kernel.env s with status := .dying } := by
    intro hd hrun
    have hfate := hdisposed hd
    rw [Disposed, if_pos hrun] at hfate
    exact hfate.1
  by_cases hcond : v.Destroys m.kernel s ∧ (m.kernel.env s).status ≠ .running
  · have hfate := hdisposed hcond.1
    rw [Disposed, if_neg hcond.2] at hfate
    have hgone : ¬ Live m'.kernel.memory (m.kernel.env s).pgdir := by
      rw [hfate.2, (LawfulMemory.destroySpace hhoused.valid (hhoused.live_pgdir hocc)).live]
      exact fun hlive => hlive.1 rfl
    exact ⟨iff_of_true hfate.1 hcond, iff_of_true hgone hcond, hretained, hmarked⟩
  · -- whoever stays in the slot keeps its address space
    have hstays : Env.Stays (m.kernel.env s) (m'.kernel.env s) := by
      by_cases hd : v.Destroys m.kernel s
      · rw [hmarked hd (Decidable.byContradiction fun hrun => hcond ⟨hd, hrun⟩)]
        exact (Env.Alike.of_occupied hocc .dying nofun nofun _ _).toStays
      · exact hretained hd
    have hocc' := mt hstays.free.1 hocc
    have hlive : Live m'.kernel.memory (m.kernel.env s).pgdir := by
      rw [← hstays.pgdir]
      exact hafter.live_pgdir hocc'
    exact ⟨iff_of_false hocc' hcond, iff_of_false (not_not_intro hlive) hcond, hretained, hmarked⟩

/-- The second of two CPUs destroys what the first one executes, and it is marked. -/
theorem Ran.freed_from_outside_iff_marked :
    ∃ (m m' : Machine Frames) (u : CpuIndex → Option Slot) (x : Option Exit),
      Ran (fun _ => True) .perCpu 2 ({} : Frames) m u ∧ Valid ({} : Frames) ∧
        u ⟨0, by decide⟩ = some 0 ∧ (Visit.destroy ⟨1, by decide⟩ 0).perform m = .ok x m' ∧
        m'.kernel.env 0 = { m.kernel.env 0 with status := .dying } ∧
        Live m'.kernel.memory (m.kernel.env 0).pgdir := by
  have hm : Valid ({} : Frames) := ⟨.nil, nofun⟩
  let c : CpuIndex := ⟨0, by decide⟩
  let d : CpuIndex := ⟨1, by decide⟩
  obtain ⟨m, u, x, m', hran, hperform, hseen⟩ := exists_ran .perCpu 2 ({} : Frames) (.destroy d 0)
    (fun m u _ => ((m.kernel.env 0).status, u c)) (l := [.create c [0x7f] 0, .enter c])
    (b := (.running, some 0)) (fun _ _ => trivial) (by decide +kernel)
  obtain ⟨hrun, hu⟩ := Prod.mk.inj hseen
  have hocc : (m.kernel.env 0).status ≠ .free := by
    rw [hrun]
    exact nofun
  obtain ⟨-, hgone, -, hmarked⟩ :=
    hran.freed_from_outside_iff (v := .destroy d 0) hm ⟨by decide, hocc⟩ rfl hperform hu (by decide)
      hocc
  refine ⟨m, m', u, x, hran, hm, hu, hperform, hmarked rfl hrun, ?_⟩
  exact Classical.byContradiction fun hnot => (hgone.1 hnot).2 hrun

/-- Another CPU can free an environment that a CPU executes: it destroys it twice. -/
theorem Ran.freed_by_second_destroy :
    ¬ ∀ (m m' : Machine Frames) (u : CpuIndex → Option Slot) (v : Visit) (x : Option Exit)
      (c : CpuIndex) (s : Slot), Ran (fun _ => True) .perCpu 2 ({} : Frames) m u →
        v.Proper 2 m.kernel → v.perform m = .ok x m' → u c = some s → v.cpu ≠ c →
          (m.kernel.env s).status ≠ .free → (m'.kernel.env s).status ≠ .free := by
  intro hclaim
  let c : CpuIndex := ⟨0, by decide⟩
  let d : CpuIndex := ⟨1, by decide⟩
  obtain ⟨m, u, x, m', hran, hperform, hseen⟩ := exists_ran .perCpu 2 ({} : Frames) (.destroy d 0)
    (fun m u m' => ((m.kernel.env 0).status, u c, (m'.kernel.env 0).status))
    (l := [.create c [0x7f] 0, .enter c, .destroy d 0])
    (b := (.dying, some 0, .free)) (fun _ _ => trivial) (by decide +kernel)
  obtain ⟨hbefore, hseen⟩ := Prod.mk.inj hseen
  obtain ⟨hu, hafter⟩ := Prod.mk.inj hseen
  have hocc : (m.kernel.env 0).status ≠ .free := by
    rw [hbefore]
    exact nofun
  exact hclaim m m' u (.destroy d 0) x c 0 hran ⟨by decide, hocc⟩ hperform hu (by decide) hocc hafter

end Machine

end Exokernel
