import Exokernel.Proofs.Deferral
import Exokernel.Proofs.Histories
/-!
# Reaping what was marked

An environment that was marked as dying is left to its own CPU, and that CPU looks for it in one place
only: the slot it runs when it enters the kernel with a system call. As long as a CPU does not hand
itself over without having looked, what is marked stays the environment its CPU runs (`Attended`), and
the next system call of the CPU frees it. A CPU that only enters to schedule does not look.
-/

namespace Exokernel

open MemoryView Memory

namespace State

variable {M : Type}

/-- **What is marked as dying is what its CPU runs.** -/
def Attended (k : State M) : Prop :=
  ∀ s, (k.env s).status = .dying → (k.queue (k.env s).cpu).current = some s

/-- The environment a CPU runs is not marked as dying. -/
def Alive (cpu : Nat) (k : State M) : Prop :=
  ∀ s, k.current cpu = some s → (k.env s).status ≠ .dying

instance (cpu : Nat) (k : State M) : Decidable (Alive cpu k) :=
  inferInstanceAs (Decidable (∀ s ∈ k.current cpu, (k.env s).status ≠ .dying))

end State

namespace Visit

variable {M : Type}

/-- The visit does not destroy once more what is marked already. -/
def MarksOnce (k : State M) : Visit → Prop
  | destroy _ s => (k.env s).status ≠ .dying
  | create _ _ _ | alloc _ _ _ | enter _ | call _ _ => True

/-- The visit does not hand a CPU over that runs what is marked. -/
def Looks (k : State M) : Visit → Prop
  | enter cpu => State.Alive cpu.val k
  | create _ _ _ | alloc _ _ _ | destroy _ _ | call _ _ => True

instance (k : State M) : (v : Visit) → Decidable (v.MarksOnce k)
  | destroy _ _ => inferInstanceAs (Decidable (_ ≠ _))
  | create _ _ _ | alloc _ _ _ | enter _ | call _ _ => inferInstanceAs (Decidable True)

instance (k : State M) : (v : Visit) → Decidable (v.Looks k)
  | enter cpu => inferInstanceAs (Decidable (State.Alive cpu.val k))
  | create _ _ _ | alloc _ _ _ | destroy _ _ | call _ _ => inferInstanceAs (Decidable True)

end Visit

namespace State

variable {M : Type} {k k' : State M} {policy : Policy} {ncpu cpu : Nat} {s t : Slot}
  {c : CpuIndex} {r : Except NothingRunnable Dispatch}

/-! ## Who marks what -/

/-- A CPU marks only what runs on another one, leaves what is marked where its CPU finds it, and turns
itself only to what runs. -/
structure Marks (cpu : Nat) (k k' : State M) : Prop where
  marked : ∀ s, (k'.env s).status = .dying →
    (k.env s).status = .dying ∨ (k.env s).status = .running ∧ (k.env s).cpu.val ≠ cpu
  kept : ∀ c s, (k'.env s).status = .dying → (k.queue c).current = some s →
    (k'.queue c).current = some s
  arrival : ∀ s, k'.current cpu = some s → k.current cpu = some s ∨ (k'.env s).status = .running

namespace Marks

/-- No CPU turns to another slot. -/
theorem of_quiet (hp : k'.policy = k.policy)
    (hq : ∀ c, (k'.queue c).current = (k.queue c).current)
    (hs : ∀ s, (k'.env s).status = .dying →
      (k.env s).status = .dying ∨ (k.env s).status = .running ∧ (k.env s).cpu.val ≠ cpu) :
    Marks cpu k k' := by
  have hcur : k'.current cpu = k.current cpu := by
    have hqueue : k'.queueOf cpu = k.queueOf cpu := by simp only [queueOf, hp]
    rw [current, runQueue, hqueue, hq]
    rfl
  exact ⟨hs, fun c s _ h => (hq c).trans h, fun s h => .inl (hcur.symm.trans h)⟩

theorem setMemory (k : State M) (mem : M) : Marks cpu k { k with memory := mem } :=
  of_quiet rfl (fun _ => rfl) fun _ => .inl

theorem setEnv {e : Env} (he : e.status = .dying →
    (k.env s).status = .dying ∨ (k.env s).status = .running ∧ (k.env s).cpu.val ≠ cpu) :
    Marks cpu k (k.setEnv s e) := by
  refine of_quiet rfl (fun _ => rfl) fun t ht => ?_
  rw [env_setEnv] at ht
  split at ht
  · next heq =>
    rw [heq]
    exact he ht
  · exact .inl ht

theorem occupy (k : State M) (cpu queue : Nat) (s : Slot) (parent : Option EnvId) (dir : PageDir)
    (mem : M) : Marks cpu k (k.occupy queue s parent dir mem) := by
  refine of_quiet rfl (fun c => current_queue_occupy k queue s c parent dir mem) fun t ht => ?_
  rw [env_occupy] at ht
  split at ht
  · cases ht
  · exact .inl ht

/-- **Handing the CPU over** loses nothing if what it ran is not marked. -/
theorem running (halive : Alive cpu k) (s : Slot) : Marks cpu k (k.running cpu s) := by
  have hmarked : ∀ t, ((k.running cpu s).env t).status = .dying → (k.env t).status = .dying := by
    intro t ht
    rw [env_running] at ht
    split at ht
    · cases ht
    · split at ht
      · cases ht
      · exact ht
  refine ⟨fun t ht => .inl (hmarked t ht), fun c t ht hc => ?_, fun t ht => .inr ?_⟩
  · rw [queue_running, if_neg]
    · exact hc
    · rintro rfl
      exact halive t hc (hmarked t ht)
  · obtain rfl : s = t := Option.some.inj ((current_running k cpu s).symm.trans ht)
    rw [env_running, if_pos rfl]

theorem leaves (halive : Alive cpu k) (h : Leaves cpu k r k') : Marks cpu k k' := by
  cases h with
  | idle => exact of_quiet rfl (fun _ => rfl) fun _ => .inl
  | @user s =>
    have hrun := running halive s
    exact ⟨hrun.marked, hrun.kept, hrun.arrival⟩

variable [Memory M]

theorem free (k : State M) (cpu : Nat) (s : Slot) : Marks cpu k (k.free s) := by
  have hne : ∀ t, ((k.free s).env t).status = .dying → t ≠ s ∧ (k.env t).status = .dying := by
    intro t ht
    rw [env_free] at ht
    split at ht
    · cases ht
    · next hts => exact ⟨hts, ht⟩
  refine ⟨fun t ht => .inl (hne t ht).2, fun c t ht hc => ?_, fun t ht => .inl ?_⟩
  · rw [queue_free]
    split
    · have hcs : (k.queue c).current ≠ some s := fun h =>
        (hne t ht).1 (Option.some.inj (hc.symm.trans h))
      exact (if_neg hcs).trans hc
    · exact hc
  · have hq : (k.free s).queueOf cpu = k.queueOf cpu := rfl
    rw [current, runQueue, hq, queue_free] at ht
    split at ht
    · dsimp only at ht
      split at ht
      · cases ht
      · exact ht
    · exact ht

/-- **Destroying an environment** marks it only if it runs on another CPU. -/
theorem destroy (k : State M) (cpu : Nat) (s : Slot) : Marks cpu k (k.destroy cpu s).2 := by
  rcases destroy_cases k cpu s with ⟨hfar, hk⟩ | ⟨-, hk⟩
  · rw [hk]
    exact setEnv fun _ => .inr hfar
  · rw [hk]
    exact free k cpu s

theorem change (hk : Change cpu k k') : Marks cpu k k' := by
  cases hk with
  | speak => exact of_quiet rfl (fun _ => rfl) fun _ => .inl
  | touch => exact setMemory k _
  | amend he =>
    refine setEnv fun hdying => ?_
    cases he with
    | save => exact .inl hdying
    | upcall => exact .inl hdying
    | status _ hst =>
      rcases hst with rfl | rfl
      · cases hdying
      · cases hdying
    | listen => cases hdying
  | @fork p s dir mem =>
    refine of_quiet rfl (fun c => current_queue_occupy k cpu s c (k.env p).id dir mem) fun t ht => ?_
    rw [env_forked] at ht
    split at ht
    · cases ht
    · exact .inl ht

theorem delivery {target value perm : UInt32} {srcva : Nat} {receiver : Slot}
    (hk : Delivery k cpu target value srcva perm receiver k') : Marks cpu k k' := by
  have hdeliver : ∀ (k₁ : State M) (sender : Slot) (granted : Perm),
      Marks cpu k₁ (k₁.deliver sender receiver value granted) :=
    fun k₁ sender granted => setEnv nofun
  cases hk with
  | word => exact hdeliver k _ _
  | @page _ _ _ mem =>
    have hput := hdeliver { k with memory := mem }
    exact ⟨(hput _ _).marked, (hput _ _).kept, (hput _ _).arrival⟩

/-- **A CPU that moves** does not lose what is marked, unless it was itself running that. -/
theorem move (halive : Alive cpu k) (hk : Move cpu k k') : Marks cpu k k' := by
  cases hk with
  | change hk => exact change hk
  | destroy => exact destroy k cpu _
  | hush => exact of_quiet rfl (fun _ => rfl) fun _ => .inl
  | refuse => exact setMemory k _
  | occupy => exact occupy k cpu cpu _ _ _ _
  | load => exact setMemory k _
  | spoil => exact setMemory k _
  | launch => exact setEnv nofun
  | drop => exact free k cpu _
  | run => exact running halive _

end Marks

/-! ## What stays attended -/

theorem Attended.of_marks (ha : Attended k) (h : Sound policy ncpu k) (h' : Sound policy ncpu k')
    (hk : Marks cpu k k') : Attended k' := by
  intro s hs
  have howns := h'.owns_cpu (s := s) (by rw [hs]; exact nofun)
  have hcpu := h.owner _ s howns
  refine hk.kept _ s hs ?_
  rcases hk.marked s hs with hdying | ⟨hrun, -⟩
  · rw [← hcpu]
    exact ha s hdying
  · exact h.running _ s howns hrun

/-- A CPU that did not run what is marked does not come to do so. -/
theorem Alive.of_marks (ha : Alive cpu k) (h : Sound policy ncpu k) (hcpu : cpu < ncpu)
    (hk : Marks cpu k k') : Alive cpu k' := by
  intro s hs hdying
  rcases hk.arrival s hs with hcur | hrun
  · rcases hk.marked s hdying with hwas | ⟨-, hfar⟩
    · exact ha s hcur hwas
    · -- it marks only what runs elsewhere, and what it runs is its own
      have howns := (h.current _ s (h.queueOf_lt hcpu) hcur).1
      exact hfar (by rw [h.owner _ s howns, h.queueOf_val hcpu])
  · cases hdying.symm.trans hrun

variable [Memory M]

/-- **Nobody who is marked is lost while a CPU moves** that does not run one. -/
theorem Attended.moves (ha : Attended k) (h : Sound policy ncpu k) (hcpu : cpu < ncpu)
    (halive : Alive cpu k) (hk : Moves cpu k k') :
    Attended k' ∧ Alive cpu k' ∧ Sound policy ncpu k' := by
  induction hk with
  | refl => exact ⟨ha, halive, h⟩
  | tail _ hk ih =>
    obtain ⟨ha, halive, h⟩ := ih
    have h' := h.move hcpu hk
    have hmarks := Marks.move halive hk
    exact ⟨ha.of_marks h h' hmarks, halive.of_marks h hcpu hmarks, h'⟩

/-- The same of a whole system call. -/
theorem Attended.syscall (ha : Attended k) (h : Sound policy ncpu k) (hcpu : cpu < ncpu)
    (halive : Alive cpu k) (tf : TrapFrame) :
    Attended (k.syscall cpu tf).2 ∧ Alive cpu (k.syscall cpu tf).2 ∧
      Sound policy ncpu (k.syscall cpu tf).2 := by
  rcases syscall_moves_or_sending cpu tf k with hk | ⟨s, receiver, hk⟩
  · exact ha.moves h hcpu halive hk
  · obtain ⟨k₁, hd, hk'⟩ := hk.ends
    -- the caller's registers are saved, the message goes out, and the caller finds the result
    have hsave : Move cpu k (k.save s tf) := .change (.amend (.save tf hk.current))
    have hresult : Move cpu k₁ (k₁.setResult s 0) :=
      .change (.amend (.save _ ((hd.current cpu).trans hk.current)))
    obtain ⟨ha, halive, h⟩ := ha.moves h hcpu halive (.single hsave)
    have hmarks := Marks.delivery hd
    have h₁ := h.delivery hcpu hd
    rw [hk']
    exact (ha.of_marks h h₁ hmarks).moves h₁ hcpu (halive.of_marks h hcpu hmarks) (.single hresult)

omit [Memory M] in
theorem Attended.hush (ha : Attended k) : Attended k.hush := ha

omit [Memory M] in
theorem Attended.leaves (ha : Attended k) (h : Sound policy ncpu k) (hcpu : cpu < ncpu)
    (halive : Alive cpu k) (hk : Leaves cpu k r k') : Attended k' ∧ Alive cpu k' := by
  have h' : Sound policy ncpu k' := by
    cases hk with
    | idle => exact h.alike rfl rfl fun _ => .refl _
    | user hs hrun =>
      exact (h.running_of_contains hcpu hs (Status.ne_free_of_canRun hrun)).alike rfl rfl
        fun _ => .refl _
  have hmarks := Marks.leaves halive hk
  exact ⟨ha.of_marks h h' hmarks, halive.of_marks h hcpu hmarks⟩

/-- Once a CPU has given up what it ran, it runs nothing. -/
theorem Sound.current_free (h : Sound policy ncpu k) (hcpu : cpu < ncpu)
    (hs : k.current cpu = some s) : (k.free s).current cpu = none := by
  have howns := (h.current _ s (h.queueOf_lt hcpu) hs).1
  have hq : (k.free s).queueOf cpu = k.queueOf cpu := rfl
  have hown : k.queueOf cpu = k.queueOf (k.env s).cpu := by
    rw [h.owner _ s howns, h.queueOf_val hcpu]
  rw [State.current, runQueue, hq, queue_free, if_pos hown]
  exact if_pos hs

/-- **An entry with a system call** leaves nothing marked that its CPU runs. -/
theorem Attended.trap (ha : Attended k) (h : Sound policy ncpu k) (hcpu : cpu < ncpu)
    {tf : TrapFrame} (hk : k.trap cpu tf = .ok (r, k')) : Attended k' ∧ Alive cpu k' := by
  rcases trap_cases h hcpu hk with ⟨s, hs, -, hleaves⟩ | ⟨halive, hleaves⟩
  · have hfree := h.free (h.current_ne_free hcpu hs)
    have hafter := ha.of_marks h hfree (Marks.free k cpu s)
    have hnone : Alive cpu (k.free s) := by
      intro t ht
      cases (h.current_free hcpu hs).symm.trans ht
    exact Attended.leaves (k := (k.free s).hush) hafter (hfree.move hcpu .hush) hcpu hnone hleaves
  · obtain ⟨ha, halive, h⟩ := Attended.syscall (k := k.hush) ha (h.move hcpu .hush) hcpu halive tf
    exact Attended.leaves (k := (k.hush.syscall cpu tf).2.hush) ha (h.move hcpu .hush) hcpu halive
      hleaves

variable {v : Visit} {x : Option (Except NothingRunnable Dispatch)}

/-- **A visit that looks first leaves what is marked where its CPU finds it.** -/
theorem Attended.visit (ha : Attended k) (h : Sound policy ncpu k) (hv : v.Proper ncpu k)
    (hlooks : v.Looks k) (hk : v.effect k = .ok (x, k')) : Attended k' := by
  cases v with
  | create d image queue =>
    cases hk
    refine Op.of_ends (P := Attended) ?_
    refine ends_create (fun _ => ha) (fun e mem _ => ha) (fun s dir mem e mem' hs hdir hload => ?_)
      fun s dir mem entry mem' hs hdir hload => ?_
    all_goals
      have htaken := h.occupy hv.2 hs none dir mem
      have ha := ha.of_marks h htaken (Marks.occupy k d.val queue s none dir mem)
      have hloaded := htaken.setMemory mem'
      have hfree : (({ k.occupy queue s none dir mem with memory := mem' } : State M).env s).status ≠
          .free := status_occupy_ne_free k queue s none dir mem
      have ha : Attended ({ k.occupy queue s none dir mem with memory := mem' } : State M) := ha
    · exact ha.of_marks hloaded (hloaded.free hfree) (Marks.free _ d.val s)
    · let k₁ : State M := { k.occupy queue s none dir mem with memory := mem' }
      have hlaunched : Marks d.val k₁ (k₁.launch s entry) := .setEnv nofun
      exact ha.of_marks hloaded (hloaded.mapEnv (.of_occupied hfree .runnable nofun nofun _ _))
        hlaunched
  | alloc d parent queue =>
    cases hk
    refine Op.of_ends (P := Attended) ?_
    exact ends_alloc (fun _ => ha) (fun e mem _ => ha) fun s dir mem hs _ =>
      ha.of_marks h (h.occupy hv.2 hs parent dir mem) (Marks.occupy k d.val queue s parent dir mem)
  | destroy d s =>
    cases hk
    exact (ha.of_marks h (h.destroy d.val hv.2) (Marks.destroy k d.val s)).hush
  | enter d =>
    obtain ⟨r, -, hpass⟩ := Visit.effect_enter_eq_ok hk
    exact (ha.leaves h hv hlooks (leaves_pass h hv hpass)).1
  | call d tf =>
    obtain ⟨r, -, htrap⟩ := Visit.effect_call_eq_ok hk
    exact (ha.trap h hv htrap).1

/-! ## What is marked is let be -/

omit [Memory M] in
/-- No word names what is marked, unless it stands for the caller. -/
theorem ne_of_resolve (hs : (k.env s).status = .dying) (hnot : k.current cpu ≠ some s)
    {raw : UInt32} {check : Bool} (h : k.resolve cpu raw check = .ok t) : s ≠ t := by
  rintro rfl
  rcases resolve_cases h with hcur | ⟨-, -, -, halive, -⟩
  · exact hnot hcur
  · exact halive hs

/-- A change on behalf of one environment leaves another one alone that is marked. -/
theorem Sound.env_change (h : Sound policy ncpu k) (hcpu : cpu < ncpu)
    (hs : (k.env s).status = .dying) (hnot : k.current cpu ≠ some s) (hk : Change cpu k k') :
    k'.env s = k.env s ∧ k'.current cpu = k.current cpu := by
  have hself : ∀ {t}, k.current cpu = some t → s ≠ t := by
    rintro t ht rfl
    exact hnot ht
  cases hk with
  | speak => exact ⟨rfl, rfl⟩
  | touch => exact ⟨rfl, rfl⟩
  | @amend t e he =>
    have hne : s ≠ t := by
      cases he with
      | save _ ht => exact hself ht
      | listen _ ht => exact hself ht
      | status hgoverns => exact ne_of_resolve hs hnot hgoverns.choose_spec
      | upcall _ hgoverns => exact ne_of_resolve hs hnot hgoverns.choose_spec
    exact ⟨env_setEnv_ne k e hne, rfl⟩
  | @fork p t dir mem _ ht =>
    have hne : s ≠ t := by
      rintro rfl
      cases hs.symm.trans (h.head (h.queueOf_lt hcpu) ht).2
    exact ⟨by rw [env_forked, if_neg hne], current_occupy k cpu t (k.env p).id dir mem cpu⟩

theorem Sound.env_changes (h : Sound policy ncpu k) (hcpu : cpu < ncpu)
    (hs : (k.env s).status = .dying) (hnot : k.current cpu ≠ some s) (hk : Changes cpu k k') :
    k'.env s = k.env s := by
  suffices hboth : Sound policy ncpu k' ∧ k'.env s = k.env s ∧ k'.current cpu ≠ some s from hboth.2.1
  induction hk with
  | refl => exact ⟨h, rfl, hnot⟩
  | tail _ hk ih =>
    obtain ⟨h, henv, hnot⟩ := ih
    obtain ⟨henv', hcur⟩ := h.env_change hcpu (by rw [henv]; exact hs) hnot hk
    exact ⟨h.change hcpu hk, henv'.trans henv, hcur ▸ hnot⟩

theorem env_destroy_ne (hne : s ≠ t) (cpu : Nat) : (k.destroy cpu t).2.env s = k.env s := by
  rcases destroy_cases k cpu t with ⟨-, hk⟩ | ⟨-, hk⟩
  · rw [hk]
    exact env_setEnv_ne k _ hne
  · rw [hk, env_free, if_neg hne]

/-- **A system call of another environment** leaves what is marked alone. -/
theorem Sound.env_syscall (h : Sound policy ncpu k) (hcpu : cpu < ncpu)
    (hs : (k.env s).status = .dying) (hnot : k.current cpu ≠ some s) (tf : TrapFrame) :
    (k.syscall cpu tf).2.env s = k.env s := by
  have hsaved : ∀ {t}, k.current cpu = some t → (k.save t tf).env s = k.env s := by
    rintro t ht
    refine env_setEnv_ne k _ ?_
    rintro rfl
    exact hnot ht
  rcases syscall_cases cpu tf k with hk | ⟨victim, hk⟩ | ⟨p, receiver, hk⟩
  · exact h.env_changes hcpu hs hnot hk
  · obtain ⟨p, text, k₁, hp, hraw, hk₁, hend⟩ := hk.ends
    have hps : s ≠ p := by
      rintro rfl
      exact hnot hp
    have hvictim : s ≠ victim := by
      refine ne_of_resolve (k := k.save p tf) ?_ hnot hraw
      rw [hsaved hp]
      exact hs
    have henv : k₁.env s = k.env s := by
      rw [hk₁, env_destroy_ne hvictim, env_say, hsaved hp]
    rcases hend with ⟨-, hk'⟩ | ⟨-, -, hk'⟩
    · rw [hk', henv]
    · rw [hk', ← henv]
      exact env_setEnv_ne k₁ _ hps
  · obtain ⟨k₁, hd, hk'⟩ := hk.ends
    have hps : s ≠ p := by
      rintro rfl
      exact hnot hk.current
    have hmarked : ((k.save p tf).env s).status = .dying := by
      rw [hsaved hk.current]
      exact hs
    have henv : k₁.env s = (k.save p tf).env s := by
      cases hd with
      | word _ hr => rw [env_deliver, if_neg (ne_of_resolve hmarked hnot hr)]
      | page _ hr =>
        rw [env_deliver, if_neg (ne_of_resolve hmarked hnot hr)]
        rfl
    rw [hk', ← hsaved hk.current, ← henv]
    exact env_setEnv_ne k₁ _ hps

/-- **Until its own CPU calls**, nobody touches the slot of what is marked. -/
theorem Attended.env_visit (ha : Attended k) (h : Sound policy ncpu k) (hv : v.Proper ncpu k)
    (honce : v.MarksOnce k) (hlooks : v.Looks k) (hs : (k.env s).status = .dying)
    (hother : ∀ tf, v ≠ .call (k.env s).cpu tf) (hk : v.effect k = .ok (x, k')) :
    k'.env s = k.env s := by
  have howns : Owns policy ncpu (k.env s).cpu s := h.owns_cpu (by rw [hs]; exact nofun)
  have hlt := h.division.lt_of_owns howns
  have htaken : ∀ {queue : Nat} {t : Slot}, queue < ncpu → (k.runQueue queue).freeHead = some t →
      s ≠ t := by
    rintro queue t hq ht rfl
    cases hs.symm.trans (h.head (h.queueOf_lt hq) ht).2
  cases v with
  | create d image queue =>
    cases hk
    refine Op.of_ends (P := fun k' => k'.env s = k.env s) ?_
    refine ends_create (fun _ => rfl) (fun e mem _ => rfl) (fun t dir mem e mem' ht _ _ => ?_)
      fun t dir mem entry mem' ht _ _ => ?_
    all_goals
      have hne := htaken hv.2 ht
      have hold : (k.occupy queue t none dir mem).env s = k.env s := by rw [env_occupy, if_neg hne]
    · rw [env_free, if_neg hne]
      exact hold
    · rw [launch, env_mapEnv, if_neg hne]
      exact hold
  | alloc d parent queue =>
    cases hk
    refine Op.of_ends (P := fun k' => k'.env s = k.env s) ?_
    exact ends_alloc (fun _ => rfl) (fun e mem _ => rfl) fun t dir mem ht _ => by
      rw [env_occupy, if_neg (htaken hv.2 ht)]
  | destroy d t =>
    cases hk
    refine env_destroy_ne ?_ d.val
    rintro rfl
    exact honce hs
  | enter d =>
    obtain ⟨r, -, hpass⟩ := Visit.effect_enter_eq_ok hk
    have hne : d ≠ (k.env s).cpu := by
      rintro rfl
      refine hlooks s ?_ hs
      rw [State.current, runQueue, h.queueOf_self hlt]
      exact ha s hs
    exact (h.untouched_leaves hv (h.not_owns_queueOf howns hv hne) (leaves_pass h hv hpass)).env
  | call d tf =>
    obtain ⟨r, -, htrap⟩ := Visit.effect_call_eq_ok hk
    have hne : d ≠ (k.env s).cpu := by
      rintro rfl
      exact hother tf rfl
    have hforeign := h.not_owns_queueOf howns hv hne
    have hnot : k.current d.val ≠ some s := fun hcur =>
      hforeign (h.current _ s (h.queueOf_lt hv) hcur).1
    rcases trap_cases h hv htrap with ⟨t, ht, -, hleaves⟩ | ⟨-, hleaves⟩
    · have hts : s ≠ t := by
        rintro rfl
        exact hnot ht
      have hfreed := (h.free (h.current_ne_free hv ht)).move hv .hush
      rw [(hfreed.untouched_leaves hv (hfreed.not_owns_queueOf howns hv hne) hleaves).env, env_hush,
        env_free, if_neg hts]
    · have hcalled := (((h.move hv .hush).effects (effects_syscall hv tf k.hush)).move hv .hush)
      rw [(hcalled.untouched_leaves hv (hcalled.not_owns_queueOf howns hv hne) hleaves).env, env_hush]
      exact (h.move hv .hush).env_syscall hv hs hnot tf

/-- **When its own CPU calls**, what is marked is freed, and its address space is gone. -/
theorem Attended.freed (ha : Attended k) (h : Sound policy ncpu k) (hs : (k.env s).status = .dying)
    (hcpu : cpu < ncpu) (hown : (k.env s).cpu.val = cpu) {tf : TrapFrame}
    (hk : k.trap cpu tf = .ok (r, k')) :
    (k'.env s).status = .free ∧ k'.memory = Memory.destroySpace (k.env s).pgdir k.memory := by
  have hcur : k.current cpu = some s := by
    rw [← hown] at hcpu ⊢
    rw [State.current, runQueue, h.queueOf_self hcpu]
    exact ha s hs
  rcases trap_cases h hcpu hk with ⟨t, ht, -, hleaves⟩ | ⟨halive, -⟩
  · obtain rfl : s = t := Option.some.inj (hcur.symm.trans ht)
    have hfree : (((k.free s).hush).env s).status = .free := by
      rw [env_hush, env_free, if_pos rfl]
    generalize hk₁ : (k.free s).hush = k₁ at hleaves hfree
    have hmem : k₁.memory = Memory.destroySpace (k.env s).pgdir k.memory := by
      rw [← hk₁, memory_hush, memory_free]
    cases hleaves with
    | idle => exact ⟨hfree, hmem⟩
    | @user u _ hrun =>
      -- a free slot is neither picked nor suspended
      have hne : s ≠ u := by
        rintro rfl
        exact Status.ne_free_of_canRun hrun hfree
      refine ⟨?_, by rw [memory_hush, memory_running, hmem]⟩
      rw [env_hush, env_running, if_neg hne, if_neg fun hsus => by cases hfree.symm.trans hsus.2]
      exact hfree
  · exact absurd hs (halive s hcur)

end State

namespace Machine

open State

variable {M : Type} [Memory M] {policy : Policy} {ncpu : Nat} {m₀ : M} {m m' : Machine M}
  {l : List (Deed (Machine M) Visit)} {v : Visit} {s : Slot}

theorem Past.attended (h : Past policy ncpu m₀ l m)
    (hl : ∀ e ∈ l, e.act.Looks e.before.kernel) : Attended m.kernel := by
  induction h with
  | start hstart =>
    obtain ⟨m, a, hfresh, hinit⟩ := hstart
    obtain ⟨k, hk, hm'⟩ := init_of_onKernel hfresh hinit
    intro s hs
    rw [hm'] at hs
    cases hs.symm.trans (vacant_of_init hk s).1
  | step h hstep ih =>
    obtain ⟨u, hran⟩ := Past.ran h
    obtain ⟨r, hr⟩ := hstep.effect
    exact (ih fun e he => hl e (.tail _ he)).visit hran.sound hstep.1 (hl _ (.head _)) hr

variable [MemoryView M] [LawfulMemory M]

/-- **Whoever is marked is reaped.** As long as no CPU has handed itself over while it ran what is
marked as dying, every marked environment is the one its CPU runs. Its slot is not touched until its
CPU calls, unless the environment is destroyed once more; the call frees the slot, destroys the
address space, and leaves nothing marked in the slice. -/
theorem Past.reaped_by_next_call (h : Past policy ncpu m₀ l m) (hm : Valid m₀)
    (hl : ∀ e ∈ l, e.act.Looks e.before.kernel) (hs : (m.kernel.env s).status = .dying) :
    m.kernel.current (m.kernel.env s).cpu.val = some s ∧
      (∀ v m', Steps ncpu m v m' → v.MarksOnce m.kernel → v.Looks m.kernel →
        (∀ tf, v ≠ .call (m.kernel.env s).cpu tf) → m'.kernel.env s = m.kernel.env s) ∧
      ∀ tf m', Steps ncpu m (.call (m.kernel.env s).cpu tf) m' →
        (m'.kernel.env s).status = .free ∧ ¬ Live m'.kernel.memory (m.kernel.env s).pgdir ∧
          ∀ t, (m'.kernel.env t).cpu = (m.kernel.env s).cpu → (m'.kernel.env t).status ≠ .dying := by
  obtain ⟨u, hran⟩ := h.ran
  have hsound := hran.sound
  have hhoused := hran.housed hm
  have hattended := h.attended hl
  have hocc : (m.kernel.env s).status ≠ .free := by
    rw [hs]
    exact nofun
  have hlt := hsound.division.lt_of_owns (hsound.owns_cpu hocc)
  refine ⟨?_, fun v m' hstep honce hlooks hother => ?_, fun tf m' hstep => ?_⟩
  · rw [State.current, runQueue, hsound.queueOf_self hlt]
    exact hattended s hs
  · obtain ⟨r, hr⟩ := hstep.effect
    exact hattended.env_visit hsound hstep.1 honce hlooks hs hother hr
  · obtain ⟨x, hr⟩ := hstep.effect
    obtain ⟨r, -, htrap⟩ := Visit.effect_call_eq_ok hr
    obtain ⟨hfree, hmem⟩ := hattended.freed hsound hs hlt rfl htrap
    obtain ⟨hafter, halive⟩ := hattended.trap hsound hlt htrap
    have hsound' := hsound.effects (effects_of_visit hsound hstep.1 hr)
    refine ⟨hfree, ?_, fun t ht hdying => halive t ?_ hdying⟩
    · rw [hmem, (LawfulMemory.destroySpace hhoused.valid (hhoused.live_pgdir hocc)).live]
      exact fun hlive => hlive.1 rfl
    · rw [State.current, runQueue, hsound'.queueOf_self hlt, ← ht]
      exact hafter t hdying

/-- The second of two CPUs destroys what the first one runs; the first one's next call frees it. -/
theorem Past.reaped_by_next_call_deferred :
    ∃ (l : List (Deed (Machine Frames) Visit)) (m m' : Machine Frames) (tf : TrapFrame),
      Past .perCpu 2 ({} : Frames) l m ∧ Valid ({} : Frames) ∧
        (∀ e ∈ l, e.act.Looks e.before.kernel) ∧ (m.kernel.env 0).status = .dying ∧
        Steps 2 m (.call (m.kernel.env 0).cpu tf) m' ∧ (m'.kernel.env 0).status = .free := by
  have hm : Valid ({} : Frames) := ⟨.nil, nofun⟩
  let c : CpuIndex := ⟨0, by decide⟩
  let d : CpuIndex := ⟨1, by decide⟩
  let tf : TrapFrame := TrapFrame.user.calling Call.yieldCpu.number {}
  obtain ⟨l, m, hpast, hseen⟩ := exists_past .perCpu 2 ({} : Frames)
    [.create c [0x7f] 0, .enter c, .destroy d 0]
    (fun l m => (decide (∀ e ∈ l, e.act.Looks e.before.kernel), (m.kernel.env 0).status,
      (step? 2 m (.call (m.kernel.env 0).cpu tf)).isSome))
    (b := (true, .dying, true)) (by decide +kernel)
  obtain ⟨hl, hseen⟩ := Prod.mk.inj hseen
  obtain ⟨hs, hsome⟩ := Prod.mk.inj hseen
  have hl := of_decide_eq_true hl
  obtain ⟨m', hm'⟩ := Option.isSome_iff_exists.1 hsome
  have hstep := steps_of_step? hm'
  obtain ⟨-, -, hfreed⟩ := hpast.reaped_by_next_call hm hl hs
  exact ⟨l, m, m', tf, hpast, hm, hl, hs, hstep, (hfreed tf m' hstep).1⟩

/-- A CPU that runs what is marked and only enters to schedule loses it: what is marked is not what the
CPU runs any more, and its next call does not free it. -/
theorem Past.lost_by_scheduling :
    ¬ ∀ (l : List (Deed (Machine Frames) Visit)) (m m' : Machine Frames) (s : Slot) (tf : TrapFrame),
      Past .perCpu 2 ({} : Frames) l m → (∀ e ∈ l, e.act.MarksOnce e.before.kernel) →
        (m.kernel.env s).status = .dying → Steps 2 m (.call (m.kernel.env s).cpu tf) m' →
          m.kernel.current (m.kernel.env s).cpu.val = some s ∨ (m'.kernel.env s).status ≠ .dying := by
  intro hclaim
  let c : CpuIndex := ⟨0, by decide⟩
  let d : CpuIndex := ⟨1, by decide⟩
  let tf : TrapFrame := TrapFrame.user.calling Call.yieldCpu.number {}
  -- of the two environments of the first CPU the one in slot 1 runs when it is marked
  obtain ⟨l, m, hpast, hseen⟩ := exists_past .perCpu 2 ({} : Frames)
    [.create c [0x7f] 0, .create c [0x7f] 0, .enter c, .destroy d 1, .enter c]
    (fun l m => (decide (∀ e ∈ l, e.act.MarksOnce e.before.kernel), (m.kernel.env 1).status,
      m.kernel.current (m.kernel.env 1).cpu.val,
      (step? 2 m (.call (m.kernel.env 1).cpu tf)).map fun m' => (m'.kernel.env 1).status))
    (b := (true, .dying, some 0, some .dying)) (by decide +kernel)
  obtain ⟨hl, hseen⟩ := Prod.mk.inj hseen
  obtain ⟨hs, hseen⟩ := Prod.mk.inj hseen
  obtain ⟨hcur, hafter⟩ := Prod.mk.inj hseen
  obtain ⟨m', hm', hs'⟩ := Option.map_eq_some_iff.1 hafter
  rcases hclaim l m m' 1 tf hpast (of_decide_eq_true hl) hs (steps_of_step? hm') with hrun | hgone
  · cases hcur.symm.trans hrun
  · exact hgone hs'

end Machine

end Exokernel
