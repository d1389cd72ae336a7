import Exokernel.Proofs.Reaping
import Exokernel.Proofs.Refusals
/-!
# What is marked as dying

From the moment an environment is marked as dying until its slot is free, nothing happens to it. No
CPU picks it, no word names it, and nobody writes into its slot or its address space; the only thing
left for it is to be freed, by a CPU that destroys it once more or by its own, which gives it up at the
next system call instead of performing that. `Inert` is what every visit leaves of a marked
environment that it does not free, whether the CPU of the environment attends to it or has lost it.
-/

namespace Exokernel

open MemoryView Memory

/-- The words of a call that name the environments it acts on. -/
def Call.targets (call : Call) (a : Args) : List UInt32 :=
  match call with
  | .envDestroy | .pageAlloc | .pageUnmap | .envSetStatus | .envSetUpcall | .ipcTrySend => [a.first]
  | .pageMap => [a.first, a.third]
  | .getEnvId | .exofork | .yieldCpu | .ipcRecv | .getCpuId => []

/-- Why a call is refused that names an environment it cannot act on. The one that sets a status looks
at the status first. -/
def Call.unmet (call : Call) (a : Args) : KernelError :=
  match call with
  | .envSetStatus => if State.settable? a.second = none then .invalidArgument else .badTarget
  | _ => .badTarget

namespace State

variable {M : Type} {k k' k'' : State M} {policy : Policy} {ncpu cpu : Nat} {s t : Slot}
  {r : Except NothingRunnable Dispatch}

/-! ## No CPU picks it -/

/-- What is picked can run. -/
theorem canRun_of_scan {rq : RunQueue} {n : Nat} (h : k.scan rq n s = .ok (some t)) :
    (k.env t).status = .runnable := by
  induction n generalizing s with
  | zero => cases h
  | succ n ih =>
    unfold scan at h
    cases hnext : rq.next s with
    | error e =>
      rw [hnext] at h
      cases h
    | ok u =>
      simp only [hnext, bind, Except.bind] at h
      split at h
      · next hu =>
        cases h
        exact hu.2
      · exact ih h

theorem canRun_of_select (h : k.select cpu = .ok (.ok s)) : (k.env s).status.canRun = true := by
  unfold select at h
  dsimp only at h
  split at h
  · cases h
  · cases hscan : k.scan (k.runQueue cpu) (k.runQueue cpu).len
        ((k.runQueue cpu).current.getD (k.runQueue cpu).idle) with
    | error e =>
      rw [hscan] at h
      cases h
    | ok found =>
      simp only [hscan, bind, Except.bind] at h
      cases found with
      | some t =>
        cases h
        rw [canRun_of_scan hscan]
        rfl
      | none =>
        dsimp only at h
        split at h
        · next hfind =>
          cases h
          exact (List.find?_eq_some_iff_append.1 hfind).1
        · cases h

/-- A CPU that leaves the kernel passes over what cannot run. -/
theorem Leaves.passes (h : Leaves cpu k r k') (hs : (k.env s).status.canRun = false) :
    k'.env s = k.env s ∧ k'.memory = k.memory ∧ ∀ d, r = .ok d → d.slot ≠ s := by
  cases h with
  | idle => exact ⟨rfl, rfl, nofun⟩
  | @user t _ hrun =>
    have hne : s ≠ t := by
      rintro rfl
      exact absurd (hs.symm.trans hrun) nofun
    refine ⟨?_, by rw [memory_hush, memory_running], ?_⟩
    · rw [env_hush, env_running, if_neg hne, if_neg]
      rintro ⟨-, hst⟩
      rw [hst] at hs
      cases hs
    · rintro d ⟨rfl⟩
      exact Ne.symm hne

/-! ## Nobody touches it -/

variable [Memory M]

/-- **The slot, and what its address space maps, are as they were.** -/
structure Inert (s : Slot) (k k' : State M) : Prop where
  env : k'.env s = k.env s
  mappings : ∀ va, Memory.lookup k'.memory (k.env s).pgdir va =
    Memory.lookup k.memory (k.env s).pgdir va

namespace Inert

theorem refl (k : State M) : Inert s k k := ⟨rfl, fun _ => rfl⟩

theorem trans (h : Inert s k k') (h' : Inert s k' k'') : Inert s k k'' := by
  refine ⟨h'.env.trans h.env, fun va => ?_⟩
  have hmap := h'.mappings va
  rw [h.env] at hmap
  exact hmap.trans (h.mappings va)

theorem setEnv (hne : s ≠ t) (e : Env) : Inert s k (k.setEnv t e) :=
  ⟨env_setEnv_ne k e hne, fun _ => rfl⟩

theorem hush (h : Inert s k k') : Inert s k k'.hush := ⟨h.env, h.mappings⟩

theorem leaves (hs : (k.env s).status.canRun = false) (h : Leaves cpu k r k') : Inert s k k' := by
  obtain ⟨henv, hmem, -⟩ := h.passes hs
  exact ⟨henv, fun va => by rw [hmem]⟩

end Inert

section Housed

variable [MemoryView M] [LawfulMemory M] {m₀ mem : M} {dir : PageDir} {P : PageDir → Nat → Prop}

omit [LawfulMemory M] in
/-- What is mapped elsewhere changes. -/
theorem Housed.inert_setMemory (h : Housed m₀ k) (hs : (k.env s).status ≠ .free)
    (hm : Keeps P k.memory mem) (hP : ∀ va, ¬ P (k.env s).pgdir va) :
    Inert s k { k with memory := mem } :=
  ⟨rfl, fun va => hm.lookup _ va (h.live_pgdir hs) (hP va)⟩

omit [LawfulMemory M] in
/-- A free slot is taken. -/
theorem Housed.inert_occupy (h : Housed m₀ k) (hs : (k.env s).status ≠ .free)
    (ht : (k.env t).status = .free) (hm : Made dir k.memory mem) (queue : Nat)
    (parent : Option EnvId) : Inert s k (k.occupy queue t parent dir mem) := by
  refine ⟨?_, fun va => hm.lookup _ va (h.live_pgdir hs)⟩
  rw [env_occupy, if_neg]
  rintro rfl
  exact hs ht

/-- Another slot is given back. -/
theorem Housed.inert_free (h : Housed m₀ k) (hs : (k.env s).status ≠ .free)
    (ht : (k.env t).status ≠ .free) (hne : s ≠ t) : Inert s k (k.free t) := by
  have hm := LawfulMemory.destroySpace h.valid (h.live_pgdir ht)
  refine ⟨by rw [env_free, if_neg hne], fun va => ?_⟩
  exact hm.lookup _ va (h.live_pgdir hs) fun heq => hne (h.apart s t _ ⟨hs, heq⟩ ⟨ht, rfl⟩)

theorem Housed.inert_destroy (h : Housed m₀ k) (hs : (k.env s).status ≠ .free)
    (ht : (k.env t).status ≠ .free) (hne : s ≠ t) : Inert s k (k.destroy cpu t).2 := by
  rcases destroy_cases k cpu t with ⟨-, hk⟩ | ⟨-, hk⟩
  · rw [hk]
    exact .setEnv hne _
  · rw [hk]
    exact h.inert_free hs ht hne

variable {tf : TrapFrame}

/-- **A change on behalf of another environment.** -/
theorem Housed.inert_change (h : Housed m₀ k) (hsound : Sound policy ncpu k) (hcpu : cpu < ncpu)
    (hs : (k.env s).status = .dying) (hnot : k.current cpu ≠ some s) (hk : Change cpu k k') :
    Inert s k k' := by
  have hocc : (k.env s).status ≠ .free := by
    rw [hs]
    exact nofun
  refine ⟨(hsound.env_change hcpu hs hnot hk).1, fun va => ?_⟩
  cases hk with
  | speak => rfl
  | amend => rfl
  | touch hm =>
    refine (h.inert_setMemory hocc (h.keeps_of_touches hsound hcpu hm) ?_).mappings va
    rintro va' ⟨t, ⟨raw, hraw⟩, heq⟩
    have ht := hsound.resolve_ne_free hcpu hraw
    exact ne_of_resolve hs hnot hraw (h.apart s t _ ⟨hocc, rfl⟩ ⟨ht, heq⟩)
  | fork _ _ hdir =>
    exact (LawfulMemory.createSpace_ok h.valid hdir).lookup _ va (h.live_pgdir hocc)

theorem Housed.inert_changes (h : Housed m₀ k) (hsound : Sound policy ncpu k) (hcpu : cpu < ncpu)
    (hs : (k.env s).status = .dying) (hnot : k.current cpu ≠ some s) (hk : Changes cpu k k') :
    Inert s k k' := by
  suffices hall : Sound policy ncpu k' ∧ Housed m₀ k' ∧ Inert s k k' ∧ k'.current cpu ≠ some s from
    hall.2.2.1
  induction hk with
  | refl => exact ⟨hsound, h, .refl k, hnot⟩
  | tail _ hk ih =>
    obtain ⟨hsound, h, hinert, hnot⟩ := ih
    have hdying := (congrArg Env.status hinert.env).trans hs
    have hcur := (hsound.env_change hcpu hdying hnot hk).2
    exact ⟨hsound.change hcpu hk, h.change hsound hcpu hk,
      hinert.trans (h.inert_change hsound hcpu hdying hnot hk), hcur ▸ hnot⟩

/-- **A message to another environment.** -/
theorem Housed.inert_delivery (h : Housed m₀ k) (hsound : Sound policy ncpu k) (hcpu : cpu < ncpu)
    (hs : (k.env s).status = .dying) (hnot : k.current cpu ≠ some s) {target value perm : UInt32}
    {srcva : Nat} {receiver : Slot} (hk : Delivery k cpu target value srcva perm receiver k') :
    Inert s k k' := by
  have hocc : (k.env s).status ≠ .free := by
    rw [hs]
    exact nofun
  cases hk with
  | word _ hr => exact .setEnv (ne_of_resolve hs hnot hr) _
  | page _ hr _ _ _ hinsert =>
    have ht := hsound.resolve_ne_free hcpu hr
    have hne := ne_of_resolve hs hnot hr
    have hm := LawfulMemory.insert_ok h.valid (h.live_pgdir ht) hinsert
    refine (h.inert_setMemory hocc hm ?_).trans (.setEnv hne _)
    rintro va ⟨heq, -⟩
    exact hne (h.apart s receiver _ ⟨hocc, heq⟩ ⟨ht, rfl⟩)

/-- **A system call of another environment.** -/
theorem Housed.inert_syscall (h : Housed m₀ k) (hsound : Sound policy ncpu k) (hcpu : cpu < ncpu)
    (hs : (k.env s).status = .dying) (hnot : k.current cpu ≠ some s) (tf : TrapFrame) :
    Inert s k (k.syscall cpu tf).2 := by
  have hocc : (k.env s).status ≠ .free := by
    rw [hs]
    exact nofun
  -- the caller's registers are saved before anything is done
  have hsaved : ∀ {p}, k.current cpu = some p → s ≠ p ∧ Sound policy ncpu (k.save p tf) ∧
      Housed m₀ (k.save p tf) ∧ Inert s k (k.save p tf) := by
    intro p hp
    have hne : s ≠ p := by
      rintro rfl
      exact hnot hp
    exact ⟨hne, hsound.setEnv (.of_registers _ _ _),
      h.setEnv (Env.Alike.of_registers _ _ _).toStays, .setEnv hne _⟩
  rcases syscall_cases cpu tf k with hk | ⟨victim, hk⟩ | ⟨p, receiver, hk⟩
  · exact h.inert_changes hsound hcpu hs hnot hk
  · obtain ⟨p, text, k₁, hp, hraw, hk₁, hend⟩ := hk.ends
    obtain ⟨hps, hsound', hhoused, hinert⟩ := hsaved hp
    have hdying := (congrArg Env.status hinert.env).trans hs
    have hsaid : Housed m₀ ((k.save p tf).say .debug Log.Target.calls text) :=
      hhoused.same (fun _ => .refl _) rfl
    have hgone : Inert s (k.save p tf) k₁ := by
      have hself : Inert s (k.save p tf) ((k.save p tf).say .debug Log.Target.calls text) :=
        ⟨rfl, fun _ => rfl⟩
      rw [hk₁]
      refine hself.trans (hsaid.inert_destroy ?_ (hsound'.resolve_ne_free hcpu hraw)
        (ne_of_resolve hdying hnot hraw))
      rw [env_say, hinert.env]
      exact hocc
    rcases hend with ⟨-, hk'⟩ | ⟨-, -, hk'⟩
    · rw [hk']
      exact hinert.trans hgone
    · rw [hk']
      exact (hinert.trans hgone).trans (.setEnv hps _)
  · obtain ⟨k₁, hd, hk'⟩ := hk.ends
    obtain ⟨hps, hsound', hhoused, hinert⟩ := hsaved hk.current
    have hdying := (congrArg Env.status hinert.env).trans hs
    rw [hk']
    exact (hinert.trans (hhoused.inert_delivery hsound' hcpu hdying hnot hd)).trans (.setEnv hps _)

/-! ## Visits -/

variable {v : Visit} {x : Option (Except NothingRunnable Dispatch)}

/-- A new environment in another slot. -/
theorem Housed.inert_create (h : Housed m₀ k) (hsound : Sound policy ncpu k) (hcpu : cpu < ncpu)
    (hs : (k.env s).status ≠ .free) (image : Image) :
    Inert s k ((State.create image cpu).run k).2 := by
  refine Op.of_ends (P := Inert s k) ?_
  refine ends_create (fun _ => .refl k) (fun e mem he => ?_) (fun t dir mem e mem' ht hdir hload => ?_)
    fun t dir mem entry mem' ht hdir hload => ?_
  · exact h.inert_setMemory hs (LawfulMemory.createSpace_error h.valid he) fun _ => id
  all_goals
    have hfree := (hsound.head (hsound.queueOf_lt hcpu) ht).2
    have hmade := LawfulMemory.createSpace_ok h.valid hdir
    have hne : s ≠ t := by
      rintro rfl
      exact hs hfree
    have hlive : Live mem dir := (hmade.live dir).2 (.inl rfl)
  · have hgone : Unchanged k.memory
        (State.free t { k.occupy cpu t none dir mem with memory := mem' }).memory :=
      h.unchanged_create hdir hload
    refine ⟨?_, fun va => hgone.lookup _ va (h.live_pgdir hs) id⟩
    rw [env_free, if_neg hne]
    exact (env_occupy k cpu t s none dir mem).trans (if_neg hne)
  · have htaken := h.inert_occupy hs hfree hmade cpu none
    have hhoused := h.occupy hfree hmade cpu none
    have hocc : ((k.occupy cpu t none dir mem).env s).status ≠ .free := by
      rw [htaken.env]
      exact hs
    have hloaded := LawfulMemory.loadImage_ok hmade.valid hlive hload
    refine (htaken.trans (hhoused.inert_setMemory hocc hloaded ?_)).trans (.setEnv hne _)
    -- the program goes into the new address space, which nobody had
    intro va heq
    rw [htaken.env] at heq
    exact hmade.fresh (heq ▸ h.live_pgdir hs)

theorem Housed.inert_alloc (h : Housed m₀ k) (hsound : Sound policy ncpu k) (hcpu : cpu < ncpu)
    (hs : (k.env s).status ≠ .free) (parent : Option EnvId) :
    Inert s k ((State.alloc parent cpu).run k).2 := by
  refine Op.of_ends (P := Inert s k) ?_
  refine ends_alloc (fun _ => .refl k) (fun e mem he => ?_) fun t dir mem ht hdir => ?_
  · exact h.inert_setMemory hs (LawfulMemory.createSpace_error h.valid he) fun _ => id
  · exact h.inert_occupy hs (hsound.head (hsound.queueOf_lt hcpu) ht).2
      (LawfulMemory.createSpace_ok h.valid hdir) cpu parent

/-- **Whatever a CPU does in the kernel**, what is marked is freed or let be, and does not get a
CPU. -/
theorem Housed.inert_visit (h : Housed m₀ k) (hsound : Sound policy ncpu k) (hv : v.Proper ncpu k)
    (hs : (k.env s).status = .dying) (hk : v.effect k = .ok (x, k')) :
    ((k'.env s).status = .free ∨ Inert s k k') ∧ ∀ d, x = some (.ok d) → d.slot ≠ s := by
  have hocc : (k.env s).status ≠ .free := by
    rw [hs]
    exact nofun
  have hcannot : ∀ {k₁ : State M}, Inert s k k₁ → (k₁.env s).status.canRun = false := by
    intro k₁ h₁
    rw [h₁.env, hs]
    rfl
  have hout : ∀ {r k₁}, Inert s k k₁ → Leaves v.cpu.val k₁ r k' →
      ((k'.env s).status = .free ∨ Inert s k k') ∧ ∀ d, some r = some (.ok d) → d.slot ≠ s := by
    intro r k₁ h₁ hleaves
    refine ⟨.inr (h₁.trans (.leaves (hcannot h₁) hleaves)), fun d hd => ?_⟩
    exact (hleaves.passes (hcannot h₁)).2.2 d (Option.some.inj hd)
  cases v with
  | create d image queue =>
    cases hk
    exact ⟨.inr (h.inert_create hsound hv.2 hocc image).hush, nofun⟩
  | alloc d parent queue =>
    cases hk
    exact ⟨.inr (h.inert_alloc hsound hv.2 hocc parent).hush, nofun⟩
  | destroy d t =>
    cases hk
    refine ⟨?_, nofun⟩
    by_cases hst : s = t
    · -- it does not run, so it is not marked once more
      subst hst
      refine .inl ?_
      rcases destroy_cases k d.val s with ⟨⟨hrun, -⟩, -⟩ | ⟨-, hfree⟩
      · cases hs.symm.trans hrun
      · rw [env_hush, hfree, env_free, if_pos rfl]
    · exact .inr (h.inert_destroy hocc hv.2 hst).hush
  | enter d =>
    obtain ⟨r, rfl, hpass⟩ := Visit.effect_enter_eq_ok hk
    exact hout (.refl k) (leaves_pass hsound hv hpass)
  | call d tf =>
    obtain ⟨r, rfl, htrap⟩ := Visit.effect_call_eq_ok hk
    rcases trap_cases hsound hv htrap with ⟨t, ht, -, hleaves⟩ | ⟨halive, hleaves⟩
    · by_cases hst : s = t
      · subst hst
        have hfree : ((k.free s).hush.env s).status = .free := by
          rw [env_hush, env_free, if_pos rfl]
        obtain ⟨henv, -, hpassed⟩ := hleaves.passes (s := s) (by rw [hfree]; rfl)
        exact ⟨.inl (by rw [henv, hfree]), fun d hd => hpassed d (Option.some.inj hd)⟩
      · exact hout (h.inert_free hocc (hsound.current_ne_free hv ht) hst).hush hleaves
    · have hushed : Housed m₀ k.hush := h.same (fun _ => .refl _) rfl
      have hnot : k.hush.current d.val ≠ some s := fun hcur => halive s hcur hs
      have hcalled := hushed.inert_syscall (hsound.move hv .hush) hv hs hnot tf
      have hself : Inert s k k.hush := (Inert.refl k).hush
      exact hout (hself.trans hcalled).hush hleaves

end Housed

/-! ## No call gets at it -/

/-- Whoever went by an identifier went by one of the slot. -/
theorem Sound.slot_of_lastId (h : Sound policy ncpu k)
    (hnamed : ∀ s id, (k.env s).lastId = some id → id.slot = s) (hk : Effects ncpu k k') :
    ∀ s id, (k'.env s).lastId = some id → id.slot = s := by
  suffices hboth : Sound policy ncpu k' ∧ ∀ s id, (k'.env s).lastId = some id → id.slot = s from
    hboth.2
  induction hk with
  | refl => exact ⟨h, hnamed⟩
  | tail _ hk ih =>
    obtain ⟨h, hnamed⟩ := ih
    refine ⟨h.effect hk, fun s id hid => ?_⟩
    rcases h.lastId_effect hk s with heq | ⟨-, heq⟩
    · exact hnamed s id (heq.symm.trans hid)
    · rw [← Option.some.inj (heq.symm.trans hid), EnvId.slot_next]

omit [Memory M] in
/-- The identifier of what is marked is no good, whoever uses it. -/
theorem resolve_of_dying {id : EnvId} (hs : (k.env id.slot).status = .dying) (cpu : Nat)
    (check : Bool) : k.resolve cpu id.raw check = .error .badTarget := by
  have hsome : EnvId.ofRaw? id.raw = some id := dif_pos id.raw_ne_zero
  unfold resolve
  rw [hsome]
  exact if_pos (.inr (.inl hs))

omit [Memory M] in
/-- A word that names nobody is refused for that reason. -/
theorem eq_badTarget_of_resolve {raw : UInt32} {check : Bool} {e : KernelError}
    (h : k.resolve cpu raw check = .error e) : e = .badTarget := by
  unfold resolve at h
  split at h
  · split at h <;> cases h
    rfl
  · dsimp only at h
    split at h
    · cases h
      rfl
    · split at h <;> cases h
      rfl

omit [Memory M] in
/-- An operation that ends with a refusal only is refused. -/
theorem eq_error_of_ends {α : Type} {op : Op M α} {e : KernelError}
    (h : Ends op k fun r k' => r = .error e ∧ k' = k) : op k = .error e k := by
  cases hop : op k with
  | ok a k' => cases (h.of_ok hop).1
  | error e' k' =>
    obtain ⟨he, rfl⟩ := h.of_error hop
    cases he
    rfl

/-- **A call that names nobody** is refused before it does anything. -/
theorem perform_of_unmet {call : Call} {a : Args} {raw : UInt32} (hc : k.current cpu = some s)
    (hraw : raw ∈ call.targets a) (hbad : ∀ check, k.resolve cpu raw check = .error .badTarget) :
    perform cpu call a k = .error (call.unmet a) k := by
  refine eq_error_of_ends ?_
  cases call with
  | getEnvId | exofork | yieldCpu | ipcRecv | getCpuId => cases hraw
  | envDestroy | pageAlloc | pageUnmap | envSetUpcall =>
    obtain rfl := List.mem_singleton.1 hraw
    simp only [perform, perform.done, envDestroy, pageAlloc, pageUnmap, setUpcall, target,
      Ends.bind_iff, Ends.get_iff, Op.ends_ofExcept, hbad, Call.unmet, and_self]
  | envSetStatus =>
    obtain rfl := List.mem_singleton.1 hraw
    simp only [perform, perform.done, setStatus, target, Ends.bind_iff, Ends.get_iff,
      Op.ends_ofExcept, Op.ends_ofOption, hbad, Call.unmet]
    -- the status comes first
    cases hst : settable? a.second <;> simp
  | pageMap =>
    simp only [perform, perform.done, pageMap, target, Ends.bind_iff, Ends.get_iff,
      Op.ends_ofExcept]
    cases hsrc : k.resolve cpu a.first true with
    | error e =>
      obtain rfl := eq_badTarget_of_resolve hsrc
      simp [Call.unmet]
    | ok src =>
      have hdst : raw = a.third := by
        rcases List.mem_cons.1 hraw with rfl | hthird
        · cases hsrc.symm.trans (hbad true)
        · exact List.mem_singleton.1 hthird
      simp [← hdst, hbad, Call.unmet]
  | ipcTrySend =>
    obtain rfl := List.mem_singleton.1 hraw
    simp only [perform, perform.done, ipcTrySend, Ends.bind_iff, Ends.get_iff, Op.ends_ofOption,
      Op.ends_ofExcept, hbad, hc, Call.unmet, and_self]
    exact ⟨fun _ _ => trivial, fun hidle => absurd hidle (Option.some_ne_none s)⟩

/-- **A system call that names what is marked** does nothing but tell the caller so. -/
theorem syscall_of_dying {id : EnvId} {c : Slot} {call : Call} {tf : TrapFrame}
    (hs : (k.env id.slot).status = .dying) (hc : k.current cpu = some c)
    (hnumber : tf.eax = call.number) (hraw : id.raw ∈ call.targets tf.args) :
    k.syscall cpu tf = (.resume, (k.save c tf).setResult c
      (encodeResult (.error (call.unmet tf.args).toCallError))) := by
  have hsaved : ((k.save c tf).env id.slot).status = .dying := by
    rw [env_save]
    split
    · next h => rw [← h, hs]
    · exact hs
  have hperform := perform_of_unmet (k := k.save c tf) hc hraw (resolve_of_dying hsaved cpu)
  refine syscall_of_error hc ?_
  rw [hnumber, performNumber, Call.ofNumber?_number]
  exact hperform

/-- **The call of a CPU that runs what is marked** is not performed. The environment is given up, and the
CPU schedules. -/
theorem trap_of_dying (hc : k.current cpu = some s) (hs : (k.env s).status = .dying)
    (tf : TrapFrame) : k.trap cpu tf = (k.free s).hush.pass cpu := by
  unfold trap reap
  rw [hc]
  simp only [if_pos hs]

end State

namespace Machine

open State

variable {M : Type} [Memory M] {policy : Policy} {ncpu : Nat} {m₀ : M} {m m' : Machine M}
  {l newer older : List (Deed (Machine M) Visit)} {e : Deed (Machine M) Visit} {s : Slot}

/-- An identifier names the slot of whoever goes by it. -/
theorem Past.slot_of_id (h : Past policy ncpu m₀ l m) {id : EnvId}
    (hid : (m.kernel.env s).id = some id) : id.slot = s := by
  obtain ⟨u, hran⟩ := h.ran
  have hboth : Sound policy ncpu m.kernel ∧
      ∀ s id, (m.kernel.env s).lastId = some id → id.slot = s := by
    refine hran.invariant (P := fun k => Sound policy ncpu k ∧
      ∀ s id, (k.env s).lastId = some id → id.slot = s) (fun k hk => ?_) fun k k' v x hk _ hv hx => ?_
    · refine ⟨(Reached.init hk).sound.alike rfl rfl fun _ => .refl _, fun s id hid => ?_⟩
      cases (vacant_of_init hk s).2.1.symm.trans hid
    · have heffects := effects_of_visit hk.1 hv hx
      exact ⟨hk.1.effects heffects, hk.1.slot_of_lastId hk.2 heffects⟩
  exact hboth.2 s id (Env.id_eq_some_iff.1 hid).2

variable [MemoryView M] [LawfulMemory M]

/-- **From the moment of the mark**, until it is freed, nothing happens to an environment. -/
theorem Past.freed_or_inert (h : Past policy ncpu m₀ (newer ++ e :: older) m) (hm : Valid m₀)
    (hs : (e.before.kernel.env s).status = .dying)
    (hkept : ∀ e' ∈ newer, (e'.before.kernel.env s).status ≠ .free) :
    (m.kernel.env s).status = .free ∨ Inert s e.before.kernel m.kernel := by
  -- the induction is on what was done since
  induction newer generalizing m with
  | nil =>
    cases h with
    | step h hstep =>
      obtain ⟨u, hran⟩ := Past.ran h
      obtain ⟨x, hx⟩ := hstep.effect
      exact ((hran.housed hm).inert_visit hran.sound hstep.1 hs hx).1
  | cons e' newer ih =>
    cases h with
    | step h hstep =>
      obtain ⟨u, hran⟩ := Past.ran h
      obtain ⟨x, hx⟩ := hstep.effect
      rcases ih h fun e'' he'' => hkept e'' (.tail _ he'') with hfree | hinert
      · exact absurd hfree (hkept _ (.head _))
      · have hdying := (congrArg Env.status hinert.env).trans hs
        exact ((hran.housed hm).inert_visit hran.sound hstep.1 hdying hx).1.imp_right hinert.trans

/-- **A marked environment is inert.** From the moment an environment is marked as dying its slot and
the mappings of its address space stay as they are until the slot is free. While it is marked no CPU
picks it and no CPU that leaves the kernel has been given it; a system call on any CPU that names it
is refused, because there is nobody to act on or because the call found fault with its status
argument first, and changes nothing but the caller's registers, which tell that; and the call with
which a CPU comes in that still runs it is not performed, whatever it is. -/
theorem Past.dying_is_inert (h : Past policy ncpu m₀ l m) (hm : Valid m₀) (s : Slot) :
    (∀ newer e older, l = newer ++ e :: older → (e.before.kernel.env s).status = .dying →
        (∀ e' ∈ newer, (e'.before.kernel.env s).status ≠ .free) →
        (m.kernel.env s).status = .free ∨ Inert s e.before.kernel m.kernel) ∧
      ((m.kernel.env s).status = .dying →
        (∀ cpu, m.kernel.select cpu ≠ .ok (.ok s)) ∧
        (∀ (v : Visit) (d : Dispatch) (k' : State M), v.Proper ncpu m.kernel →
          v.effect m.kernel = .ok (some (.ok d), k') → d.slot ≠ s) ∧
        (∀ id cpu c call tf, (m.kernel.env s).id = some id → m.kernel.current cpu = some c →
          tf.eax = Call.number call → id.raw ∈ call.targets tf.args →
          m.kernel.syscall cpu tf = (.resume, (m.kernel.save c tf).setResult c
            (encodeResult (.error (call.unmet tf.args).toCallError)))) ∧
        ∀ cpu tf, m.kernel.current cpu = some s →
          m.kernel.trap cpu tf = (m.kernel.free s).hush.pass cpu) := by
  obtain ⟨u, hran⟩ := h.ran
  refine ⟨?_, fun hs => ⟨fun cpu hsel => ?_, fun v d k' hv hk => ?_, ?_, fun cpu tf hc => ?_⟩⟩
  · rintro newer e older rfl hs hkept
    exact h.freed_or_inert hm hs hkept
  · have hrun := canRun_of_select hsel
    rw [hs] at hrun
    cases hrun
  · exact ((hran.housed hm).inert_visit hran.sound hv hs hk).2 d rfl
  · intro id cpu c call tf hid hc hnumber hraw
    obtain rfl := h.slot_of_id hid
    exact syscall_of_dying hs hc hnumber hraw
  · exact trap_of_dying hc hs tf

/-- The second of two CPUs marks what the first one runs, which schedules another environment. It keeps
the mark and everything else, and who runs instead cannot send it a message. -/
theorem Past.dying_is_inert_lost :
    ∃ (e : Deed (Machine Frames) Visit) (older : List (Deed (Machine Frames) Visit))
      (m : Machine Frames) (id : EnvId), Past .perCpu 2 ({} : Frames) (e :: older) m ∧
        Valid ({} : Frames) ∧ (m.kernel.env 1).status = .dying ∧ (m.kernel.env 1).id = some id ∧
        m.kernel.current 0 = some 0 ∧ Inert 1 e.before.kernel m.kernel ∧
        ∀ tf : TrapFrame, tf.eax = Call.ipcTrySend.number → tf.args.first = id.raw →
          m.kernel.syscall 0 tf = (.resume, (m.kernel.save 0 tf).setResult 0
            (encodeResult (.error .badTarget))) := by
  have hm : Valid ({} : Frames) := ⟨.nil, nofun⟩
  let c : CpuIndex := ⟨0, by decide⟩
  let d : CpuIndex := ⟨1, by decide⟩
  obtain ⟨l, m, hpast, hseen⟩ := exists_past .perCpu 2 ({} : Frames)
    [.create c [0x7f] 0, .create c [0x7f] 0, .enter c, .destroy d 1, .enter c]
    (fun l m => (l.head?.map fun e => (e.before.kernel.env 1).status, (m.kernel.env 1).status,
      m.kernel.current 0, (m.kernel.env 1).id.isSome))
    (b := (some .dying, .dying, some 0, true)) (by decide +kernel)
  obtain ⟨hbefore, hseen⟩ := Prod.mk.inj hseen
  obtain ⟨hdying, hseen⟩ := Prod.mk.inj hseen
  obtain ⟨hcur, hsome⟩ := Prod.mk.inj hseen
  obtain ⟨e, hhead, hmarked⟩ := Option.map_eq_some_iff.1 hbefore
  obtain ⟨older, rfl⟩ := List.head?_eq_some_iff.1 hhead
  obtain ⟨id, hid⟩ := Option.isSome_iff_exists.1 hsome
  obtain ⟨hkept, hnow⟩ := hpast.dying_is_inert hm 1
  obtain ⟨-, -, hcalls, -⟩ := hnow hdying
  have hinert := (hkept [] e older rfl hmarked fun _ h => absurd h List.not_mem_nil).resolve_left
    (by rw [hdying]; decide)
  refine ⟨e, older, m, id, hpast, hm, hdying, hid, hcur, hinert, fun tf hnumber hfirst => ?_⟩
  exact hcalls id 0 0 .ipcTrySend tf hid hcur hnumber (List.mem_singleton.2 hfirst.symm)

end Machine

end Exokernel
