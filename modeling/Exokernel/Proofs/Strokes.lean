import Exokernel.Proofs.Moments
/-!
# The strokes of a machine

A start is made of accesses to registers and ports and of turns of a waiting loop. `Goes` is pushed
through the parts a computation is put together from, as `Ends` is, and at each stroke it asks for what
holds of the machine then, so it speaks of every moment of a run. What a stroke comes to while a
processor is on its way is told by `Underway`.
-/

namespace Exokernel

namespace Machine

variable {M α β : Type}

/-! ## Every moment on the way -/

/-- From `m` the computation goes through, to an answer and a machine that satisfy `Q`, and every machine
it passes satisfies `P`. -/
def Goes (P : Machine M → Prop) (x : Seen M α) (m : Machine M) (Q : α → Machine M → Prop) : Prop :=
  Recounts x m fun l a m' => (∀ t ∈ l, P t.machine) ∧ Q a m'

namespace Goes

variable {P P' : Machine M → Prop} {x : Seen M α} {m : Machine M} {Q Q' : α → Machine M → Prop}

theorem imp (h : Goes P x m Q) (hP : ∀ t, P t → P' t) (hQ : ∀ a t, Q a t → Q' a t) :
    Goes P' x m Q' :=
  Recounts.imp h fun _ a m' hl => ⟨fun t ht => hP t.machine (hl.1 t ht), hQ a m' hl.2⟩

theorem pure {a : α} (h : Q a m) : Goes P (pure a) m Q := Recounts.pure ⟨List.forall_mem_nil _, h⟩

theorem get {Q : Machine M → Machine M → Prop} (h : Q m m) : Goes P get m Q :=
  Recounts.get ⟨List.forall_mem_nil _, h⟩

theorem cpuSet {Q : CpuSet → Machine M → Prop} (h : Q m.cpus m) : Goes P cpuSet m Q :=
  Recounts.cpuSet ⟨List.forall_mem_nil _, h⟩

/-- **A stroke** has to end as it should, and the machine it leads to is passed. -/
theorem stroke {y : Act M α} {asked : Bool} (h : Completes y m fun a t => P t ∧ Q a t) :
    Goes P (stroke y asked) m Q :=
  Recounts.stroke (h.imp fun _ _ ht => ⟨List.forall_mem_singleton.2 ht.1, ht.2⟩)

/-- **One after the other.** -/
theorem bind {f : α → Seen M β} {Q : β → Machine M → Prop}
    (h : Goes P x m fun a t => Goes P (f a) t Q) : Goes P (x >>= f) m Q := by
  refine Recounts.bind (Recounts.imp h fun l a m₁ hl => Recounts.imp hl.2 fun l' b m' hl' => ?_)
  refine ⟨fun t ht => ?_, hl'.2⟩
  rcases List.mem_append.1 ht with ht | ht
  · exact hl.1 t ht
  · exact hl'.1 t ht

end Goes

end Machine

/-! ## What the bench keeps -/

/-- The register that tells where a command goes, if the device has one. -/
def Device.destination : Device → Option UInt32
  | .file values _ => some (valueAt values LocalApic.commandHigh)
  | _ => none

/-- The patience that reading the device can still cost. -/
def Device.stall : Device → Nat
  | .file _ (some b) => b.count
  | _ => 0

namespace Device

variable {d : Device} {offset : Nat} {value : UInt32}

theorem stall_afterWrite : (d.afterWrite offset value).stall = d.stall := by
  cases d with
  | file values busy => cases busy <;> rfl
  | window selected values =>
    change (if _ then _ else if _ then _ else _ : Device).stall = _
    split
    · rfl
    · split <;> rfl
  | words values =>
    change (if _ : _ then _ else _ : Device).stall = _
    split <;> rfl

/-- **A busy register** costs one unit of what reading the device can cost. -/
theorem stall_afterRead (d : Device) (offset : Nat) :
    (d.afterRead offset).stall + (if d.isBusy offset then 1 else 0) = d.stall := by
  cases d with
  | file values busy =>
    cases busy with
    | none => rfl
    | some b =>
      by_cases ho : b.offset = offset
      · by_cases hc : b.count = 0
        · simp [afterRead, isBusy, stall, ho, hc]
        · simp [afterRead, isBusy, stall, ho, hc]
          omega
      · simp [afterRead, isBusy, stall, ho]
  | window selected values => rfl
  | words values => rfl

theorem accepts_of_mod (h : offset % wordSize = 0) : d.accepts offset = true := by
  unfold accepts
  split
  · exact beq_iff_eq.2 h
  · rfl

theorem destination_afterRead : (d.afterRead offset).destination = d.destination := by
  unfold afterRead
  split
  · split <;> rfl
  · rfl

theorem destination_afterWrite : (d.afterWrite offset value).destination =
    if offset = LocalApic.commandHigh then d.destination.map fun _ => value
    else d.destination := by
  cases d with
  | file values busy =>
    by_cases h : offset = LocalApic.commandHigh
    · subst h
      simp [afterWrite, destination, valueAt]
    · simp [afterWrite, destination, valueAt, Assoc.get?_insert_ne _ _ (Ne.symm h), h]
  | window selected values =>
    simp only [afterWrite]
    split <;> (try split) <;> simp [destination]
  | words values =>
    simp only [afterWrite]
    split <;> simp [destination]

/-- A device whose commands go somewhere can be seen from outside. -/
theorem visible_of_destination {high : UInt32} (h : d.destination = some high) :
    d.visible = true := by
  cases d with
  | file => rfl
  | window => cases h
  | words => cases h

/-- What a write to a register can be seen as. -/
def shown (d : Device) (paddr offset : Nat) (value : UInt32) : List Event :=
  if d.visible then [.wrote paddr offset value] else []

end Device

/-- The event is a write: to a register, to a port or to low memory. -/
def Event.isWrite : Event → Bool
  | .wrote _ _ _ | .portOut _ _ | .stored _ _ => true
  | _ => false

namespace Bench

/-- A turn of a waiting loop takes a unit of patience. -/
theorem spin_eq {b : Bench} {q : Nat} (h : b.patience = q + 1) :
    spin b = .ok ⟨⟩ { b with events := .spun :: b.events, patience := q } := by
  obtain ⟨devices, ports, logger, log, events, patience⟩ := b
  obtain rfl : patience = q + 1 := h
  rfl

/-- What was written, oldest first. -/
def written (b : Bench) : List Event := (b.events.filter Event.isWrite).reverse

/-- Since `b₀` the bench was written to as `l` says. Device `n`, which is at `paddr`, satisfies `D`, all
others are as they were, and there is patience to spare for `k` turns of waiting loops. -/
structure Serves (b₀ : Bench) (n paddr : Nat) (l : List Event) (D : Device → Prop) (k : Nat)
    (b : Bench) : Prop where
  written : b.written = b₀.written ++ l
  device : ∃ d, b.devices[n]? = some ⟨paddr, d⟩ ∧ D d ∧ d.stall + k ≤ b.patience
  others : ∀ j, j ≠ n → b.devices[j]? = b₀.devices[j]?

theorem written_cons {b b' : Bench} {e : Event} (h : b'.events = e :: b.events) :
    b'.written = b.written ++ if e.isWrite then [e] else [] := by
  unfold written
  rw [h, List.filter_cons]
  split <;> simp

theorem written_cons_of_not {b b' : Bench} {e : Event} (he : e.isWrite = false)
    (h : b'.events = e :: b.events := by rfl) : b'.written = b.written := by
  rw [written_cons h, he]
  exact List.append_nil _

namespace Serves

variable {b₀ b : Bench} {n paddr k offset : Nat} {l : List Event} {D : Device → Prop}
  {value : UInt32}

/-- What is served may be said more loosely. -/
theorem imp (h : Serves b₀ n paddr l D k b) {D' : Device → Prop} {k' : Nat}
    (hD : ∀ d, D d → D' d) (hk : k' ≤ k) : Serves b₀ n paddr l D' k' b := by
  obtain ⟨d, hd, hDd, hpat⟩ := h.device
  exact ⟨h.written, ⟨d, hd, hD d hDd, by omega⟩, h.others⟩

/-- Something happens at the bench that its devices have no part in. -/
theorem aside (h : Serves b₀ n paddr l D k b) {b' : Bench} {l' : List Event}
    (hdevices : b'.devices = b.devices) (hpatience : b'.patience = b.patience)
    (hwritten : b'.written = b.written ++ l') : Serves b₀ n paddr (l ++ l') D k b' := by
  refine ⟨?_, ?_, ?_⟩
  · rw [hwritten, h.written, List.append_assoc]
  · rw [hdevices, hpatience]
    exact h.device
  · rw [hdevices]
    exact h.others

theorem quietly (h : Serves b₀ n paddr l D k b) {b' : Bench} (hdevices : b'.devices = b.devices)
    (hpatience : b'.patience = b.patience) (hwritten : b'.written = b.written) :
    Serves b₀ n paddr l D k b' := by
  have hsame := h.aside hdevices hpatience (hwritten.trans (List.append_nil _).symm)
  rwa [List.append_nil] at hsame

theorem emit (h : Serves b₀ n paddr l D k b) (e : Event) :
    Serves b₀ n paddr (l ++ if e.isWrite then [e] else []) D k
      { b with events := e :: b.events } :=
  h.aside rfl rfl (written_cons rfl)

/-- **What was served before** and what is served since. -/
theorem trans {b₁ : Bench} {l' : List Event} {D' : Device → Prop} {k' : Nat}
    (h : Serves b₀ n paddr l D k b₁) (h' : Serves b₁ n paddr l' D' k' b) :
    Serves b₀ n paddr (l ++ l') D' k' b := by
  refine ⟨?_, h'.device, fun j hj => (h'.others j hj).trans (h.others j hj)⟩
  rw [h'.written, h.written, List.append_assoc]

/-- Device `n` is replaced. -/
theorem put (h : Serves b₀ n paddr l D k b) {d' : Device} {q : Nat} (hq : d'.stall + k ≤ q) :
    Serves b₀ n paddr l (· = d') k
      { b with devices := b.devices.setIfInBounds n ⟨paddr, d'⟩, patience := q } := by
  obtain ⟨d, hd, -⟩ := h.device
  obtain ⟨hn, -⟩ := Array.getElem?_eq_some_iff.1 hd
  refine ⟨h.written, ⟨d', ?_, rfl, hq⟩, fun j hj => ?_⟩
  · exact (Array.getElem?_setIfInBounds_self_of_lt hn)
  · exact (Array.getElem?_setIfInBounds_ne (Ne.symm hj)).trans (h.others j hj)

/-- The device of the number is there. -/
theorem ends_deviceAt {d : Device} (hd : b.devices[n]? = some ⟨paddr, d⟩)
    (ho : offset % Device.wordSize = 0) :
    Ends (deviceAt n offset) b fun r t => r = .ok ⟨paddr, d⟩ ∧ t = b := by
  unfold deviceAt
  simp only [Ends.bind_iff, Ends.get_iff, hd, Device.accepts_of_mod ho]
  exact ⟨rfl, rfl⟩

/-- **Reading a register.** A busy one costs patience. -/
theorem read (h : Serves b₀ n paddr l D k b) (ho : offset % Device.wordSize = 0) :
    Ends (readRegister n offset) b fun r t => ∃ d, D d ∧ r = .ok (d.answer offset) ∧
      Serves b₀ n paddr l (· = d.afterRead offset) k t := by
  obtain ⟨d, hd, hDd, hpat⟩ := h.device
  have hstall := d.stall_afterRead offset
  unfold readRegister
  refine Ends.bind_iff.2 ((ends_deviceAt hd ho).imp fun r t hr => ?_)
  obtain ⟨rfl, rfl⟩ := hr
  -- what is left of the patience suffices for what reading can still cost
  obtain ⟨q, hspent, hq⟩ : ∃ q, t.patience = q + (if d.isBusy offset then 1 else 0) ∧
      (d.afterRead offset).stall + k ≤ q :=
    ⟨t.patience - (if d.isBusy offset then 1 else 0), by omega, by omega⟩
  have hput := h.put hq
  have hrest : ∀ t' : Bench, t' = { t with patience := q } →
      Ends (do setDevice n ⟨paddr, d.afterRead offset⟩
               if d.visible then Bench.emit (.read paddr offset (d.answer offset))
               Pure.pure (d.answer offset)) t' fun r t => ∃ d, D d ∧ r = .ok (d.answer offset) ∧
      Serves b₀ n paddr l (· = d.afterRead offset) k t := by
    rintro t' rfl
    simp only [setDevice, Ends.bind_iff, Ends.modify_iff, Ends.ite_iff, Ends.pure_iff]
    exact ⟨fun _ => ⟨d, hDd, rfl, hput.quietly rfl rfl (written_cons_of_not rfl)⟩,
      fun _ => ⟨d, hDd, rfl, hput⟩⟩
  refine Ends.ite_iff.2 ⟨fun hbusy => ?_, fun hidle => ?_⟩
  · rw [if_pos hbusy] at hspent
    refine Ends.bind_iff.2 ?_
    simp only [spend, Ends.bind_iff, Ends.get_iff, hspent]
    exact hrest _ rfl
  · rw [if_neg hidle, Nat.add_zero] at hspent
    exact hrest _ (by rw [← hspent])

/-- **Writing a register.** -/
theorem write (h : Serves b₀ n paddr l D k b) (ho : offset % Device.wordSize = 0) :
    Ends (writeRegister n offset value) b fun r t => r = .ok ⟨⟩ ∧ ∃ d, D d ∧
      Serves b₀ n paddr (l ++ d.shown paddr offset value) (· = d.afterWrite offset value) k t := by
  obtain ⟨d, hd, hDd, hpat⟩ := h.device
  have hpat' : (d.afterWrite offset value).stall + k ≤ b.patience := by
    rw [Device.stall_afterWrite]
    exact hpat
  have hput := h.put hpat'
  unfold writeRegister
  refine Ends.bind_iff.2 ((ends_deviceAt hd ho).imp fun r t hr => ?_)
  obtain ⟨rfl, rfl⟩ := hr
  simp only [setDevice, Ends.bind_iff, Ends.modify_iff, Ends.ite_iff, Ends.pure_iff]
  refine ⟨fun hvis => ⟨rfl, d, hDd, ?_⟩, fun hvis => ⟨trivial, d, hDd, ?_⟩⟩
  · rw [Device.shown, if_pos hvis]
    exact hput.emit (.wrote _ _ _)
  · rw [Device.shown, if_neg hvis, List.append_nil]
    exact hput

end Serves

end Bench

namespace CpuSet

variable {c : CpuSet} {i j : CpuIndex} {a : UInt8}

theorem cpu_setBooted :
    (c.setBooted i).cpu j = if j = i then { c.cpu j with booted := true } else c.cpu j := by
  by_cases h : j = i
  · subst h
    simp [setBooted, cpu]
  · have hne : i.val ≠ j.val := fun heq => h (Fin.ext heq.symm)
    simp [setBooted, cpu, Vector.getElem_set_ne _ _ hne, h]

@[simp] theorem apicId_setBooted : ((c.setBooted i).cpu j).apicId = (c.cpu j).apicId := by
  rw [cpu_setBooted]
  split <;> rfl

@[simp] theorem members_setBooted : (c.setBooted i).members = c.members := rfl

@[simp] theorem byApicId?_setBooted : (c.setBooted i).byApicId? a = c.byApicId? a := by
  simp [byApicId?]

end CpuSet

/-! ## A processor on its way -/

/-- So many events and turns of a waiting loop after it was started, the processor has not come up at
any moment. -/
structure Board.Asleep (b : Board) (apicId : UInt8) (events hints : Nat) : Prop where
  noEvent : ∀ e, e ≤ events → b.wakes apicId e 0 = false
  noHint : ∀ h, h ≤ hints → b.wakes apicId events h = false

namespace Machine

variable {M α β : Type}

/-- Nothing but the bench, the processors on their way and what they read is another. -/
structure Beside (s t : Machine M) : Prop where
  board : t.board = s.board
  kernel : t.kernel = s.kernel
  lock : t.lock = s.lock
  interrupts : t.interrupts = s.interrupts
  contexts : t.contexts = s.contexts
  acting : t.acting = s.acting

theorem Beside.refl (s : Machine M) : Beside s s := ⟨rfl, rfl, rfl, rfl, rfl, rfl⟩

theorem Beside.trans {s t u : Machine M} (h : Beside s t) (h' : Beside t u) : Beside s u :=
  ⟨h'.board.trans h.board, h'.kernel.trans h.kernel, h'.lock.trans h.lock,
    h'.interrupts.trans h.interrupts, h'.contexts.trans h.contexts, h'.acting.trans h.acting⟩

/-- **How far the start of CPU `i` has come** since `s`: it has not been told to start; or it has been,
and so many events and turns of a waiting loop later it is still on its way or up. No other CPU is on its
way. -/
inductive Coming (s : Machine M) (i : CpuIndex) : Option (Nat × Nat) → Machine M → Prop
  | idle {t : Machine M} : t.starting = [] → t.cpus = s.cpus → Coming s i none t
  | waits {t : Machine M} {e h : Nat} : t.starting = [⟨i, e, h⟩] → t.cpus = s.cpus →
      (s.cpus.cpu i).booted = false → s.board.Asleep (s.cpus.cpu i).apicId e h →
      Coming s i (some (e, h)) t
  | up {t : Machine M} {c : Nat × Nat} : t.starting = [] → t.cpus = s.cpus.setBooted i →
      Coming s i (some c) t

/-- An event more. -/
def tick (c : Option (Nat × Nat)) : Option (Nat × Nat) := c.map fun c => (c.1 + 1, c.2)

/-- No turn of a waiting loop has been counted. -/
def unturned (c : Option (Nat × Nat)) : Bool := c.all (·.2 == 0)

@[simp] theorem unturned_tick (c : Option (Nat × Nat)) : unturned (tick c) = unturned c := by
  cases c <;> rfl

theorem unturned_orElse {c c' : Option (Nat × Nat)} (h : unturned c = true)
    (h' : unturned c' = true) : unturned (c <|> c') = true := by
  cases c with
  | none => exact h'
  | some => exact h

/-- The machine is another only in the processors on their way and what they report. -/
structure Aside (t t' : Machine M) : Prop where
  beside : Beside t t'
  args : t'.args = t.args
  devices : t'.bench.devices = t.bench.devices
  patience : t'.bench.patience = t.bench.patience
  written : t'.bench.written = t.bench.written

theorem Aside.refl (t : Machine M) : Aside t t := ⟨.refl t, rfl, rfl, rfl, rfl⟩

theorem Aside.trans {t u v : Machine M} (h : Aside t u) (h' : Aside u v) : Aside t v :=
  ⟨h.beside.trans h'.beside, h'.args.trans h.args, h'.devices.trans h.devices,
    h'.patience.trans h.patience, h'.written.trans h.written⟩

section Settling

variable {s t t' : Machine M} {i : CpuIndex} {c : Option (Nat × Nat)} {e h : Nat}

/-- What happens at the bench and does not fail. -/
theorem ends_onBench {y : Bench.Act β} {v : β} {b : Bench} {f : β → Act M α}
    {Q : Except Fault α → Machine M → Prop} (hy : y t.bench = .ok v b)
    (hf : Ends (f v) { t with bench := b } Q) : Ends (onBench y >>= f) t Q := by
  refine Ends.bind_iff.2 (Ends.focus_iff.2 ?_)
  unfold Ends
  rw [hy]
  exact hf

theorem Coming.of_eq (hcoming : Coming s i c t) (hstarting : t'.starting = t.starting)
    (hcpus : t'.cpus = t.cpus) : Coming s i c t' := by
  cases hcoming with
  | idle hs hc => exact .idle (hstarting.trans hs) (hcpus.trans hc)
  | waits hs hc hdown hasleep =>
    exact .waits (hstarting.trans hs) (hcpus.trans hc) hdown hasleep
  | up hs hc => exact .up (hstarting.trans hs) (hcpus.trans hc)

/-- Of the CPUs that are up only CPU `i` can be another. -/
theorem Coming.cpus_eq (hcoming : Coming s i c t) :
    t.cpus = s.cpus ∨ t.cpus = s.cpus.setBooted i := by
  cases hcoming with
  | idle _ hc => exact .inl hc
  | waits _ hc => exact .inl hc
  | up _ hc => exact .inr hc

/-- Nobody but CPU `i` is on its way. -/
theorem Coming.way (hcoming : Coming s i c t) : ∀ x ∈ t.starting, x.cpu = i := by
  cases hcoming with
  | idle hs _ | up hs _ => simp [hs]
  | waits hs _ _ _ => simp [hs]

/-- With nobody on its way there is nothing to report. -/
theorem ends_settle_nil (ht : t.starting = []) :
    Ends settle t fun r t' => r = .ok ⟨⟩ ∧ t' = t := by
  have hsame : ({ t with starting := [] } : Machine M) = t := by rw [← ht]
  have hend : Ends (settle : Act M PUnit) t fun r t' =>
      r = .ok ⟨⟩ ∧ t' = { t with starting := [] } := by
    unfold settle
    simp only [Ends.bind_iff, Ends.get_iff, ht, List.partition_eq_filter_filter, List.filter_nil]
    exact ⟨rfl, rfl⟩
  rwa [hsame] at hend

/-- **A processor on its way** reports as soon as it is up. -/
theorem ends_settle (hbeside : Beside s t) (hdown : (s.cpus.cpu i).booted = false)
    (hstarting : t.starting = [⟨i, e, h⟩]) (hcpus : t.cpus = s.cpus)
    (hasleep : s.board.wakes (s.cpus.cpu i).apicId e h = false →
      s.board.Asleep (s.cpus.cpu i).apicId e h) :
    Ends settle t fun r t' => r = .ok ⟨⟩ ∧ Aside t t' ∧ Coming s i (some (e, h)) t' := by
  have hup : t.isUp ⟨i, e, h⟩ = s.board.wakes (s.cpus.cpu i).apicId e h := by
    rw [isUp, hbeside.board, hcpus]
  unfold settle
  simp only [Ends.bind_iff, Ends.get_iff, hstarting, List.partition_eq_filter_filter,
    List.filter_cons, List.filter_nil, hup, Function.comp_apply]
  cases hwakes : s.board.wakes (s.cpus.cpu i).apicId e h with
  | false =>
    have hsame : ({ t with starting := [⟨i, e, h⟩] } : Machine M) = t := by rw [← hstarting]
    have hwaits : Coming s i (some (e, h)) t := .waits hstarting hcpus hdown (hasleep hwakes)
    exact ⟨rfl, hsame ▸ .refl t, hsame ▸ hwaits⟩
  | true =>
    let rested : Machine M := { t with starting := [] }
    have hnot : ¬ (rested.cpus.cpu i).booted = true := by
      rw [show rested.cpus = s.cpus from hcpus, hdown]
      decide
    have harrive : Ends (arrive i) rested fun r t' => r = .ok ⟨⟩ ∧ Aside t t' ∧
        Coming s i (some (e, h)) t' := by
      unfold arrive
      simp only [Ends.bind_iff, Ends.get_iff, Ends.ite_iff, Ends.modify_iff, onBench,
        Ends.focus_iff, Bench.emit]
      refine ⟨fun hb => absurd hb hnot, fun _ => ⟨trivial, ?_, ?_⟩⟩
      · exact ⟨⟨rfl, rfl, rfl, rfl, rfl, rfl⟩, rfl, rfl, rfl, rfl⟩
      · exact .up rfl (congrArg (CpuSet.setBooted · i) hcpus)
    have hone : Ends ([⟨i, e, h⟩].forM fun x : Starting => arrive x.cpu) rested fun r t' =>
        r = .ok ⟨⟩ ∧ Aside t t' ∧ Coming s i (some (e, h)) t' := by
      refine Ends.bind_iff.2 (harrive.imp fun r t' hr => ?_)
      obtain ⟨rfl, hr⟩ := hr
      exact ⟨rfl, hr⟩
    exact hone

/-- **Time passes**, by an event or by a turn of a waiting loop. -/
theorem Coming.passes (hcoming : Coming s i c t) (hbeside : Beside s t) (g : Nat × Nat → Nat × Nat)
    (hg : ∀ e h, c = some (e, h) → s.board.Asleep (s.cpus.cpu i).apicId e h →
      s.board.wakes (s.cpus.cpu i).apicId (g (e, h)).1 (g (e, h)).2 = false →
      s.board.Asleep (s.cpus.cpu i).apicId (g (e, h)).1 (g (e, h)).2) :
    Ends settle
      { t with starting := t.starting.map fun x =>
          ⟨x.cpu, (g (x.events, x.hints)).1, (g (x.events, x.hints)).2⟩ }
      fun r t' => r = .ok ⟨⟩ ∧ Aside t t' ∧ Coming s i (c.map g) t' := by
  let passed : Machine M :=
    { t with starting := t.starting.map fun x =>
        ⟨x.cpu, (g (x.events, x.hints)).1, (g (x.events, x.hints)).2⟩ }
  have hpassed : Aside t passed := ⟨⟨rfl, rfl, rfl, rfl, rfl, rfl⟩, rfl, rfl, rfl, rfl⟩
  change Ends settle passed _
  cases hcoming with
  | idle hs hcpus =>
    have hnil : passed.starting = [] := congrArg (List.map _) hs
    refine (ends_settle_nil hnil).imp fun r t' hr => ?_
    obtain ⟨rfl, rfl⟩ := hr
    exact ⟨rfl, hpassed, .idle hnil hcpus⟩
  | up hs hcpus =>
    have hnil : passed.starting = [] := congrArg (List.map _) hs
    refine (ends_settle_nil hnil).imp fun r t' hr => ?_
    obtain ⟨rfl, rfl⟩ := hr
    exact ⟨rfl, hpassed, .up hnil hcpus⟩
  | @waits _ e h hs hcpus hdown hasleep =>
    have hone : passed.starting = [⟨i, (g (e, h)).1, (g (e, h)).2⟩] := congrArg (List.map _) hs
    exact (ends_settle (hbeside.trans hpassed.beside) hdown hone hcpus (hg e h rfl hasleep)).imp
      fun r t' hr => ⟨hr.1, hpassed.trans hr.2.1, hr.2.2⟩

/-- An event costs time. While a CPU is being told to start nobody waits, so it is still at no turn. -/
theorem Coming.afterEvent (hcoming : Coming s i c t) (hbeside : Beside s t)
    (hc : unturned c = true) :
    Ends afterEvent t fun r t' => r = .ok ⟨⟩ ∧ Aside t t' ∧ Coming s i (tick c) t' := by
  refine Ends.bind_iff.2 (Ends.modify_iff.2 ?_)
  refine hcoming.passes hbeside (fun c => (c.1 + 1, c.2)) fun e h he hasleep hw => ?_
  obtain rfl : h = 0 := by simpa [unturned, he] using hc
  exact ⟨fun e' he' => (Nat.le_or_eq_of_le_succ he').elim (hasleep.noEvent e') (· ▸ hw),
    fun h' hh' => Nat.le_zero.1 hh' ▸ hw⟩

/-- Whoever is up by now reports it, and nothing else happens. -/
theorem Coming.settles (hcoming : Coming s i c t) (hbeside : Beside s t) :
    Ends settle t fun r t' => r = .ok ⟨⟩ ∧ Aside t t' ∧ Coming s i c t' := by
  have hpass := hcoming.passes hbeside id fun _ _ _ hasleep _ => hasleep
  have hsame : t.starting.map (fun x => (⟨x.cpu, x.events, x.hints⟩ : Starting)) = t.starting :=
    List.map_id _
  simp only [id, hsame] at hpass
  rwa [Option.map_id] at hpass

/-- The start command is for CPU `i`, which is not up in `s`. -/
def IsFor (s : Machine M) (i : CpuIndex) (dest : UInt32) : Prop :=
  s.cpus.byApicId? (dest >>> 24).toUInt8 = some i ∧ (s.cpus.cpu i).booted = false

/-- The CPU a start command is for is one to start only if it has not been started. -/
theorem Coming.addressee (hcoming : Coming s i c t) {dest : UInt32} (hfor : s.IsFor i dest) :
    t.addressee dest = if c = none then some i else none := by
  obtain ⟨hfor, hdown⟩ := hfor
  unfold Machine.addressee
  cases hcoming with
  | idle hs hcpus => simp [hs, hcpus, hfor, hdown]
  | waits hs hcpus => simp [hs, hcpus, hfor]
  | up hs hcpus => simp [hcpus, hfor, CpuSet.cpu_setBooted]

/-- **A start command** reaches the CPU it is for, and one that was started goes on its way. -/
theorem Coming.startBy {n offset : Nat} {value : UInt32} {sent : Option UInt32}
    (hcoming : Coming s i c t) (hbeside : Beside s t)
    (hsent : (t.bench.devices[n]?.bind fun d => startsProcessor d.device offset value) = sent)
    (hfor : ∀ dest, sent = some dest → s.IsFor i dest) :
    Ends (do startBy n offset value; settle) t fun r t' =>
      r = .ok ⟨⟩ ∧ Aside t t' ∧ Coming s i (c <|> sent.map fun _ => (0, 0)) t' := by
  unfold Machine.startBy
  simp only [Ends.bind_iff, Ends.get_iff, hsent]
  cases sent with
  | none =>
    have hsame : (c <|> (none : Option UInt32).map fun _ => ((0, 0) : Nat × Nat)) = c := by
      cases c <;> rfl
    rw [hsame]
    exact hcoming.settles hbeside
  | some dest =>
    simp only [Option.bind_some, hcoming.addressee (hfor dest rfl)]
    cases c with
    | some c => exact hcoming.settles hbeside
    | none =>
      cases hcoming with
      | idle hs hcpus =>
        let told : Machine M := { t with starting := t.starting ++ [⟨i, 0, 0⟩] }
        have htold : Aside t told := ⟨⟨rfl, rfl, rfl, rfl, rfl, rfl⟩, rfl, rfl, rfl, rfl⟩
        have hone : told.starting = [⟨i, 0, 0⟩] := congrArg (· ++ [(⟨i, 0, 0⟩ : Starting)]) hs
        have hstart := ends_settle (hbeside.trans htold.beside) (hfor dest rfl).2 hone hcpus fun hw =>
          ⟨fun _ he => Nat.le_zero.1 he ▸ hw, fun _ hh => Nat.le_zero.1 hh ▸ hw⟩
        have hall : Ends settle told fun r t' =>
            r = .ok ⟨⟩ ∧ Aside t t' ∧ Coming s i (some (0, 0)) t' :=
          hstart.imp fun r t' hr => ⟨hr.1, htold.trans hr.2.1, hr.2.2⟩
        exact hall

end Settling

/-- **A start is under way**: since `s` the bench was written to as `l` says, device `n` satisfies `D`
and there is patience to spare for `k` turns, and the start of CPU `i` has come as far as `c` says. -/
structure Underway (s : Machine M) (i : CpuIndex) (n paddr : Nat) (l : List Event)
    (D : Device → Prop) (c : Option (Nat × Nat)) (k : Nat) (t : Machine M) : Prop where
  beside : Beside s t
  args : t.args = s.args
  coming : Coming s i c t
  serves : s.bench.Serves n paddr l D k t.bench

namespace Underway

variable {s t t' : Machine M} {i : CpuIndex} {n paddr k : Nat} {l l' : List Event}
  {D D' : Device → Prop} {c c' : Option (Nat × Nat)}

theorem imp (h : Underway s i n paddr l D c k t) (hD : ∀ d, D d → D' d) {k' : Nat}
    (hk : k' ≤ k) : Underway s i n paddr l D' c k' t :=
  ⟨h.beside, h.args, h.coming, h.serves.imp hD hk⟩

/-- Something happens at the bench alone. -/
theorem onBench (h : Underway s i n paddr l D c k t) {b : Bench} {k' : Nat}
    (hb : s.bench.Serves n paddr l' D' k' b) :
    Underway s i n paddr l' D' c k' { t with bench := b } :=
  ⟨h.beside.trans ⟨rfl, rfl, rfl, rfl, rfl, rfl⟩, h.args, h.coming.of_eq rfl rfl, hb⟩

/-- Something happens beside the bench. -/
theorem aside (h : Underway s i n paddr l D c k t) (haside : Aside t t')
    (hcoming : Coming s i c' t') : Underway s i n paddr l D c' k t' :=
  ⟨h.beside.trans haside.beside, haside.args.trans h.args, hcoming,
    h.serves.quietly haside.devices haside.patience haside.written⟩

theorem afterEvent (h : Underway s i n paddr l D c k t) (hc : unturned c = true) :
    Ends afterEvent t fun r t' => r = .ok ⟨⟩ ∧ Underway s i n paddr l D (tick c) k t' :=
  (h.coming.afterEvent h.beside hc).imp fun _ _ hr => ⟨hr.1, h.aside hr.2.1 hr.2.2⟩

/-- **A register is read.** -/
theorem read {offset : Nat} {Q : UInt32 → Machine M → Prop} (h : Underway s i n paddr l D c k t)
    (hc : unturned c = true) (ho : offset % Device.wordSize = 0)
    (hQ : ∀ d t', D d → Underway s i n paddr l (· = d.afterRead offset) (tick c) k t' →
      Q (d.answer offset) t') :
    Completes ((registers n).read offset) t Q := by
  refine .of_ends ?_
  unfold registers Machine.onBench
  simp only [Ends.bind_iff, Ends.focus_iff]
  refine (h.serves.read ho).imp fun r b hr => ?_
  obtain ⟨d, hDd, rfl, hb⟩ := hr
  refine ((h.onBench hb).afterEvent hc).imp fun r t' hr => ?_
  obtain ⟨rfl, ht'⟩ := hr
  exact ⟨_, rfl, hQ d t' hDd ht'⟩

/-- **A register is written.** A start command is for CPU `i`. -/
theorem write {offset : Nat} {value : UInt32} {Q : PUnit → Machine M → Prop}
    (h : Underway s i n paddr l D c k t)
    (hc : unturned c = true) (ho : offset % Device.wordSize = 0)
    (hfor : ∀ d dest, D d → startsProcessor (d.afterWrite offset value) offset value = some dest →
      s.IsFor i dest)
    (hQ : ∀ d t', D d → Underway s i n paddr (l ++ d.shown paddr offset value)
      (· = d.afterWrite offset value) (tick c <|>
        (startsProcessor (d.afterWrite offset value) offset value).map fun _ => (0, 0)) k t' →
      Q ⟨⟩ t') :
    Completes ((registers n).write offset value) t Q := by
  refine .of_ends ?_
  unfold registers Machine.onBench
  simp only [Ends.bind_iff, Ends.focus_iff]
  refine (h.serves.write ho).imp fun r b hr => ?_
  obtain ⟨rfl, d, hDd, hb⟩ := hr
  refine ((h.onBench hb).afterEvent hc).imp fun r t₁ hr => ?_
  obtain ⟨rfl, ht₁⟩ := hr
  obtain ⟨d', hd', rfl, -⟩ := ht₁.serves.device
  have hsent : (t₁.bench.devices[n]?.bind fun d => startsProcessor d.device offset value) =
      startsProcessor (d.afterWrite offset value) offset value := by rw [hd']; rfl
  have hstart := ht₁.coming.startBy ht₁.beside hsent fun dest => hfor d dest hDd
  refine (Ends.bind_iff.1 hstart).imp fun r t₂ hr => ?_
  cases r with
  | error e => exact absurd hr.1 nofun
  | ok =>
    refine Ends.imp hr fun r t' hr => ?_
    obtain ⟨rfl, haside, hcoming⟩ := hr
    exact ⟨⟨⟩, rfl, hQ d t' hDd (ht₁.aside haside hcoming)⟩

/-- What happens at the bench is an event, whatever it is. -/
theorem event {y : Bench.Act PUnit} {b : Bench} {Q : PUnit → Machine M → Prop}
    (h : Underway s i n paddr l D c k t) (hc : unturned c = true)
    (hy : y t.bench = .ok ⟨⟩ b) (hb : s.bench.Serves n paddr l' D k b)
    (hQ : ∀ t', Underway s i n paddr l' D (tick c) k t' → Q ⟨⟩ t') :
    Completes (do Machine.onBench y; Machine.afterEvent : Act M PUnit) t Q := by
  refine .of_ends (ends_onBench hy ?_)
  exact ((h.onBench hb).afterEvent hc).imp fun r t' hr => ⟨⟨⟩, hr.1, hQ t' hr.2⟩

/-- **A port is written.** -/
theorem outb {port : UInt16} {value : UInt8} {Q : PUnit → Machine M → Prop}
    (h : Underway s i n paddr l D c k t) (hc : unturned c = true)
    (hQ : ∀ t', Underway s i n paddr (l ++ [.portOut port value]) D (tick c) k t' → Q ⟨⟩ t') :
    Completes (platform.outb port value) t Q := by
  let b : Bench := { t.bench with ports := t.bench.ports.insert port value }
  have hb : s.bench.Serves n paddr l D k b := h.serves.quietly rfl rfl rfl
  exact h.event (y := Bench.platform.outb port value) hc rfl (hb.emit (.portOut port value))
    hQ

/-- **A word of low memory is written.** -/
theorem storePhys {a : Nat} {value : UInt16} {Q : PUnit → Machine M → Prop}
    (h : Underway s i n paddr l D c k t) (hc : unturned c = true)
    (hQ : ∀ t', Underway s i n paddr (l ++ [.stored a value]) D (tick c) k t' → Q ⟨⟩ t') :
    Completes (platform.storePhys a value) t Q :=
  h.event (y := Bench.platform.storePhys a value) hc rfl (h.serves.emit (.stored a value))
    hQ

/-- Some microseconds pass. -/
theorem delay {us : UInt32} {Q : PUnit → Machine M → Prop}
    (h : Underway s i n paddr l D c k t) (hc : unturned c = true)
    (hQ : ∀ t', Underway s i n paddr l D (tick c) k t' → Q ⟨⟩ t') :
    Completes (platform.delay us) t Q :=
  h.event (y := Bench.platform.delay us) hc rfl
    (h.serves.quietly rfl rfl (Bench.written_cons_of_not rfl)) hQ

/-- **One turn of a waiting loop** costs patience. -/
theorem hint {Q : PUnit → Machine M → Prop} (h : Underway s i n paddr l D c (k + 1) t)
    (hQ : ∀ t', Underway s i n paddr l D (c.map fun c => (c.1, c.2 + 1)) k t' → Q ⟨⟩ t') :
    Completes hint t Q := by
  obtain ⟨d, hd, hDd, hpat⟩ := h.serves.device
  obtain ⟨q, hq⟩ : ∃ q, t.bench.patience = q + 1 := Nat.exists_eq_succ_of_ne_zero (by omega)
  let b : Bench := { t.bench with events := .spun :: t.bench.events, patience := q }
  have hb : s.bench.Serves n paddr l D k b :=
    ⟨(Bench.written_cons_of_not rfl).trans h.serves.written,
      ⟨d, hd, hDd, by change _ ≤ q; omega⟩, h.serves.others⟩
  have hspent := h.onBench hb
  have hpass := hspent.coming.passes hspent.beside (fun c => (c.1, c.2 + 1))
    fun e h _ hasleep hw => ⟨hasleep.noEvent, fun h' hh' =>
      (Nat.le_or_eq_of_le_succ hh').elim (hasleep.noHint h') (· ▸ hw)⟩
  refine .of_ends (ends_onBench (Bench.spin_eq hq) (Ends.bind_iff.2 (Ends.modify_iff.2 ?_)))
  refine Ends.imp hpass fun r t' hr => ?_
  obtain ⟨rfl, haside, hcoming⟩ := hr
  exact ⟨⟨⟩, rfl, hQ t' (hspent.aside haside hcoming)⟩

/-- Something is said. -/
theorem say {r : Log.Record} {Q : PUnit → Machine M → Prop}
    (h : Underway s i n paddr l D c k t)
    (hQ : ∀ b, Underway s i n paddr l D c k { t with bench := b } → Q ⟨⟩ { t with bench := b }) :
    Completes (Exokernel.say r) t Q := by
  let b : Bench := if t.bench.logger.shows r then { t.bench with log := t.bench.log ++ [r] }
    else t.bench
  have hsame : b.devices = t.bench.devices ∧ b.patience = t.bench.patience ∧
      b.written = t.bench.written := by
    change (if _ then _ else _ : Bench).devices = _ ∧ (if _ then _ else _ : Bench).patience = _ ∧
      Bench.written (if _ then _ else _) = _
    split <;> exact ⟨rfl, rfl, rfl⟩
  have hb := h.serves.quietly hsame.1 hsame.2.1 hsame.2.2
  exact .of_ends ⟨⟨⟩, rfl, hQ _ (h.onBench hb)⟩

end Underway

end Machine

end Exokernel
