import Mathlib.Algebra.GroupWithZero.Nat
import Exokernel.Proofs.Strokes
/-!
# One processor at a time

The processors that are started share one reset vector and one `BootArgs`, so nothing may be written for
the next one before the last one is up. `LocalApic.orders` lists what is written to start one processor,
`Stage` says how things stand while one is started, and `goes_startOther` follows a start through its
writes and its wait. `goes_startOthers` puts the starts together, and `starts_one_at_a_time` says of
every moment on the way which processor it belongs to.
-/

namespace Exokernel

namespace LocalApic

/-- Where the commands for the processor with a number go. -/
def target (apicId : UInt8) : UInt32 := apicId.toUInt32 <<< 24

theorem target_shiftRight (apicId : UInt8) : (target apicId >>> 24).toUInt8 = apicId := by
  apply UInt8.toNat_inj.1
  have hlt := apicId.toNat_lt
  simp only [target, UInt32.toNat_toUInt8, UInt32.toNat_shiftRight, UInt32.toNat_shiftLeft,
    UInt8.toNat_toUInt32, Nat.shiftLeft_eq, Nat.shiftRight_eq_div_pow, UInt32.reduceToNat,
    Nat.reduceMod, Nat.reducePow]
  omega

/-- The address the processors start executing at. -/
def entry : UInt32 := UInt32.ofNat Layout.entryPage

/-- **What is written to start the processor with a number**: the reset vector, the reset and twice the
start command. -/
def orders (paddr : Nat) (apicId : UInt8) : List Event :=
  [.portOut clockSelect shutdownByte, .portOut clockData shutdownJump,
    .stored resetVector 0, .stored (resetVector + 2) (entry >>> 4).toUInt16,
    .wrote paddr commandHigh (target apicId), .wrote paddr commandLow (reset ||| level ||| assertLevel),
    .wrote paddr commandLow (reset ||| level),
    .wrote paddr commandHigh (target apicId), .wrote paddr commandLow (startup ||| entry >>> 12),
    .wrote paddr commandHigh (target apicId), .wrote paddr commandLow (startup ||| entry >>> 12)]

end LocalApic

namespace Machine

open LocalApic (orders target)

variable {M α β : Type}

theorem startsProcessor_eq (d : Device) (offset : Nat) (value : UInt32) :
    startsProcessor d offset value =
      if offset = LocalApic.commandLow ∧ value &&& LocalApic.commandBits = LocalApic.startup then
        d.destination
      else none := by
  cases d with
  | file values busy => rfl
  | window selected values => exact (ite_self none).symm
  | words values => exact (ite_self none).symm

/-- CPU `i` is being started, and so much of `orders` has been written. -/
def Telling (s : Machine M) (i : CpuIndex) (n paddr : Nat) (t : Machine M) : Prop :=
  ∃ l D c k, l <+: orders paddr (s.cpus.cpu i).apicId ∧ Underway s i n paddr l D c k t

namespace Underway

variable {s t : Machine M} {i : CpuIndex} {n paddr k offset : Nat} {l : List Event}
  {D : Device → Prop} {c : Option (Nat × Nat)} {high value : UInt32}

theorem telling (h : Underway s i n paddr l D c k t)
    (hl : l <+: orders paddr (s.cpus.cpu i).apicId) : Telling s i n paddr t :=
  ⟨l, D, c, k, hl, h⟩

/-- **A command** is written and waited for by reading another register. -/
theorem command {Q : PUnit → Machine M → Prop}
    (h : Underway s i n paddr l (·.destination = some high) c k t) (hc : unturned c = true)
    (ho : offset % Device.wordSize = 0)
    (hl : l ++ [.wrote paddr offset value] <+: orders paddr (s.cpus.cpu i).apicId)
    (hfor : offset = LocalApic.commandLow ∧
      value &&& LocalApic.commandBits = LocalApic.startup → s.IsFor i high)
    (hQ : ∀ t', Underway s i n paddr (l ++ [.wrote paddr offset value])
      (·.destination = some (if offset = LocalApic.commandHigh then value else high))
      (tick (tick c <|> if offset = LocalApic.commandLow ∧
        value &&& LocalApic.commandBits = LocalApic.startup then some (0, 0) else none)) k t' →
      Q ⟨⟩ t') :
    Goes (Telling s i n paddr) (LocalApic.write (seenRegisters (registers n)) offset value) t Q := by
  have hdest {d : Device} (hd : d.destination = some high) :
      (d.afterWrite offset value).destination =
        some (if offset = LocalApic.commandHigh then value else high) := by
    rw [Device.destination_afterWrite, hd]
    split <;> rfl
  refine .bind (.stroke (h.write hc ho (fun d dest hd hsent => ?_) fun d t₁ hd h₁ => ?_))
  · rw [startsProcessor_eq, hdest hd] at hsent
    split at hsent
    · next hstart =>
      rw [if_neg (by rw [hstart.1]; decide)] at hsent
      cases hsent
      exact hfor hstart
    · cases hsent
  · rw [Device.shown, if_pos (Device.visible_of_destination hd), startsProcessor_eq, hdest hd,
      apply_ite (Option.map _)] at h₁
    refine ⟨h₁.telling hl, .bind (.stroke (h₁.read ?_ (by decide) fun d' t₂ hd' h₂ =>
      ⟨h₂.telling hl, ?_⟩))⟩
    · refine unturned_orElse (by rwa [unturned_tick]) ?_
      split <;> rfl
    · refine .pure (hQ t₂ (h₂.imp ?_ (Nat.le_refl k)))
      rintro _ rfl
      rw [Device.destination_afterRead, hd', hdest hd]

/-- **The start command** is sent. -/
theorem sendStartup {Q : PUnit → Machine M → Prop}
    (h : Underway s i n paddr l (·.destination = some high) c k t) (hc : unturned c = true)
    (hl : l ++ [.wrote paddr LocalApic.commandHigh (target (s.cpus.cpu i).apicId)] ++
      [.wrote paddr LocalApic.commandLow (LocalApic.startup ||| LocalApic.entry >>> 12)] <+:
        orders paddr (s.cpus.cpu i).apicId)
    (hfor : s.IsFor i (target (s.cpus.cpu i).apicId))
    (hQ : ∀ t', Underway s i n paddr
      (l ++ [.wrote paddr LocalApic.commandHigh (target (s.cpus.cpu i).apicId)] ++
        [.wrote paddr LocalApic.commandLow (LocalApic.startup ||| LocalApic.entry >>> 12)])
      (·.destination = some (target (s.cpus.cpu i).apicId))
      (tick (tick (tick (tick (tick c)) <|> some (0, 0)))) k t' → Q ⟨⟩ t') :
    Goes (Telling s i n paddr) (LocalApic.startProcessor.sendStartup (seenRegisters (registers n))
      (seenPlatform platform) LocalApic.entry (target (s.cpus.cpu i).apicId)) t Q := by
  have hl₁ : l ++ [.wrote paddr LocalApic.commandHigh (target (s.cpus.cpu i).apicId)] <+:
      orders paddr (s.cpus.cpu i).apicId := (List.prefix_append _ _).trans hl
  unfold LocalApic.startProcessor.sendStartup
  refine .bind (h.command hc (by decide) hl₁ (fun ho => absurd ho.1 (by decide)) fun t₁ h₁ => ?_)
  have hsame : (tick c <|> if LocalApic.commandHigh = LocalApic.commandLow ∧
      target (s.cpus.cpu i).apicId &&& LocalApic.commandBits = LocalApic.startup then some (0, 0)
      else none) = tick c := by
    rw [if_neg fun ho => absurd ho.1 (by decide)]
    cases tick c <;> rfl
  rw [if_pos rfl, hsame] at h₁
  refine .bind (h₁.command (by simpa using hc) (by decide) hl (fun _ => hfor) fun t₂ h₂ => ?_)
  have hc₂ : unturned (tick (tick (tick (tick c)) <|> some (0, 0))) = true := by
    rw [unturned_tick]
    exact unturned_orElse (by simpa using hc) rfl
  exact .stroke (h₂.delay hc₂ fun t₃ h₃ => ⟨h₃.telling hl, hQ t₃ h₃⟩)

theorem startProcessor {Q : PUnit → Machine M → Prop}
    (h : Underway s i n paddr [] (·.destination = some high) none k t)
    (hfor : s.IsFor i (target (s.cpus.cpu i).apicId))
    (hQ : ∀ t', Underway s i n paddr (orders paddr (s.cpus.cpu i).apicId)
      (·.destination = some (target (s.cpus.cpu i).apicId)) (some (7, 0)) k t' → Q ⟨⟩ t') :
    Goes (Telling s i n paddr) (LocalApic.startProcessor (seenRegisters (registers n))
      (seenPlatform platform) (s.cpus.cpu i).apicId (UInt32.ofNat Layout.entryPage)) t Q := by
  unfold LocalApic.startProcessor
  rw [if_neg (by decide), if_neg (by decide)]
  refine .bind (.stroke (h.outb rfl fun t₁ h₁ => ⟨h₁.telling ⟨_, rfl⟩, ?_⟩))
  refine .bind (.stroke (h₁.outb rfl fun t₂ h₂ => ⟨h₂.telling ⟨_, rfl⟩, ?_⟩))
  refine .bind (.stroke (h₂.storePhys rfl fun t₃ h₃ => ⟨h₃.telling ⟨_, rfl⟩, ?_⟩))
  refine .bind (.stroke (h₃.storePhys rfl fun t₄ h₄ => ⟨h₄.telling ⟨_, rfl⟩, ?_⟩))
  refine .bind (h₄.command rfl (by decide) ⟨_, rfl⟩ (fun ho => absurd ho.1 (by decide))
    fun t₅ h₅ => ?_)
  refine .bind (h₅.command rfl (by decide) ⟨_, rfl⟩ (fun ho => absurd ho.2 (by decide))
    fun t₆ h₆ => ?_)
  refine .bind (.stroke (h₆.delay rfl fun t₇ h₇ => ⟨h₇.telling ⟨_, rfl⟩, ?_⟩))
  refine .bind (h₇.command rfl (by decide) ⟨_, rfl⟩ (fun ho => absurd ho.2 (by decide))
    fun t₈ h₈ => ?_)
  refine .bind (.stroke (h₈.delay rfl fun t₉ h₉ => ⟨h₉.telling ⟨_, rfl⟩, ?_⟩))
  refine .bind (h₉.sendStartup rfl ⟨_, rfl⟩ hfor fun u hu => ?_)
  exact hu.sendStartup rfl ⟨_, rfl⟩ hfor hQ

/-! ### Waiting for it -/

/-- CPU `i` is up, and nobody is on its way. -/
def Up (s : Machine M) (i : CpuIndex) (t : Machine M) : Prop :=
  t.starting = [] ∧ t.cpus = s.cpus.setBooted i

/-- One turn of the wait for a CPU. -/
def testBooted (i : CpuIndex) : Seen M Bool := do
  if ((← cpuSet).cpu i).booted then
    pure true
  else
    pause
    pure false

theorem goes_awaitWithin_up {P : Machine M → Prop} {Q : PUnit → Machine M → Prop} {fuel : Nat}
    (hup : (t.cpus.cpu i).booted = true) (hQ : Q ⟨⟩ t) :
    Goes P (Exokernel.awaitWithin (testBooted i) (fuel + 1)) t Q := by
  refine .bind (.bind (.cpuSet ?_))
  rw [if_pos hup]
  exact .pure (.pure hQ)

theorem goes_awaitWithin_down {P : Machine M → Prop} {Q : PUnit → Machine M → Prop} {fuel : Nat}
    (hdown : (t.cpus.cpu i).booted = false)
    (h : Goes P pause t fun _ t' => Goes P (Exokernel.awaitWithin (testBooted i) fuel) t' Q) :
    Goes P (Exokernel.awaitWithin (testBooted i) (fuel + 1)) t Q := by
  refine .bind (.bind (.cpuSet ?_))
  rw [if_neg (by rw [hdown]; decide)]
  exact .bind (h.imp (fun _ hP => hP) fun _ _ h' => .pure h')

/-- **The wait comes to an end** after as many turns as the CPU takes. -/
theorem awaitWithin {w : Nat} (hl : l <+: orders paddr (s.cpus.cpu i).apicId)
    (hwake : s.board.Asleep (s.cpus.cpu i).apicId 7 0 →
      s.board.wakes (s.cpus.cpu i).apicId 7 w = true)
    {r j fuel : Nat} (hr : j + r = w) (hfuel : r < fuel)
    (h : Underway s i n paddr l D (some (7, j)) (r + k) t) :
    Goes (Telling s i n paddr) (Exokernel.awaitWithin (testBooted i) fuel) t fun _ t' =>
      Up s i t' ∧ ∃ c, Underway s i n paddr l D c k t' := by
  induction fuel generalizing r j t with
  | zero => exact absurd hfuel (Nat.not_lt_zero r)
  | succ fuel ih =>
    cases h.coming with
    | up hs hcpus =>
      have hup : (t.cpus.cpu i).booted = true := by
        rw [hcpus, CpuSet.cpu_setBooted, if_pos rfl]
      exact goes_awaitWithin_up hup
        ⟨⟨hs, hcpus⟩, some (7, j), h.imp (fun _ hd => hd) (Nat.le_add_left k r)⟩
    | waits hs hcpus hdown hasleep =>
      have hwakes := hwake ⟨hasleep.noEvent, fun h' hh' => hasleep.noHint h' (by omega)⟩
      cases r with
      | zero =>
        have hnot := hasleep.noHint w (by omega)
        rw [hwakes] at hnot
        cases hnot
      | succ r =>
        rw [Nat.succ_add] at h
        refine goes_awaitWithin_down (hcpus ▸ hdown)
          (.stroke (h.hint fun t' h' => ⟨h'.telling hl, ?_⟩))
        exact ih (by omega) (by omega) h'

end Underway

/-- The machine with the number and the stack of the CPU to start put where it reads them. -/
def told (m : Machine M) (i : CpuIndex) (top : Nat) : Machine M :=
  { m with args := { m.args with cpu := i.val, stackTop := top } }

/-- **One CPU is started**, and waited for. -/
theorem goes_startOther {t : Machine M} {i : CpuIndex} {n paddr k w top : Nat} {high : UInt32}
    (h : Underway (t.told i top) i n paddr [] (·.destination = some high) none (w + k)
      (t.told i top))
    (hfor : t.IsFor i (target (t.cpus.cpu i).apicId))
    (hwake : t.board.Asleep (t.cpus.cpu i).apicId 7 0 →
      t.board.wakes (t.cpus.cpu i).apicId 7 w = true) :
    Goes (Telling (t.told i top) i n paddr)
      (startOther (seenRegisters (registers n)) (seenPlatform platform) i top) t fun _ t' =>
      Underway.Up (t.told i top) i t' ∧
        ∃ c, Underway (t.told i top) i n paddr (orders paddr (t.cpus.cpu i).apicId)
          (·.destination = some (target (t.cpus.cpu i).apicId)) c k t' := by
  refine .bind (.stroke ⟨⟨⟩, t.told i top, rfl, h.telling List.nil_prefix, ?_⟩)
  refine .bind (.cpuSet (.bind (h.startProcessor hfor fun t₁ h₁ => ?_)))
  have hfuel : w < t₁.bench.patience + 1 := by
    obtain ⟨d, -, -, hpat⟩ := h₁.serves.device
    omega
  have hwait := Underway.awaitWithin (s := t.told i top) List.prefix_rfl hwake (Nat.zero_add w)
    hfuel h₁
  refine .bind (.bind (.get (hwait.imp (fun _ hP => hP) fun _ t₂ h₂ => ?_)))
  obtain ⟨hup, c, h₂⟩ := h₂
  exact .stroke (h₂.say fun b h₃ => ⟨h₃.telling List.prefix_rfl, hup, c, h₃⟩)

/-! ## One after the other -/

/-- The CPUs in use but `me`, in order. -/
def others (m : Machine M) (me : CpuIndex) : List CpuIndex := m.cpus.members.filter (· ≠ me)

/-- What is written to start CPU `i`. -/
def ordersOf (m : Machine M) (paddr : Nat) (i : CpuIndex) : List Event :=
  orders paddr (m.cpus.cpu i).apicId

/-- **A CPU comes up once it has been started.** It is the one its number is for, and it is up by some
moment of its start: the commands that follow the first start command are seven events, and after them
its starter waits. -/
structure ComesUp (m : Machine M) (i : CpuIndex) : Prop where
  down : (m.cpus.cpu i).booted = false
  number : m.cpus.byApicId? (m.cpus.cpu i).apicId = some i
  wakes : (∃ e, e ≤ 7 ∧ m.board.wakes (m.cpus.cpu i).apicId e 0 = true) ∨
    ∃ h, m.board.wakes (m.cpus.cpu i).apicId 7 h = true

/-- **CPU `i` is the one being started**, the CPUs `before` it are done and those `after` it are still to
come: processors that come up read its number and the top of its stack, nobody else is on its way, all
that has been written since `m` is the starts of those before it and a part of its own, and of the
others just those before it are up. -/
structure Stage (m : Machine M) (paddr : Nat) (top : CpuIndex → Nat) (before : List CpuIndex)
    (i : CpuIndex) (after : List CpuIndex) (t : Machine M) : Prop where
  args : t.args = { m.args with cpu := i.val, stackTop := top i }
  way : ∀ s ∈ t.starting, s.cpu = i
  written : ∃ l, l <+: ordersOf m paddr i ∧
    t.bench.written = m.bench.written ++ before.flatMap (ordersOf m paddr) ++ l
  up : ∀ j ∈ before, (t.cpus.cpu j).booted = true
  down : ∀ j ∈ after, (t.cpus.cpu j).booted = false

/-- No CPU is being started yet: nothing has been written since `m`, nobody is on its way, and none of
`others` is up. -/
structure Unstarted (m : Machine M) (others : List CpuIndex) (t : Machine M) : Prop where
  args : t.args = m.args
  way : t.starting = []
  written : t.bench.written = m.bench.written
  down : ∀ j ∈ others, (t.cpus.cpu j).booted = false

/-- **One at a time**: no CPU is being started yet, or just one is. -/
def OneAtATime (m : Machine M) (paddr : Nat) (top : CpuIndex → Nat) (others : List CpuIndex)
    (t : Machine M) : Prop :=
  Unstarted m others t ∨
    ∃ before i after, others = before ++ i :: after ∧ Stage m paddr top before i after t

/-- Some events were noted that are no writes. -/
def Remarks (t t' : Machine M) : Prop :=
  ∃ es : List Event, (∀ e ∈ es, e.isWrite = false) ∧
    t' = { t with bench := { t.bench with events := es ++ t.bench.events } }

/-- The computation tells the top of a stack and does no more than note that. -/
def Tells (x : Act M Nat) (t : Machine M) (top : Nat) : Prop :=
  Completes x t fun a t' => a = top ∧ Remarks t t'

/-- The CPUs `before` have been started since `m`, and nobody is on its way. -/
structure Started (m : Machine M) (n paddr : Nat) (before : List CpuIndex) (k : Nat)
    (t : Machine M) : Prop where
  beside : Beside m t
  lapicAddr : t.args.lapicAddr = m.args.lapicAddr
  starting : t.starting = []
  cpus : t.cpus = before.foldl CpuSet.setBooted m.cpus
  serves : m.bench.Serves n paddr (before.flatMap (ordersOf m paddr))
    (fun d => ∃ high, d.destination = some high) k t.bench

theorem cpu_foldl_setBooted {l : List CpuIndex} {j : CpuIndex} (hj : j ∉ l) (c : CpuSet) :
    (l.foldl CpuSet.setBooted c).cpu j = c.cpu j := by
  induction l generalizing c with
  | nil => rfl
  | cons i l ih =>
    obtain ⟨hne, hl⟩ := not_or.1 (mt List.mem_cons.2 hj)
    rw [List.foldl_cons, ih hl, CpuSet.cpu_setBooted, if_neg hne]

theorem booted_foldl_setBooted {l : List CpuIndex} {j : CpuIndex} (hj : j ∈ l) (c : CpuSet) :
    ((l.foldl CpuSet.setBooted c).cpu j).booted = true := by
  induction l generalizing c with
  | nil => cases hj
  | cons i l ih =>
    rw [List.foldl_cons]
    by_cases hl : j ∈ l
    · exact ih hl _
    · obtain rfl := (List.mem_cons.1 hj).resolve_right hl
      rw [cpu_foldl_setBooted hl, CpuSet.cpu_setBooted, if_pos rfl]

theorem apicId_foldl_setBooted (l : List CpuIndex) (c : CpuSet) (j : CpuIndex) :
    ((l.foldl CpuSet.setBooted c).cpu j).apicId = (c.cpu j).apicId := by
  induction l generalizing c with
  | nil => rfl
  | cons i l ih => rw [List.foldl_cons, ih, CpuSet.apicId_setBooted]

theorem byApicId?_foldl_setBooted (l : List CpuIndex) (c : CpuSet) (a : UInt8) :
    (l.foldl CpuSet.setBooted c).byApicId? a = c.byApicId? a := by
  induction l generalizing c with
  | nil => rfl
  | cons i l ih => rw [List.foldl_cons, ih, CpuSet.byApicId?_setBooted]

theorem count_foldl_setBooted (l : List CpuIndex) (c : CpuSet) :
    (l.foldl CpuSet.setBooted c).count = c.count := by
  induction l generalizing c with
  | nil => rfl
  | cons i l ih => exact ih (c.setBooted i)

section Starts

variable {m t t' : Machine M} {n paddr k : Nat} {me i : CpuIndex} {top : CpuIndex → Nat}
  {before after others : List CpuIndex}

theorem Remarks.written (h : Remarks t t') : t'.bench.written = t.bench.written := by
  obtain ⟨es, hes, rfl⟩ := h
  unfold Bench.written
  rw [List.filter_append, List.filter_eq_nil_iff.2 fun e he => by rw [hes e he]; decide]
  rfl

theorem OneAtATime.remarks (h : OneAtATime m paddr top others t) (hr : Remarks t t') :
    OneAtATime m paddr top others t' := by
  have hsame := hr.written
  obtain ⟨es, -, rfl⟩ := hr
  rcases h with h | ⟨before, i, after, rfl, h⟩
  · exact .inl ⟨h.args, h.way, hsame.trans h.written, h.down⟩
  · obtain ⟨l, hl, hw⟩ := h.written
    exact .inr ⟨before, i, after, rfl, h.args, h.way, ⟨l, hl, hsame.trans hw⟩, h.up, h.down⟩

namespace Started

/-- What is noted beside the writes changes nothing. -/
theorem remarks (h : Started m n paddr before k t) (hr : Remarks t t') :
    Started m n paddr before k t' := by
  have hsame := hr.written
  obtain ⟨es, -, rfl⟩ := hr
  exact ⟨h.beside.trans ⟨rfl, rfl, rfl, rfl, rfl, rfl⟩, h.lapicAddr, h.starting, h.cpus,
    h.serves.quietly rfl rfl hsame⟩

theorem apicId (h : Started m n paddr before k t) (j : CpuIndex) :
    (t.cpus.cpu j).apicId = (m.cpus.cpu j).apicId := by
  rw [h.cpus, apicId_foldl_setBooted]

/-- The next start begins. -/
theorem underway (h : Started m n paddr before k t) (i : CpuIndex) (top : Nat) :
    ∃ high, Underway (t.told i top) i n paddr [] (·.destination = some high) none k
      (t.told i top) := by
  obtain ⟨d, hd, ⟨high, hhigh⟩, hpat⟩ := h.serves.device
  exact ⟨high, .refl _, rfl, .idle h.starting rfl, (List.append_nil _).symm,
    ⟨d, hd, hhigh, hpat⟩, fun _ _ => rfl⟩

/-- **While CPU `i` is told to start** it is the one being started. -/
theorem stage (h : Started m n paddr before k t) (hi : i ∉ after) (hbefore : ∀ j ∈ after, j ∉ before)
    (hdown : ∀ j ∈ after, (m.cpus.cpu j).booted = false)
    (hu : Telling (t.told i (top i)) i n paddr t') : Stage m paddr top before i after t' := by
  obtain ⟨l, D, c, k', hl, hu⟩ := hu
  have hcpu : ∀ j, j ≠ i → t'.cpus.cpu j = t.cpus.cpu j := by
    intro j hj
    rcases hu.coming.cpus_eq with hc | hc
    · exact congrArg (CpuSet.cpu · j) hc
    · rw [hc, CpuSet.cpu_setBooted, if_neg hj]
      rfl
  refine ⟨hu.args.trans ?_, hu.coming.way, ⟨l, ?_, ?_⟩, fun j hj => ?_, fun j hj => ?_⟩
  · change BootArgs.mk i.val (top i) t.args.lapicAddr = ⟨i.val, top i, m.args.lapicAddr⟩
    rw [h.lapicAddr]
  · rw [ordersOf, ← h.apicId]
    exact hl
  · rw [hu.serves.written, told, h.serves.written]
  · rcases hu.coming.cpus_eq with hc | hc
    · rw [hc, told, h.cpus, booted_foldl_setBooted hj]
    · rw [hc, CpuSet.cpu_setBooted, told, h.cpus]
      split
      · rfl
      · exact booted_foldl_setBooted hj _
  · rw [hcpu j fun heq => hi (heq ▸ hj), h.cpus, cpu_foldl_setBooted (hbefore j hj)]
    exact hdown j hj

/-- **A CPU more is started.** -/
theorem snoc (h : Started m n paddr before k t) {D : Device → Prop} {c : Option (Nat × Nat)}
    {k' : Nat} (hD : ∀ d, D d → ∃ high, d.destination = some high)
    (hu : Underway (t.told i (top i)) i n paddr (ordersOf m paddr i) D c k' t')
    (hup : Underway.Up (t.told i (top i)) i t') : Started m n paddr (before ++ [i]) k' t' := by
  have htold : Beside t (t.told i (top i)) := ⟨rfl, rfl, rfl, rfl, rfl, rfl⟩
  refine ⟨(h.beside.trans htold).trans hu.beside, ?_, hup.1, ?_, ?_⟩
  · rw [hu.args]
    exact h.lapicAddr
  · rw [hup.2, told, h.cpus, List.foldl_append]
    rfl
  · rw [List.flatMap_append, List.flatMap_singleton]
    exact h.serves.trans (hu.serves.imp hD (Nat.le_refl k'))

end Started

theorem mem_others : i ∈ m.others me ↔ i.val < m.cpus.count ∧ i ≠ me := by
  simp [others, CpuSet.members, and_comm]

/-- **One after the other they are started**, each with as much patience as it takes. -/
theorem goes_startEach {stackTop : CpuIndex → Act M Nat} {wait : CpuIndex → Nat}
    (hnodup : others.Nodup)
    (htells : ∀ i t, t.board = m.board → Tells (stackTop i) t (top i))
    (hdown : ∀ i ∈ others, (m.cpus.cpu i).booted = false)
    (hnumber : ∀ i ∈ others, m.cpus.byApicId? (m.cpus.cpu i).apicId = some i)
    (hwake : ∀ i ∈ others, m.board.Asleep (m.cpus.cpu i).apicId 7 0 →
      m.board.wakes (m.cpus.cpu i).apicId 7 (wait i) = true)
    {rest : List CpuIndex} (hothers : others = before ++ rest)
    (h : Started m n paddr before ((rest.map wait).sum + k) t)
    (hat : OneAtATime m paddr top others t) :
    Goes (OneAtATime m paddr top others)
      (rest.forM fun i => do
        startOther (seenRegisters (registers n)) (seenPlatform platform) i (← stroke (stackTop i))) t
      fun _ t' => Started m n paddr others k t' := by
  induction rest generalizing before t with
  | nil =>
    rw [List.append_nil] at hothers
    refine .pure ?_
    rw [hothers]
    simpa using h
  | cons i rest ih =>
    have hi : i ∈ others := hothers ▸ List.mem_append_right before List.mem_cons_self
    obtain ⟨-, hrest, hapart⟩ := List.nodup_append.1 (hothers ▸ hnodup)
    obtain ⟨hfresh, -⟩ := List.nodup_cons.1 hrest
    refine .bind (.bind (.stroke ((htells i t h.beside.board).imp ?_)))
    rintro _ t₁ ⟨rfl, hr⟩
    refine ⟨hat.remarks hr, ?_⟩
    have h₁ := h.remarks hr
    rw [List.map_cons, List.sum_cons, Nat.add_assoc] at h₁
    obtain ⟨high, hu⟩ := h₁.underway i (top i)
    have hfor : t₁.IsFor i (target (t₁.cpus.cpu i).apicId) := by
      refine ⟨?_, ?_⟩
      · rw [LocalApic.target_shiftRight, h₁.apicId, h₁.cpus, byApicId?_foldl_setBooted]
        exact hnumber i hi
      · rw [h₁.cpus, cpu_foldl_setBooted fun hb => hapart i hb i List.mem_cons_self rfl]
        exact hdown i hi
    have hwakes : t₁.board.Asleep (t₁.cpus.cpu i).apicId 7 0 →
        t₁.board.wakes (t₁.cpus.cpu i).apicId 7 (wait i) = true := by
      rw [h₁.beside.board, h₁.apicId]
      exact hwake i hi
    have hstage : ∀ u, Telling (t₁.told i (top i)) i n paddr u →
        OneAtATime m paddr top others u := fun u hu =>
      .inr ⟨before, i, rest, hothers, h₁.stage hfresh
        (fun j hj hb => hapart j hb j (List.mem_cons_of_mem i hj) rfl)
        (fun j hj => hdown j (hothers ▸ List.mem_append_right before (List.mem_cons_of_mem i hj))) hu⟩
    refine (goes_startOther hu hfor hwakes).imp hstage fun _ t₂ h₂ => ?_
    obtain ⟨hup, c, h₂⟩ := h₂
    have hall : Telling (t₁.told i (top i)) i n paddr t₂ := h₂.telling List.prefix_rfl
    rw [h₁.apicId] at h₂
    exact ih (by simp [hothers]) (h₁.snoc (fun _ hd => ⟨_, hd⟩) h₂ hup) (hstage t₂ hall)

/-- There is a number of turns after which a CPU that comes up is up. -/
theorem ComesUp.exists_wait (h : m.ComesUp i) : ∃ w, m.board.Asleep (m.cpus.cpu i).apicId 7 0 →
    m.board.wakes (m.cpus.cpu i).apicId 7 w = true := by
  rcases h.wakes with ⟨e, he, hwakes⟩ | ⟨w, hwakes⟩
  · refine ⟨0, fun hasleep => ?_⟩
    have hnot := hasleep.noEvent e he
    rw [hwakes] at hnot
    cases hnot
  · exact ⟨w, fun _ => hwakes⟩

theorem ComesUp.of_eq {m' : Machine M} (h : m.ComesUp i) (hboard : m'.board = m.board)
    (hcpus : m'.cpus = m.cpus) : m'.ComesUp i := by
  refine ⟨?_, ?_, ?_⟩
  · rw [hcpus]
    exact h.down
  · rw [hcpus]
    exact h.number
  · rw [hboard, hcpus]
    exact h.wakes

/-- There are numbers of turns for all of them. -/
theorem exists_waits {l : List CpuIndex} (hup : ∀ i ∈ l, m.ComesUp i) :
    ∃ wait : CpuIndex → Nat, ∀ i ∈ l, m.board.Asleep (m.cpus.cpu i).apicId 7 0 →
      m.board.wakes (m.cpus.cpu i).apicId 7 (wait i) = true := by
  have hwaits : ∀ i, ∃ w, i ∈ l → m.board.Asleep (m.cpus.cpu i).apicId 7 0 →
      m.board.wakes (m.cpus.cpu i).apicId 7 w = true := fun i => by
    by_cases hi : i ∈ l
    · obtain ⟨w, hw⟩ := (hup i hi).exists_wait
      exact ⟨w, fun _ => hw⟩
    · exact ⟨0, fun h => absurd h hi⟩
  exact ⟨fun i => Classical.choose (hwaits i), fun i => Classical.choose_spec (hwaits i)⟩

theorem nodup_others (m : Machine M) (me : CpuIndex) : (m.others me).Nodup :=
  ((List.nodup_finRange cpuLimit).filter _).filter _

/-- **The other CPUs are started**, with patience for the waits. -/
theorem goes_startOthers (me : CpuIndex) (wait : CpuIndex → Nat) {stackTop : CpuIndex → Act M Nat}
    {d : Device} {high : UInt32} (hdevice : m.bench.devices[n]? = some ⟨paddr, d⟩)
    (hhigh : d.destination = some high)
    (hpatience : d.stall + (((m.others me).map wait).sum + k) ≤ m.bench.patience)
    (hstarting : m.starting = [])
    (htells : ∀ i t, t.board = m.board → Tells (stackTop i) t (top i))
    (hup : ∀ i ∈ m.others me, m.ComesUp i)
    (hwake : ∀ i ∈ m.others me, m.board.Asleep (m.cpus.cpu i).apicId 7 0 →
      m.board.wakes (m.cpus.cpu i).apicId 7 (wait i) = true) :
    Goes (OneAtATime m paddr top (m.others me))
      (startOthers (seenRegisters (registers n)) (seenPlatform platform) me fun i =>
        stroke (stackTop i)) m
      fun _ t' => Started m n paddr (m.others me) k t' := by
  have hstart : Started m n paddr [] (((m.others me).map wait).sum + k) m :=
    ⟨.refl m, rfl, hstarting, rfl, (List.append_nil _).symm,
      ⟨d, hdevice, ⟨high, hhigh⟩, hpatience⟩, fun _ _ => rfl⟩
  have hat : OneAtATime m paddr top (m.others me) m :=
    .inl ⟨rfl, hstarting, rfl, fun i hi => (hup i hi).down⟩
  exact .bind (.cpuSet (goes_startEach (m.nodup_others me) htells (fun i hi => (hup i hi).down)
    (fun i hi => (hup i hi).number) hwake rfl hstart hat))

/-- The top of a stack is asked for at the board, which is noted. -/
theorem tells_stackTopOf (i : CpuIndex) (t : Machine M) :
    Tells (stackTopOf i) t (t.board.stackTop i) := by
  have hr : Remarks t { t with bench := { t.bench with
      events := .stackTop i.val (t.board.stackTop i) :: t.bench.events } } :=
    ⟨[.stackTop i.val (t.board.stackTop i)], by simp [Event.isWrite], rfl⟩
  exact .bind (.get (.bind ⟨⟨⟩, _, rfl, .pure ⟨rfl, hr⟩⟩))

end Starts

/-- The machine with so much patience for waits. -/
def withPatience (m : Machine M) (q : Nat) : Machine M :=
  { m with bench := { m.bench with patience := q } }

/-- **The processors are started strictly one at a time.** The CPUs in use but `me` come up once they
have been started, whenever that is, and there is enough patience for them. Then those CPUs are started,
in order, and each is sent just what starts it, `me` nothing. At every moment on the way, after each
access to a register or a port, each turn of a wait and each change of what started processors read,
either nothing has been written yet or one of them is being started: those before it are up, those after
it are not and nobody but it is on its way, what started processors read is its number and the top of its
stack, and nothing has been written for the CPUs after it. In the end they are all up. -/
theorem starts_one_at_a_time {m : Machine M} {n paddr : Nat} {values : Assoc Nat UInt32}
    {busy : Option Busy} {me : CpuIndex} {stackTop : CpuIndex → Act M Nat} {top : CpuIndex → Nat}
    (hdevice : m.bench.devices[n]? = some ⟨paddr, .file values busy⟩) (hstarting : m.starting = [])
    (htells : ∀ i t, t.board = m.board → Tells (stackTop i) t (top i))
    (hup : ∀ i ∈ m.others me, m.ComesUp i) :
    (m.others me).Pairwise (· < ·) ∧ (∀ i, i ∈ m.others me ↔ i.val < m.cpus.count ∧ i ≠ me) ∧
    ∃ p, ∀ q, p ≤ q → ∃ l m',
      (startOthers (seenRegisters (registers n)) (seenPlatform platform) me fun i =>
        stroke (stackTop i)).run (m.withPatience q) = .ok (⟨⟩, l) m' ∧
      startOthers (registers n) platform me stackTop (m.withPatience q) = .ok ⟨⟩ m' ∧
      (∀ t ∈ l, OneAtATime m paddr top (m.others me) t.machine) ∧
      m'.bench.written = m.bench.written ++ (m.others me).flatMap (m.ordersOf paddr) ∧
      ∀ i ∈ m.others me, (m'.cpus.cpu i).booted = true := by
  refine ⟨((List.pairwise_lt_finRange cpuLimit).filter _).filter _, fun i => mem_others, ?_⟩
  · obtain ⟨wait, hwait⟩ := exists_waits hup
    let d : Device := .file values busy
    refine ⟨d.stall + (((m.others me).map wait).sum + 0), fun q hq => ?_⟩
    have hgoes := goes_startOthers (m := m.withPatience q) me wait hdevice rfl hq hstarting htells
      (fun i hi => ⟨(hup i hi).down, (hup i hi).number, (hup i hi).wakes⟩) hwait
    obtain ⟨l, _, m', hrun, hl, hm'⟩ := hgoes
    have hplain := (Notes.startOthers (registers n) platform me stackTop).run hrun
    refine ⟨l, m', hrun, hplain, fun t ht => ?_, hm'.serves.written, fun i hi => ?_⟩
    · rcases hl t ht with h | ⟨before, i, after, heq, h⟩
      · exact .inl ⟨h.args, h.way, h.written, h.down⟩
      · exact .inr ⟨before, i, after, heq, h.args, h.way, h.written, h.up, h.down⟩
    · have hup' := hm'.cpus
      rw [hup']
      exact booted_foldl_setBooted hi _

/-- Three CPUs, one of which has a number out of order, and the machine starts on the second. -/
def topologyOfThree : Topology :=
  { Topology.uniprocessor with
    cpus := [⟨0, 0x14⟩, ⟨1, 0x14⟩, ⟨5, 0x14⟩], cpus_le := by decide, bsp := 1, isMp := true
    lapicAddr := 0xfee00000 }

/-- A machine with three CPUs. CPU 1 executes, and the others are up at the third turn of the wait for
them. -/
def ofThree : Machine Unit :=
  let board : Board := { phys := .ofRegions [], wakes := Board.wakesAfter 3 [] }
  let bench : Bench := { devices := #[⟨0xfee00000, .file {} none⟩] }
  { fresh board bench () with cpus := CpuSet.fresh.configure topologyOfThree }

/-- Of three CPUs the second one starts the first and then the third, and each comes up at the third turn
of the wait for it. -/
theorem starts_one_at_a_time_three :
    (∀ i ∈ ofThree.others 1, ofThree.ComesUp i) ∧ ofThree.others 1 = [0, 2] ∧
    ∃ p, ∀ q, p ≤ q → ∃ l m',
      (startOthers (seenRegisters (registers 0)) (seenPlatform platform) 1 fun i =>
        stroke (stackTopOf i)).run (ofThree.withPatience q) = .ok (⟨⟩, l) m' ∧
      (∀ t ∈ l, OneAtATime ofThree 0xfee00000 ofThree.board.stackTop [0, 2] t.machine) ∧
      m'.bench.written = orders 0xfee00000 0 ++ orders 0xfee00000 5 ∧
      (m'.cpus.cpu 0).booted = true ∧ (m'.cpus.cpu 2).booted = true := by
  have hothers : ofThree.others 1 = [0, 2] := by decide +kernel
  have hup : ∀ i ∈ ofThree.others 1, ofThree.ComesUp i := by
    rw [hothers]
    simp only [List.forall_mem_cons, List.not_mem_nil, false_imp_iff, implies_true, and_true]
    exact ⟨⟨by decide, by decide, .inr ⟨3, by decide⟩⟩, ⟨by decide, by decide, .inr ⟨3, by decide⟩⟩⟩
  have hdevice : ofThree.bench.devices[0]? = some ⟨0xfee00000, .file {} none⟩ := rfl
  have htells (i : CpuIndex) (t : Machine Unit) (ht : t.board = ofThree.board) :
      Tells (stackTopOf i) t (ofThree.board.stackTop i) := ht ▸ tells_stackTopOf i t
  obtain ⟨-, -, p, hp⟩ := starts_one_at_a_time hdevice rfl htells hup
  refine ⟨hup, hothers, p, fun q hq => ?_⟩
  obtain ⟨l, m', hrun, -, hl, hwritten, hbooted⟩ := hp q hq
  rw [hothers] at hl hwritten hbooted
  exact ⟨l, m', hrun, hl, hwritten, hbooted 0 (by decide), hbooted 2 (by decide)⟩

end Machine

end Exokernel
