import Mathlib.Logic.Function.Basic
import Exokernel.Proofs.Strokes
/-!
# The lines behind the window

Every access to the controller of the lines goes through one register that selects and one window.
`Device.behind` is what the registers behind a window hold, and `Bench.Leads` says what a
computation makes of that, whichever of them is selected: writing one of them changes that one alone
(`leads_write`). A `Setting` is what the two registers of a line are set to, so that setting the
controller up and routing lines comes to a list of settings (`leads_program`). What such a list
leaves is told by the last setting of each line (`Setting.applyAll_of_last`).
-/

namespace Exokernel

/-! ## What is behind a window -/

/-- What the registers behind the window hold, if the device is one. -/
def Device.behind : Device → Option (UInt32 → UInt32)
  | .window _ values => some fun reg => (values.get? reg).getD 0
  | _ => none

namespace Device

variable {d : Device} {file : UInt32 → UInt32} {reg value : UInt32}

/-- Selecting a register changes none of them. -/
theorem behind_select (h : d.behind = some file) :
    (d.afterWrite IoApic.select reg).behind = some file := by
  cases d with
  | window selected values => exact h
  | file | words => cases h

/-- **The selected register** is the one that is written. -/
theorem behind_write_selected (h : d.behind = some file) :
    ((d.afterWrite IoApic.select reg).afterWrite IoApic.window value).behind =
      some (Function.update file reg value) := by
  cases d with
  | window selected values =>
    obtain rfl := Option.some.inj h
    refine congrArg some (funext fun other => ?_)
    by_cases hother : other = reg
    · subst hother
      rw [Function.update_self, Assoc.get?_insert_self, Option.getD_some]
    · rw [Function.update_of_ne hother, Assoc.get?_insert_ne _ _ hother]
  | file | words => cases h

/-- **The selected register** is the one that answers. -/
theorem answer_selected (h : d.behind = some file) :
    (d.afterWrite IoApic.select reg).answer IoApic.window = file reg := by
  cases d with
  | window selected values =>
    obtain rfl := Option.some.inj h
    rfl
  | file | words => cases h

theorem behind_afterRead {offset : Nat} (h : d.behind = some file) :
    (d.afterRead offset).behind = some file := by
  cases d with
  | window selected values => exact h
  | file | words => cases h

theorem stall_of_behind (h : d.behind = some file) : d.stall = 0 := by
  cases d with
  | window selected values => rfl
  | file | words => cases h

end Device

namespace Bench

variable {α β : Type} {n : Nat} {file file' file'' : UInt32 → UInt32}

/-- What the registers hold that device `n` is a window onto, if it is one. -/
def behind (b : Bench) (n : Nat) : Option (UInt32 → UInt32) :=
  b.devices[n]?.bind fun d => d.device.behind

theorem exists_of_behind {b : Bench} (h : b.behind n = some file) :
    ∃ paddr d, b.devices[n]? = some ⟨paddr, d⟩ ∧ d.behind = some file := by
  obtain ⟨⟨paddr, d⟩, hd, hbehind⟩ := Option.bind_eq_some_iff.1 h
  exact ⟨paddr, d, hd, hbehind⟩

theorem behind_of_device {b : Bench} {paddr : Nat} {d : Device}
    (hd : b.devices[n]? = some ⟨paddr, d⟩) : b.behind n = d.behind := by
  rw [behind, hd, Option.bind_some]

/-- **What is done behind the window**: where device `n` is a window onto `file`, the computation
goes through with that answer and leaves a window onto `file'`. No other device is changed. -/
def Leads (n : Nat) (file : UInt32 → UInt32) (x : Act α) (a : α) (file' : UInt32 → UInt32) : Prop :=
  ∀ b : Bench, b.behind n = some file → ∃ b', x b = .ok a b' ∧ b'.behind n = some file' ∧
    ∀ j, j ≠ n → b'.devices[j]? = b.devices[j]?

namespace Leads

variable {x : Act α} {a : α} {c : β} {f : α → Act β}

theorem pure (a : α) : Leads n file (pure a) a file := fun b hb => ⟨b, rfl, hb, fun _ _ => rfl⟩

/-- **One after the other.** -/
theorem bind (hx : Leads n file x a file') (hf : Leads n file' (f a) c file'') :
    Leads n file (x >>= f) c file'' := by
  intro b hb
  obtain ⟨b₁, hx, hb₁, hothers⟩ := hx b hb
  obtain ⟨b₂, hf, hb₂, hothers'⟩ := hf b₁ hb₁
  refine ⟨b₂, ?_, hb₂, fun j hj => (hothers' j hj).trans (hothers j hj)⟩
  change EStateM.bind x f b = _
  unfold EStateM.bind
  rw [hx]
  exact hf

theorem say (r : Log.Record) : Leads n file (say r : Act PUnit) ⟨⟩ file := by
  intro b hb
  have hsame : (if b.logger.shows r then { b with log := b.log ++ [r] } else b).devices =
      b.devices := by
    split <;> rfl
  refine ⟨_, rfl, ?_, fun j _ => congrArg (·[j]?) hsame⟩
  rw [← hb]
  exact congrArg (fun devices => devices[n]?.bind fun d => d.device.behind) hsame

/-- What the devices were served with tells what is behind the window. -/
theorem of_ends (h : ∀ b paddr d, d.behind = some file → Serves b n paddr [] (· = d) 0 b →
    Ends x b fun r t => r = .ok a ∧ ∃ l d', d'.behind = some file' ∧
      Serves b n paddr l (· = d') 0 t) : Leads n file x a file' := by
  intro b hb
  obtain ⟨paddr, d, hd, hbehind⟩ := exists_of_behind hb
  have hserves : Serves b n paddr [] (· = d) 0 b := by
    refine ⟨(List.append_nil _).symm, ⟨d, hd, rfl, ?_⟩, fun _ _ => rfl⟩
    rw [Device.stall_of_behind hbehind]
    exact Nat.zero_le _
  have hend := (h b paddr d hbehind hserves).imp
    (R := fun r t => ∃ a', r = .ok a' ∧ a' = a ∧ ∃ l d', d'.behind = some file' ∧
      Serves b n paddr l (· = d') 0 t) fun r t hr => ⟨a, hr.1, rfl, hr.2⟩
  obtain ⟨_, b', hrun, rfl, l, d', hbehind', h'⟩ := Ends.ok_iff.1 hend
  obtain ⟨_, hd', rfl, -⟩ := h'.device
  exact ⟨b', hrun, (behind_of_device hd').trans hbehind', h'.others⟩

end Leads

/-- **Writing a register** changes that register alone. -/
theorem leads_write (n : Nat) (file : UInt32 → UInt32) (reg value : UInt32) :
    Leads n file (IoApic.write (registers n) reg value) ⟨⟩ (Function.update file reg value) := by
  refine .of_ends fun b paddr d hd h => ?_
  refine Ends.bind_iff.2 ((h.write (by decide)).imp fun r t hr => ?_)
  obtain ⟨rfl, _, rfl, h₁⟩ := hr
  refine (h₁.write (by decide)).imp fun r t hr => ?_
  obtain ⟨rfl, _, rfl, h₂⟩ := hr
  exact ⟨rfl, _, _, Device.behind_write_selected hd, h₂⟩

/-- **Reading a register** answers what it holds. -/
theorem leads_read (n : Nat) (file : UInt32 → UInt32) (reg : UInt32) :
    Leads n file (IoApic.read (registers n) reg) (file reg) file := by
  refine .of_ends fun b paddr d hd h => ?_
  refine Ends.bind_iff.2 ((h.write (by decide)).imp fun r t hr => ?_)
  obtain ⟨rfl, _, rfl, h₁⟩ := hr
  refine (h₁.read (by decide)).imp fun r t hr => ?_
  obtain ⟨_, rfl, rfl, h₂⟩ := hr
  exact ⟨congrArg _ (Device.answer_selected hd), _, _,
    Device.behind_afterRead (Device.behind_select hd), h₂⟩

end Bench

namespace IoApic

/-! ## The table of lines -/

/-- The register with the vector of a line. -/
def lowReg (line : UInt32) : UInt32 := table + 2 * line

/-- The register with the destination of a line. -/
def highReg (line : UInt32) : UInt32 := table + 2 * line + 1

/-- The window can select the registers of the line. -/
def Selectable (line : UInt32) : Prop := table.toNat + 2 * line.toNat < UInt32.size

/-- The last line of a controller whose registers hold that. -/
def lastLine (file : UInt32 → UInt32) : UInt32 := (file versionReg >>> 16) &&& 0xff

section Registers

variable {line line' reg : UInt32} {file : UInt32 → UInt32}

theorem toNat_lowReg (h : Selectable line) :
    (lowReg line).toNat = table.toNat + 2 * line.toNat := by
  have hlt : 16 + 2 * line.toNat < 2 ^ 32 := h
  have htable : table.toNat = 16 := rfl
  simp only [lowReg, UInt32.toNat_add, UInt32.toNat_mul, UInt32.reduceToNat]
  omega

theorem toNat_highReg (h : Selectable line) :
    (highReg line).toNat = table.toNat + 2 * line.toNat + 1 := by
  have hlow : (table + 2 * line).toNat = table.toNat + 2 * line.toNat := toNat_lowReg h
  have hlt : 16 + 2 * line.toNat < 2 ^ 32 := h
  have htable : table.toNat = 16 := rfl
  rw [highReg, UInt32.toNat_add, hlow]
  simp only [UInt32.reduceToNat]
  omega

theorem toNat_lastLine_le (file : UInt32 → UInt32) : (lastLine file).toNat ≤ 0xff := by
  rw [lastLine, UInt32.toNat_and]
  exact Nat.and_le_right

theorem selectable_of_le (h : line ≤ lastLine file) : Selectable line := by
  have hle : line.toNat ≤ (lastLine file).toNat := UInt32.le_iff_toNat_le.1 h
  have hlast := toNat_lastLine_le file
  change 16 + 2 * line.toNat < 2 ^ 32
  omega

theorem lowReg_ne_highReg (h : Selectable line) (h' : Selectable line') :
    lowReg line ≠ highReg line' := by
  apply ne_of_apply_ne UInt32.toNat
  rw [toNat_lowReg h, toNat_highReg h']
  omega

theorem lowReg_ne_lowReg (h : Selectable line) (h' : Selectable line') (hne : line ≠ line') :
    lowReg line ≠ lowReg line' := by
  have hne : line.toNat ≠ line'.toNat := fun heq => hne (UInt32.toNat_inj.1 heq)
  apply ne_of_apply_ne UInt32.toNat
  rw [toNat_lowReg h, toNat_lowReg h']
  omega

theorem highReg_ne_highReg (h : Selectable line) (h' : Selectable line') (hne : line ≠ line') :
    highReg line ≠ highReg line' := by
  have hne : line.toNat ≠ line'.toNat := fun heq => hne (UInt32.toNat_inj.1 heq)
  apply ne_of_apply_ne UInt32.toNat
  rw [toNat_highReg h, toNat_highReg h']
  omega

/-- The registers of the lines lie between the first of the table and the last line's. -/
theorem ne_of_outside (hreg : reg < table ∨ highReg (lastLine file) < reg)
    (h : line ≤ lastLine file) : reg ≠ lowReg line ∧ reg ≠ highReg line := by
  have hle : line.toNat ≤ (lastLine file).toNat := UInt32.le_iff_toNat_le.1 h
  rw [UInt32.lt_iff_toNat_lt, UInt32.lt_iff_toNat_lt,
    toNat_highReg (selectable_of_le (UInt32.le_refl _))] at hreg
  have hlow := toNat_lowReg (selectable_of_le h)
  have hhigh := toNat_highReg (selectable_of_le h)
  exact ⟨ne_of_apply_ne UInt32.toNat (by omega), ne_of_apply_ne UInt32.toNat (by omega)⟩

end Registers

/-! ## Settings -/

/-- What the two registers of a line are set to. -/
structure Setting where
  line : UInt32
  low : UInt32
  high : UInt32

namespace Setting

variable {s s' : Setting} {l after : List Setting} {file : UInt32 → UInt32} {reg : UInt32}

/-- The line does not come through and goes nowhere. -/
def closed (line : UInt32) : Setting := ⟨line, disabled ||| (Interrupt.base + line), 0⟩

/-- The line comes through, to the processor with a number. -/
def routed (line : UInt32) (apicId : UInt8) : Setting :=
  ⟨line, Interrupt.base + line, apicId.toUInt32 <<< 24⟩

/-- The line is routed to a processor, or to none. -/
def ofRoute (line : UInt32) : Option UInt8 → Setting
  | some apicId => routed line apicId
  | none => closed line

@[simp] theorem line_ofRoute (line : UInt32) (route : Option UInt8) :
    (ofRoute line route).line = line := by
  cases route <;> rfl

/-- What the registers hold once the line is set. -/
def apply (s : Setting) (file : UInt32 → UInt32) : UInt32 → UInt32 :=
  Function.update (Function.update file (lowReg s.line) s.low) (highReg s.line) s.high

/-- What the registers hold once the lines are set, one after the other. -/
def applyAll (l : List Setting) (file : UInt32 → UInt32) : UInt32 → UInt32 :=
  l.foldl (fun file s => s.apply file) file

theorem apply_of_ne (h : reg ≠ lowReg s.line ∧ reg ≠ highReg s.line) :
    s.apply file reg = file reg := by
  rw [apply, Function.update_of_ne h.2, Function.update_of_ne h.1]

theorem apply_lowReg (h : Selectable s.line) : s.apply file (lowReg s.line) = s.low := by
  rw [apply, Function.update_of_ne (lowReg_ne_highReg h h), Function.update_self]

theorem apply_highReg (s : Setting) (file : UInt32 → UInt32) :
    s.apply file (highReg s.line) = s.high := Function.update_self ..

/-- **Different lines are set in either order.** -/
theorem apply_comm (h : Selectable s.line) (h' : Selectable s'.line) (hne : s.line ≠ s'.line)
    (file : UInt32 → UInt32) : s'.apply (s.apply file) = s.apply (s'.apply file) := by
  unfold apply
  rw [Function.update_comm (lowReg_ne_highReg h' h).symm,
    Function.update_comm (lowReg_ne_lowReg h h' hne),
    Function.update_comm (highReg_ne_highReg h h' hne),
    Function.update_comm (lowReg_ne_highReg h h')]

theorem applyAll_append (l l' : List Setting) (file : UInt32 → UInt32) :
    applyAll (l ++ l') file = applyAll l' (applyAll l file) := List.foldl_append

theorem applyAll_cons (s : Setting) (l : List Setting) (file : UInt32 → UInt32) :
    applyAll (s :: l) file = applyAll l (s.apply file) := rfl

/-- A register of none of the lines keeps what it holds. -/
theorem applyAll_of_ne (h : ∀ s ∈ l, reg ≠ lowReg s.line ∧ reg ≠ highReg s.line) :
    applyAll l file reg = file reg := by
  induction l generalizing file with
  | nil => rfl
  | cons s l ih =>
    rw [applyAll_cons, ih fun s' hs' => h s' (List.mem_cons_of_mem s hs'),
      apply_of_ne (h s List.mem_cons_self)]

/-- **The last setting of a line** is what its registers hold. -/
theorem applyAll_of_last (before : List Setting) (file : UInt32 → UInt32) (hs : Selectable s.line)
    (hafter : ∀ s' ∈ after, Selectable s'.line) (hlast : ∀ s' ∈ after, s'.line ≠ s.line) :
    applyAll (before ++ s :: after) file (lowReg s.line) = s.low ∧
      applyAll (before ++ s :: after) file (highReg s.line) = s.high := by
  rw [applyAll_append, applyAll_cons]
  constructor
  · rw [applyAll_of_ne fun s' hs' => ⟨lowReg_ne_lowReg hs (hafter s' hs') (hlast s' hs').symm,
      lowReg_ne_highReg hs (hafter s' hs')⟩, apply_lowReg hs]
  · rw [applyAll_of_ne fun s' hs' => ⟨(lowReg_ne_highReg (hafter s' hs') hs).symm,
      highReg_ne_highReg hs (hafter s' hs') (hlast s' hs').symm⟩, apply_highReg]

end Setting

/-! ## Programming the controller -/

/-- Every line up to the last is closed. -/
def closings (last : UInt32) : List Setting :=
  (List.range (last.toNat + 1)).map fun i => Setting.closed (UInt32.ofNat i)

/-- The lines of the routes are opened. -/
def openings (routes : List (UInt32 × UInt8)) : List Setting :=
  routes.map fun e => Setting.routed e.1 e.2

/-- What the registers hold once the controller is set up and the lines are routed. -/
def programmed (file : UInt32 → UInt32) (routes : List (UInt32 × UInt8)) : UInt32 → UInt32 :=
  Setting.applyAll (closings (lastLine file) ++ openings routes) file

/-- The controller is set up, and lines are routed one after the other. -/
def program (r : Registers Bench.Act) (expectedId : UInt8) (routes : List (UInt32 × UInt8)) :
    Bench.Act Unit := do
  init r expectedId
  routes.forM fun e => route r e.1 e.2

section Programming

open Bench (Leads leads_read leads_write)

variable {n : Nat} {file : UInt32 → UInt32} {line : UInt32} {routes : List (UInt32 × UInt8)}

theorem leads_maxLine (n : Nat) (file : UInt32 → UInt32) :
    Leads n file (maxLine (Bench.registers n)) (lastLine file) file :=
  .bind (leads_read n file versionReg) (.pure _)

theorem leads_writeLine (n : Nat) (file : UInt32 → UInt32) (s : Setting) :
    Leads n file (writeLine (Bench.registers n) s.line s.low s.high) ⟨⟩ (s.apply file) :=
  .bind (leads_write n file _ _) (leads_write n _ _ _)

/-- **Line after line** is set. -/
theorem leads_forM {β : Type} {f : β → Bench.Act PUnit} {setting : β → Setting} {l : List β}
    (h : ∀ b ∈ l, ∀ file, Leads n file (f b) ⟨⟩ ((setting b).apply file)) (file : UInt32 → UInt32) :
    Leads n file (l.forM f) ⟨⟩ (Setting.applyAll (l.map setting) file) := by
  induction l generalizing file with
  | nil => exact .pure _
  | cons b l ih =>
    exact .bind (h b List.mem_cons_self file)
      (ih (fun b' hb' => h b' (List.mem_cons_of_mem b hb')) _)

/-- **Setting the controller up** closes its lines, whatever number it goes by. -/
theorem leads_init (n : Nat) (file : UInt32 → UInt32) (expectedId : UInt8) :
    Leads n file (init (Bench.registers n) expectedId) ⟨⟩
      (Setting.applyAll (closings (lastLine file)) file) := by
  have hlines := leads_forM (n := n) (l := List.range ((lastLine file).toNat + 1))
    (fun i _ file => leads_writeLine n file (Setting.closed (UInt32.ofNat i))) file
  unfold init
  refine .bind (leads_maxLine n file) (.bind (leads_read n file idReg) ?_)
  dsimp only
  -- the warning changes no register
  split
  · exact .bind (.say _) hlines
  · exact hlines

/-- A line whose registers the window can select is opened. -/
theorem leads_route (h : Selectable line) (apicId : UInt8) (file : UInt32 → UInt32) :
    Leads n file (route (Bench.registers n) line apicId) ⟨⟩
      ((Setting.routed line apicId).apply file) := by
  unfold route
  rw [if_neg (Nat.not_le.2 h)]
  exact leads_writeLine n file (Setting.routed line apicId)

theorem leads_program (n : Nat) (hroutes : ∀ e ∈ routes, e.1 ≤ lastLine file)
    (expectedId : UInt8) :
    Leads n file (program (Bench.registers n) expectedId routes) ⟨⟩ (programmed file routes) := by
  unfold programmed
  rw [Setting.applyAll_append]
  exact .bind (leads_init n file expectedId)
    (leads_forM (fun e he file => leads_route (selectable_of_le (hroutes e he)) e.2 file) _)

/-! ### What is left in the end -/

theorem toNat_ofNat_of_mem_range {last : UInt32} {i : Nat} (h : i ∈ List.range (last.toNat + 1)) :
    (UInt32.ofNat i).toNat = i := by
  have hi : i < last.toNat + 1 := List.mem_range.1 h
  have hlast : last.toNat < 2 ^ 32 := last.toNat_lt
  exact UInt32.toNat_ofNat_of_lt' (by change i < 2 ^ 32; omega)

/-- **Every line up to the last is closed once.** -/
theorem exists_closings {last : UInt32} (h : line ≤ last) :
    ∃ before after, closings last = before ++ Setting.closed line :: after ∧
      ∀ s ∈ after, s.line ≠ line := by
  have hle : line.toNat ≤ last.toNat := UInt32.le_iff_toNat_le.1 h
  obtain ⟨before, after, hsplit⟩ :=
    List.append_of_mem (List.mem_range.2 (Nat.lt_succ_of_le hle))
  have honce : (before ++ line.toNat :: after).Nodup := hsplit ▸ List.nodup_range
  have hnot : line.toNat ∉ after := (List.nodup_cons.1 (List.nodup_append.1 honce).2.1).1
  refine ⟨before.map fun i => Setting.closed (UInt32.ofNat i),
    after.map fun i => Setting.closed (UInt32.ofNat i), ?_, fun s hs heq => ?_⟩
  · rw [closings, hsplit, List.map_append, List.map_cons, UInt32.ofNat_toNat]
  · obtain ⟨i, hi, rfl⟩ := List.mem_map.1 hs
    have hmem : i ∈ List.range (last.toNat + 1) :=
      hsplit ▸ List.mem_append_right _ (List.mem_cons_of_mem _ hi)
    have hline : line.toNat = i := heq ▸ toNat_ofNat_of_mem_range hmem
    exact hnot (hline ▸ hi)

/-- **The last setting of a line** is its last route; a line without a route stays closed. -/
theorem exists_last_setting {last : UInt32} (h : line ≤ last) (routes : List (UInt32 × UInt8)) :
    ∃ before after, closings last ++ openings routes =
        before ++ Setting.ofRoute line (routes.reverse.lookup line) :: after ∧
      ∀ s ∈ after, s.line ≠ line := by
  -- read from the end, the first route of the line that is met is the last one made
  cases hroute : routes.reverse.lookup line with
  | some apicId =>
    obtain ⟨later, earlier, hsplit, hlater⟩ := List.lookup_eq_some_iff.1 hroute
    have hroutes : routes = earlier.reverse ++ (line, apicId) :: later.reverse := by
      rw [← List.reverse_reverse routes, hsplit, List.reverse_append, List.reverse_cons,
        List.append_assoc, List.singleton_append]
    refine ⟨closings last ++ openings earlier.reverse, openings later.reverse, ?_, fun s hs => ?_⟩
    · rw [hroutes, List.append_assoc]
      exact congrArg _ List.map_append
    · obtain ⟨e, he, rfl⟩ := List.mem_map.1 hs
      exact (bne_iff_ne.1 (hlater e (List.mem_reverse.1 he))).symm
  | none =>
    obtain ⟨before, after, hsplit, hafter⟩ := exists_closings h
    refine ⟨before, after ++ openings routes, by rw [hsplit]; exact List.append_assoc ..,
      fun s hs => ?_⟩
    rcases List.mem_append.1 hs with hs | hs
    · exact hafter s hs
    · obtain ⟨e, he, rfl⟩ := List.mem_map.1 hs
      exact (bne_iff_ne.1 (List.lookup_eq_none_iff.1 hroute e (List.mem_reverse.2 he))).symm

/-- No line beyond the last is set. -/
theorem le_of_mem_settings {s : Setting} (hroutes : ∀ e ∈ routes, e.1 ≤ lastLine file)
    (hs : s ∈ closings (lastLine file) ++ openings routes) : s.line ≤ lastLine file := by
  rcases List.mem_append.1 hs with hs | hs
  · obtain ⟨i, hi, rfl⟩ := List.mem_map.1 hs
    have hline : (Setting.closed (UInt32.ofNat i)).line.toNat = i := toNat_ofNat_of_mem_range hi
    rw [UInt32.le_iff_toNat_le, hline]
    exact Nat.le_of_lt_succ (List.mem_range.1 hi)
  · obtain ⟨e, he, rfl⟩ := List.mem_map.1 hs
    exact hroutes e he

/-- **The registers of a line** hold its last route. -/
theorem programmed_line (hroutes : ∀ e ∈ routes, e.1 ≤ lastLine file) (h : line ≤ lastLine file) :
    programmed file routes (lowReg line) =
        (Setting.ofRoute line (routes.reverse.lookup line)).low ∧
      programmed file routes (highReg line) =
        (Setting.ofRoute line (routes.reverse.lookup line)).high := by
  obtain ⟨before, after, hsplit, hafter⟩ := exists_last_setting h routes
  have hall : ∀ s ∈ after, Selectable s.line := fun s hs => selectable_of_le
    (le_of_mem_settings hroutes (hsplit ▸ List.mem_append_right _ (List.mem_cons_of_mem _ hs)))
  have hlast := Setting.applyAll_of_last (s := .ofRoute line (routes.reverse.lookup line)) before
    file (by simpa using selectable_of_le h) hall (by simpa using hafter)
  rw [Setting.line_ofRoute] at hlast
  rw [programmed, hsplit]
  exact hlast

theorem programmed_of_outside (hroutes : ∀ e ∈ routes, e.1 ≤ lastLine file) {reg : UInt32}
    (hreg : reg < table ∨ highReg (lastLine file) < reg) :
    programmed file routes reg = file reg :=
  Setting.applyAll_of_ne fun _ hs => ne_of_outside hreg (le_of_mem_settings hroutes hs)

theorem lastLine_programmed (hroutes : ∀ e ∈ routes, e.1 ≤ lastLine file) :
    lastLine (programmed file routes) = lastLine file := by
  unfold lastLine
  rw [programmed_of_outside hroutes (.inl (by decide))]

/-- **Routes of different lines** may be exchanged. -/
theorem programmed_swap {before after : List (UInt32 × UInt8)} {e e' : UInt32 × UInt8}
    (h : e.1 ≤ lastLine file) (h' : e'.1 ≤ lastLine file) (hne : e.1 ≠ e'.1) :
    programmed file (before ++ e' :: e :: after) =
      programmed file (before ++ e :: e' :: after) := by
  have hcomm : ∀ file', (Setting.routed e'.1 e'.2).apply ((Setting.routed e.1 e.2).apply file') =
      (Setting.routed e.1 e.2).apply ((Setting.routed e'.1 e'.2).apply file') :=
    Setting.apply_comm (selectable_of_le h) (selectable_of_le h') hne
  simp only [programmed, openings, List.map_append, List.map_cons, Setting.applyAll_append,
    Setting.applyAll_cons, hcomm]

/-- **The last route of a line counts.** Device `n` is a window, and the registers behind it hold
what `file` says, whatever that is. Setting the controller up and routing lines up to its last goes
through. In the end the registers of each line hold its last route, and those of a line that was not
routed say that it is closed. Every register outside of the table holds what it did, no other device
is changed, and the controller tells the same last line before and after. Two routes of different
lines, one after the other anywhere in between, may be exchanged: every register ends up the same,
and only another one may be left selected. -/
theorem last_route_counts {b : Bench} (hbehind : b.behind n = some file) (expectedId : UInt8)
    (hroutes : ∀ e ∈ routes, e.1 ≤ lastLine file) :
    ∃ b' file', program (Bench.registers n) expectedId routes b = .ok ⟨⟩ b' ∧
      b'.behind n = some file' ∧
      (∀ line, line ≤ lastLine file → (file' (lowReg line), file' (highReg line)) =
        match routes.reverse.lookup line with
        | some apicId => (Interrupt.base + line, apicId.toUInt32 <<< 24)
        | none => (disabled ||| (Interrupt.base + line), 0)) ∧
      (∀ reg, reg < table ∨ highReg (lastLine file) < reg → file' reg = file reg) ∧
      (∀ before e e' after, routes = before ++ e :: e' :: after → e.1 ≠ e'.1 →
        ∃ b'', program (Bench.registers n) expectedId (before ++ e' :: e :: after) b = .ok ⟨⟩ b'' ∧
          b''.behind n = some file') ∧
      (∀ j, j ≠ n → b'.devices[j]? = b.devices[j]?) ∧
      (∃ t, maxLine (Bench.registers n) b = .ok (lastLine file) t) ∧
      ∃ t, maxLine (Bench.registers n) b' = .ok (lastLine file) t := by
  obtain ⟨b', hrun, hb', hothers⟩ := leads_program n hroutes expectedId b hbehind
  obtain ⟨t, hmax, -⟩ := leads_maxLine n file b hbehind
  obtain ⟨t', hmax', -⟩ := leads_maxLine n _ b' hb'
  rw [lastLine_programmed hroutes] at hmax'
  refine ⟨b', programmed file routes, hrun, hb', fun line hline => ?_,
    fun reg hreg => programmed_of_outside hroutes hreg, ?_, hothers, ⟨t, hmax⟩, ⟨t', hmax'⟩⟩
  · obtain ⟨hlow, hhigh⟩ := programmed_line hroutes hline
    rw [hlow, hhigh]
    cases routes.reverse.lookup line <;> rfl
  · rintro before e e' after rfl hne
    have hperm : (before ++ e' :: e :: after).Perm (before ++ e :: e' :: after) :=
      (List.Perm.swap e e' after).append_left before
    obtain ⟨b'', hrun', hb'', -⟩ := leads_program n
      (fun x hx => hroutes x (hperm.mem_iff.1 hx)) expectedId b hbehind
    have hsame : programmed file (before ++ e' :: e :: after) =
        programmed file (before ++ e :: e' :: after) :=
      programmed_swap (hroutes e (by simp)) (hroutes e' (by simp)) hne
    exact ⟨b'', hrun', hb''.trans (congrArg some hsame)⟩

/-- A controller of three lines that has been used before, and is not the one the firmware names. -/
def ofThreeLines : Device :=
  .window 0x13 (.ofList [(idReg, 0x05000000), (versionReg, 0x00020011), (0x10, 0x777),
    (0x13, 0x42), (0x16, 0xdead)])

/-- Line 0 is routed once, line 1 twice with line 0 in between, and line 2 not at all. -/
theorem last_route_counts_twice :
    ∃ b file b' file', b.devices = #[⟨0xfec00000, ofThreeLines⟩] ∧ b.behind 0 = some file ∧
      lastLine file = 2 ∧
      program (Bench.registers 0) 2 [(1, 3), (0, 7), (1, 2)] b = .ok ⟨⟩ b' ∧
      b'.behind 0 = some file' ∧
      (file' 0x10, file' 0x11) = (32, 0x07000000) ∧ (file' 0x12, file' 0x13) = (33, 0x02000000) ∧
      (file' 0x14, file' 0x15) = (0x10022, 0) ∧ file' 0x16 = 0xdead := by
  let b : Bench := { devices := #[⟨0xfec00000, ofThreeLines⟩] }
  obtain ⟨file, hbehind⟩ : ∃ file, ofThreeLines.behind = some file := ⟨_, rfl⟩
  have hlast : lastLine file = 2 := by
    obtain rfl := Option.some.inj hbehind
    decide
  have hkept : file 0x16 = 0xdead := by
    obtain rfl := Option.some.inj hbehind
    decide
  have hroutes : ∀ e ∈ [((1 : UInt32), (3 : UInt8)), (0, 7), (1, 2)], e.1 ≤ lastLine file := by
    simp only [hlast, List.forall_mem_cons, List.not_mem_nil, false_imp_iff, implies_true, and_true]
    decide
  obtain ⟨b', file', hrun, hb', hlines, hothers, -⟩ :=
    last_route_counts (b := b) (n := 0) hbehind 2 hroutes
  rw [hlast] at hlines hothers
  exact ⟨b, file, b', file', rfl, hbehind, hlast, hrun, hb', hlines 0 (by decide),
    hlines 1 (by decide), hlines 2 (by decide), (hothers 0x16 (by decide)).trans hkept⟩

end Programming

end IoApic

end Exokernel
