import Mathlib.Data.List.Induction
import Mathlib.Data.Nat.Bitwise
import Exokernel.Proofs.Tables
/-!
# The machine a configuration table describes

`Describes` says what a list of entries tells of the machine, without the walk that finds it out.
Taking the entries into account one after the other adds up to that (`Survey.Sums`), as long as the
processors come with the numbers the walk expects (`Numbered`), which are their places up to the
most processors the kernel runs on and stay at that number from then on. A processor with another
number stops the walk (`Survey.addAll_misfit`).
-/

namespace Exokernel

namespace Firmware

/-! ## What entries tell -/

/-- The processor an entry tells of. -/
def Entry.processor? : Entry → Option ProcessorEntry
  | .processor e => some e
  | _ => none

/-- The controller of interrupt lines an entry tells of. -/
def Entry.ioApic? : Entry → Option IoApicEntry
  | .ioApic e => some e
  | _ => none

/-- The processors of a table, in order. -/
def processors (entries : List Entry) : List ProcessorEntry := entries.filterMap Entry.processor?

/-- The controllers of interrupt lines of a table, in order. -/
def ioApics (entries : List Entry) : List IoApicEntry := entries.filterMap Entry.ioApic?

/-- What the kernel keeps of a processor. -/
def ProcessorEntry.cpu (e : ProcessorEntry) : CpuEntry := ⟨e.apicId, e.apicVersion⟩

/-- The place of the last processor that is flagged as the one the machine started on, or 0 if none
is. -/
def IsBootPlace (l : List ProcessorEntry) (place : Nat) : Prop :=
  (∃ e, l[place]? = some e ∧ e.flags.toNat.testBit 1 = true ∧
    ∀ (j : Nat) (e' : ProcessorEntry), place < j → l[j]? = some e' →
      e'.flags.toNat.testBit 1 = false) ∨
  (∀ e ∈ l, e.flags.toNat.testBit 1 = false) ∧ place = 0

/-- **The topology that entries describe**, read off the list of them. -/
structure Describes (p : FloatingPointer) (h : Header) (entries : List Entry) (t : Topology) :
    Prop where
  cpus : t.cpus = (processors entries).map ProcessorEntry.cpu
  bsp : IsBootPlace (processors entries) t.bsp
  ioApicId : t.ioApicId = ((ioApics entries).getLast?.map IoApicEntry.apicId).getD 0
  ioApicAddr : t.ioApicAddr = ((ioApics entries).getLast?.map IoApicEntry.addr).getD 0
  lapicAddr : t.lapicAddr = h.lapicAddr
  imcr : t.imcr = p.imcrp.toNat.testBit 7
  isMp : t.isMp = true

/-- The entries without the processors past the first `n`. -/
def keeping : Nat → List Entry → List Entry
  | _, [] => []
  | 0, .processor _ :: rest => keeping 0 rest
  | n + 1, .processor e :: rest => .processor e :: keeping n rest
  | n, .ioApic e :: rest => .ioApic e :: keeping n rest
  | n, .other :: rest => .other :: keeping n rest

/-- The processors come with the numbers the walk expects: their places, up to the most processors
the kernel runs on. -/
def Numbered (l : List ProcessorEntry) : Prop :=
  ∀ (i : Nat) (e : ProcessorEntry), l[i]? = some e → e.apicId.toNat = min i cpuLimit

section Lists

variable {entries : List Entry} {l : List ProcessorEntry} {e : ProcessorEntry} {place : Nat}

theorem ProcessorEntry.isBoot_eq (e : ProcessorEntry) : e.isBoot = e.flags.toNat.testBit 1 := by
  rw [isBoot, Nat.testBit_eq_decide_div_mod_eq]
  rfl

theorem FloatingPointer.hasImcr_eq (p : FloatingPointer) : p.hasImcr = p.imcrp.toNat.testBit 7 := by
  rw [hasImcr, Nat.testBit_eq_decide_div_mod_eq]
  rfl

@[simp] theorem processors_nil : processors [] = [] := rfl

@[simp] theorem processors_processor (e : ProcessorEntry) (rest : List Entry) :
    processors (.processor e :: rest) = e :: processors rest := rfl

@[simp] theorem processors_ioApic (e : IoApicEntry) (rest : List Entry) :
    processors (.ioApic e :: rest) = processors rest := rfl

@[simp] theorem processors_other (rest : List Entry) :
    processors (.other :: rest) = processors rest := rfl

@[simp] theorem processors_append (a b : List Entry) :
    processors (a ++ b) = processors a ++ processors b := List.filterMap_append

@[simp] theorem ioApics_nil : ioApics [] = [] := rfl

@[simp] theorem ioApics_processor (e : ProcessorEntry) (rest : List Entry) :
    ioApics (.processor e :: rest) = ioApics rest := rfl

@[simp] theorem ioApics_ioApic (e : IoApicEntry) (rest : List Entry) :
    ioApics (.ioApic e :: rest) = e :: ioApics rest := rfl

@[simp] theorem ioApics_other (rest : List Entry) : ioApics (.other :: rest) = ioApics rest := rfl

@[simp] theorem ioApics_append (a b : List Entry) : ioApics (a ++ b) = ioApics a ++ ioApics b :=
  List.filterMap_append

theorem processors_keeping (n : Nat) (entries : List Entry) :
    processors (keeping n entries) = (processors entries).take n := by
  fun_induction keeping n entries with
  | case1 => simp
  | case2 e rest ih => simp [ih]
  | case3 n e rest ih => simp [ih]
  | case4 n e rest ih => simp [ih]
  | case5 n rest ih => simp [ih]

theorem processors_keeping_ne_nil {n : Nat} (hn : n ≠ 0) (h : processors entries ≠ []) :
    processors (keeping n entries) ≠ [] := by
  rw [processors_keeping, ne_eq, List.take_eq_nil_iff]
  simp [hn, h]

theorem ioApics_keeping (n : Nat) (entries : List Entry) :
    ioApics (keeping n entries) = ioApics entries := by
  fun_induction keeping n entries with
  | case1 => rfl
  | case2 e rest ih => simp [ih]
  | case3 n e rest ih => simp [ih]
  | case4 n e rest ih => simp [ih]
  | case5 n rest ih => simp [ih]

/-- Where there are no more processors than are kept, none is left out. -/
theorem keeping_of_le {n : Nat} (h : (processors entries).length ≤ n) : keeping n entries = entries := by
  fun_induction keeping n entries with
  | case1 => rfl
  | case2 e rest ih => simp at h
  | case3 n e rest ih => rw [ih (Nat.le_of_succ_le_succ h)]
  | case4 n e rest ih => rw [ih h]
  | case5 n rest ih => rw [ih h]

variable {p : ProcessorEntry}

/-- A processor at the end is the last one that is flagged, or leaves that to the others. -/
theorem IsBootPlace.concat (h : IsBootPlace l place) (p : ProcessorEntry) :
    IsBootPlace (l ++ [p]) (if p.flags.toNat.testBit 1 then l.length else place) := by
  have hlast : (l ++ [p])[l.length]? = some p := List.getElem?_concat_length
  split
  · next hp =>
    refine .inl ⟨p, hlast, hp, fun j e' hj he' => ?_⟩
    have := (List.getElem?_eq_some_iff.1 he').1
    rw [List.length_append, List.length_singleton] at this
    omega
  · next hp =>
    rw [Bool.not_eq_true] at hp
    rcases h with ⟨e, he, hboot, hlater⟩ | ⟨hnone, hplace⟩
    · have hlt := (List.getElem?_eq_some_iff.1 he).1
      refine .inl ⟨e, by rw [List.getElem?_append_left hlt, he], hboot, fun j e' hj he' => ?_⟩
      by_cases hjl : j < l.length
      · exact hlater j e' hj (by rwa [List.getElem?_append_left hjl] at he')
      · have := (List.getElem?_eq_some_iff.1 he').1
        rw [List.length_append, List.length_singleton] at this
        obtain rfl : j = l.length := by omega
        cases hlast.symm.trans he'
        exact hp
    · refine .inr ⟨fun e he => ?_, hplace⟩
      rcases List.mem_append.1 he with he | he
      · exact hnone e he
      · rw [List.mem_singleton.1 he, hp]

theorem numbered_concat : Numbered (l ++ [p]) ↔ Numbered l ∧ p.apicId.toNat = min l.length cpuLimit := by
  constructor
  · intro h
    refine ⟨fun i e he => h i e ?_, h l.length p List.getElem?_concat_length⟩
    rw [List.getElem?_append_left (List.getElem?_eq_some_iff.1 he).1, he]
  · rintro ⟨h, hp⟩ i e he
    by_cases hi : i < l.length
    · exact h i e (by rwa [List.getElem?_append_left hi] at he)
    · have := (List.getElem?_eq_some_iff.1 he).1
      rw [List.length_append, List.length_singleton] at this
      obtain rfl : i = l.length := by omega
      cases List.getElem?_concat_length.symm.trans he
      exact hp

/-- There is one last processor that is flagged. -/
theorem IsBootPlace.eq {l : List ProcessorEntry} {place place' : Nat} (h : IsBootPlace l place)
    (h' : IsBootPlace l place') : place = place' := by
  rcases h with ⟨e, he, hboot, hlater⟩ | ⟨hnone, rfl⟩
  · rcases h' with ⟨e', he', hboot', hlater'⟩ | ⟨hnone', -⟩
    · rcases Nat.lt_trichotomy place place' with hlt | rfl | hlt
      · exact absurd hboot' (by rw [hlater place' e' hlt he']; decide)
      · rfl
      · exact absurd hboot (by rw [hlater' place e hlt he]; decide)
    · exact absurd hboot (by rw [hnone' e (List.mem_of_getElem? he)]; decide)
  · rcases h' with ⟨e', he', hboot', -⟩ | ⟨-, rfl⟩
    · exact absurd hboot' (by rw [hnone e' (List.mem_of_getElem? he')]; decide)
    · rfl

/-- **Entries describe one topology.** -/
theorem Describes.eq {p : FloatingPointer} {h : Header} {entries : List Entry} {t t' : Topology}
    (ht : Describes p h entries t) (ht' : Describes p h entries t') : t = t' := by
  cases t
  cases t'
  rw [Topology.mk.injEq]
  exact ⟨ht.cpus.trans ht'.cpus.symm, ht.bsp.eq ht'.bsp, ht.ioApicId.trans ht'.ioApicId.symm,
    ht.ioApicAddr.trans ht'.ioApicAddr.symm, ht.lapicAddr.trans ht'.lapicAddr.symm,
    ht.imcr.trans ht'.imcr.symm, ht.isMp.trans ht'.isMp.symm⟩

/-- Where a processor of the list stands among the entries. -/
theorem exists_split_of_processors {entries : List Entry} {i : Nat} {e : ProcessorEntry}
    (h : (processors entries)[i]? = some e) :
    ∃ before after, entries = before ++ .processor e :: after ∧
      (processors before).length = i := by
  induction entries generalizing i with
  | nil => cases h
  | cons entry rest ih =>
    cases entry with
    | processor e' =>
      cases i with
      | zero =>
        cases h
        exact ⟨[], rest, rfl, rfl⟩
      | succ i =>
        obtain ⟨before, after, rfl, hlen⟩ := ih h
        exact ⟨.processor e' :: before, after, rfl, congrArg (· + 1) hlen⟩
    | ioApic e' =>
      obtain ⟨before, after, rfl, hlen⟩ := ih h
      exact ⟨.ioApic e' :: before, after, rfl, hlen⟩
    | other =>
      obtain ⟨before, after, rfl, hlen⟩ := ih h
      exact ⟨.other :: before, after, rfl, hlen⟩

/-- The first processors are numbered as all of them are. -/
theorem Numbered.take (h : Numbered l) (n : Nat) : Numbered (l.take n) := by
  intro i e he
  rw [List.getElem?_take] at he
  split at he
  · exact h i e he
  · cases he

end Lists

/-! ## Adding entries up -/

namespace Survey

variable {s s' : Survey} {entries : List Entry} {e : Entry} {l : List ProcessorEntry}
  {p : ProcessorEntry}

/-- What is said of a processor that is one too many. -/
def tooMany (e : ProcessorEntry) : Log.Record where
  level := .warn
  target := Log.Target.firmware
  message := "mp: too many CPUs detected, CPU " ++ toString e.apicId.toNat ++ " disabled"

/-- **What is known after some entries** is what the entries that are kept tell. -/
structure Sums (s : Survey) (entries : List Entry) : Prop where
  cpus : s.cpus = ((processors entries).take cpuLimit).map ProcessorEntry.cpu
  bsp : IsBootPlace ((processors entries).take cpuLimit) s.bsp
  ioApicId : s.ioApicId = ((ioApics entries).getLast?.map IoApicEntry.apicId).getD 0
  ioApicAddr : s.ioApicAddr = ((ioApics entries).getLast?.map IoApicEntry.addr).getD 0
  warnings : s.warnings = ((processors entries).drop cpuLimit).map tooMany

theorem Sums.length_cpus (h : s.Sums entries) :
    s.cpus.length = min (processors entries).length cpuLimit := by
  rw [h.cpus, List.length_map, List.length_take, Nat.min_comm]

/-- A processor is kept while there is room. -/
theorem Sums.addProcessor_kept (h : s.Sums entries) (hp : p.apicId.toNat = (processors entries).length)
    (hfew : (processors entries).length < cpuLimit) :
    ∃ s', s.addProcessor p = (s', none) ∧ s'.Sums (entries ++ [.processor p]) := by
  have hlen : s.cpus.length = (processors entries).length := by
    rw [h.length_cpus, Nat.min_eq_left (Nat.le_of_lt hfew)]
  have hroom : s.cpus.length < cpuLimit := hlen ▸ hfew
  have hprocs : processors (entries ++ [.processor p]) = processors entries ++ [p] := by simp
  have hioApics : ioApics (entries ++ [.processor p]) = ioApics entries := by simp
  have hmore : (processors entries ++ [p]).length ≤ cpuLimit := by
    simpa using Nat.succ_le_of_lt hfew
  have hkept : (processors entries).take cpuLimit = processors entries :=
    List.take_of_length_le (Nat.le_of_lt hfew)
  have hplace := IsBootPlace.concat h.bsp p
  rw [hkept] at hplace
  unfold Survey.addProcessor
  dsimp only
  rw [if_neg (by rw [hlen, not_not, hp]), dif_pos hroom]
  refine ⟨_, rfl, ?_, ?_, ?_, ?_, ?_⟩
  · rw [hprocs, List.take_of_length_le hmore, List.map_append]
    exact congrArg (· ++ [p.cpu]) (h.cpus.trans (by rw [hkept]))
  · rw [hprocs, List.take_of_length_le hmore]
    dsimp only
    rw [p.isBoot_eq, hlen]
    exact hplace
  · rw [hioApics]; exact h.ioApicId
  · rw [hioApics]; exact h.ioApicAddr
  · rw [hprocs, List.drop_eq_nil_of_le hmore]
    exact h.warnings.trans (by rw [List.drop_eq_nil_of_le (Nat.le_of_lt hfew)])

/-- A processor is left out where there is no room. -/
theorem Sums.addProcessor_left_out (h : s.Sums entries) (hp : p.apicId.toNat = cpuLimit)
    (hmany : cpuLimit ≤ (processors entries).length) :
    ∃ s', s.addProcessor p = (s', none) ∧ s'.Sums (entries ++ [.processor p]) := by
  have hlen : s.cpus.length = cpuLimit := by rw [h.length_cpus, Nat.min_eq_right hmany]
  have hprocs : processors (entries ++ [.processor p]) = processors entries ++ [p] := by simp
  have hioApics : ioApics (entries ++ [.processor p]) = ioApics entries := by simp
  unfold Survey.addProcessor
  dsimp only
  rw [if_neg (by rw [hlen, not_not, hp]), dif_neg (by rw [hlen]; exact Nat.lt_irrefl _)]
  refine ⟨_, rfl, ?_, ?_, ?_, ?_, ?_⟩
  · rw [hprocs, List.take_append_of_le_length hmany]; exact h.cpus
  · rw [hprocs, List.take_append_of_le_length hmany]; exact h.bsp
  · rw [hioApics]; exact h.ioApicId
  · rw [hioApics]; exact h.ioApicAddr
  · rw [hprocs, List.drop_append_of_le_length hmany, List.map_append, ← h.warnings]
    rfl

/-- **A processor with the expected number** is taken into account. -/
theorem Sums.addProcessor (h : s.Sums entries)
    (hp : p.apicId.toNat = min (processors entries).length cpuLimit) :
    ∃ s', s.addProcessor p = (s', none) ∧ s'.Sums (entries ++ [.processor p]) := by
  rcases Nat.lt_or_ge (processors entries).length cpuLimit with hfew | hmany
  · exact h.addProcessor_kept (by rw [hp, Nat.min_eq_left (Nat.le_of_lt hfew)]) hfew
  · exact h.addProcessor_left_out (by rw [hp, Nat.min_eq_right hmany]) hmany

/-- A processor with another number does not fit in. -/
theorem Sums.addProcessor_misfit (h : s.Sums entries)
    (hp : p.apicId.toNat ≠ min (processors entries).length cpuLimit) :
    s.addProcessor p =
      (s, some (.apicIdMismatch (min (processors entries).length cpuLimit) p.apicId)) := by
  have hnum : p.apicId.toNat ≠ s.cpus.length := by rwa [h.length_cpus]
  exact (if_pos hnum).trans (by rw [h.length_cpus])

theorem addAll_append (s : Survey) (a b : List Entry) : s.addAll (a ++ b) =
    match s.addAll a with
    | (s, none) => s.addAll b
    | (s, some err) => (s, some err) := by
  induction a generalizing s with
  | nil => rfl
  | cons e rest ih =>
    rw [List.cons_append, addAll, addAll]
    rcases s.add e with ⟨s', _ | err⟩
    · exact ih s'
    · rfl

theorem sums_nil : ({} : Survey).Sums [] :=
  ⟨rfl, .inr ⟨nofun, rfl⟩, rfl, rfl, rfl⟩

/-- **An entry is taken into account**, if it is not a processor with another number. -/
theorem Sums.add (h : s.Sums entries) (e : Entry)
    (hnumbered : Numbered (processors (entries ++ [e]))) :
    ∃ s', s.add e = (s', none) ∧ s'.Sums (entries ++ [e]) := by
  cases e with
  | processor p =>
    rw [processors_append] at hnumbered
    exact h.addProcessor (numbered_concat.1 hnumbered).2
  | ioApic e =>
    have hprocs : processors (entries ++ [.ioApic e]) = processors entries := by simp
    have hlast : (ioApics (entries ++ [.ioApic e])).getLast? = some e := by simp
    refine ⟨_, rfl, ?_, ?_, ?_, ?_, ?_⟩
    · rw [hprocs]; exact h.cpus
    · rw [hprocs]; exact h.bsp
    · rw [hlast]; rfl
    · rw [hlast]; rfl
    · rw [hprocs]; exact h.warnings
  | other =>
    have hprocs : processors (entries ++ [.other]) = processors entries := by simp
    have hioApics : ioApics (entries ++ [.other]) = ioApics entries := by simp
    refine ⟨_, rfl, ?_, ?_, ?_, ?_, ?_⟩
    · rw [hprocs]; exact h.cpus
    · rw [hprocs]; exact h.bsp
    · rw [hioApics]; exact h.ioApicId
    · rw [hioApics]; exact h.ioApicAddr
    · rw [hprocs]; exact h.warnings

/-- **Entries whose processors are numbered in order** are all taken into account. -/
theorem exists_sums (entries : List Entry) (hnumbered : Numbered (processors entries)) :
    ∃ s, ({} : Survey).addAll entries = (s, none) ∧ s.Sums entries := by
  induction entries using List.reverseRecOn with
  | nil => exact ⟨{}, rfl, sums_nil⟩
  | append_singleton entries e ih =>
    have hbefore : Numbered (processors entries) := by
      intro i p hp
      refine hnumbered i p ?_
      rw [processors_append, List.getElem?_append_left (List.getElem?_eq_some_iff.1 hp).1, hp]
    obtain ⟨s, hs, hsums⟩ := ih hbefore
    obtain ⟨s', hs', hsums'⟩ := hsums.add e hnumbered
    refine ⟨s', ?_, hsums'⟩
    rw [addAll_append, hs]
    dsimp only
    rw [addAll, hs']
    rfl

/-- **The walk stops at the first processor with another number.** -/
theorem addAll_misfit {before : List Entry} (hbefore : Numbered (processors before))
    (hp : p.apicId.toNat ≠ min (processors before).length cpuLimit) (after : List Entry) :
    (({} : Survey).addAll (before ++ .processor p :: after)).2 =
      some (.apicIdMismatch (min (processors before).length cpuLimit) p.apicId) := by
  obtain ⟨s, hs, hsums⟩ := exists_sums before hbefore
  rw [addAll_append, hs]
  dsimp only
  rw [addAll, add, hsums.addProcessor_misfit hp]

/-- **Nothing else is taken into account.** -/
theorem numbered_of_addAll (entries : List Entry) (hall : (({} : Survey).addAll entries).2 = none) :
    Numbered (processors entries) := by
  induction entries using List.reverseRecOn with
  | nil => exact fun _ _ h => nomatch h
  | append_singleton entries e ih =>
    rw [addAll_append] at hall
    rcases hs : ({} : Survey).addAll entries with ⟨s, _ | err⟩
    · have hbefore := ih (by rw [hs])
      rw [hs] at hall
      cases e with
      | processor p =>
        rw [processors_append]
        refine numbered_concat.2 ⟨hbefore, by_contra fun hp => ?_⟩
        obtain ⟨s', hs', hsums⟩ := exists_sums entries hbefore
        obtain rfl : s' = s := congrArg Prod.fst (hs'.symm.trans hs)
        dsimp only at hall
        rw [addAll, add, hsums.addProcessor_misfit hp] at hall
        cases hall
      | ioApic e => simpa using hbefore
      | other => simpa using hbefore
    · rw [hs] at hall
      cases hall

end Survey

end Firmware

end Exokernel
