import Exokernel.Proofs.Refusals
/-!
# Replies

A call that returns to its caller leaves one word, and the word says whether it was refused. That the
caller reads what the call ended with is due to the values there are: 0, the number of a CPU and the
identifiers in the table (`Performs.value_cases`), none of which is negative as a signed word.
-/

namespace Exokernel

namespace State

variable {M : Type} [Memory M] {k k' : State M} {policy : Policy} {ncpu cpu : Nat} {m₀ : M} {s : Slot}
  {tf : TrapFrame}

/-- **The values a call answers with**: nothing, who is in the table, or where the caller runs. -/
theorem Performs.value_cases {a : Args} {call : Call} {c : Completion} {v : UInt32}
    (h : Performs k cpu a call c k') (hc : c = .value v) :
    v = 0 ∨ v = UInt32.ofNat cpu ∨ ∃ t id, (k'.env t).id = some id ∧ id.raw = v := by
  cases h with
  | @getEnvId id hid =>
    cases hc
    obtain ⟨s, -, hid⟩ := currentId_eq_some_iff.1 hid
    exact .inr (.inr ⟨s, id, hid, rfl⟩)
  | @envDestroy victim text =>
    generalize (destroy cpu victim (k.say .debug Log.Target.calls text)).1 = d at hc
    cases d with
    | freedCurrent => cases hc
    | freed | deferred =>
      cases hc
      exact .inl rfl
  | @exofork p s dir mem =>
    cases hc
    refine .inr (.inr ⟨s, EnvId.next (k.env s).lastId s, ?_, rfl⟩)
    rw [env_forked, if_pos rfl]
    rfl
  | getCpuId =>
    cases hc
    exact .inr (.inl rfl)
  | pageAlloc | pageMap | pageUnmap | envSetStatus | envSetUpcall | ipcTrySend =>
    cases hc
    exact .inl rfl
  | yieldCpu | ipcRecv => cases hc

/-- **The caller reads what the call ended with.** When a system call returns to its caller, in any
reached state and with any registers, the caller finds in its result register the value the call had,
or the error that stands for what it was refused for, and takes neither for the other. A value is 0,
the number of the caller's CPU or the identifier of somebody in the table. -/
theorem Reached.reads_the_reply (h : Reached policy ncpu m₀ k) (hcpu : cpu < ncpu)
    (hk : k.syscall cpu tf = (.resume, k')) :
    ∃ s, k.current cpu = some s ∧
      let reply := decodeResult (k'.env s).frame.eax
      match ((performNumber cpu tf.eax tf.args).run (k.save s tf)).1 with
      | .ok (.value v) => reply = .ok v ∧
          (v = 0 ∨ v.toNat = cpu ∨ ∃ t id, (k'.env t).id = some id ∧ id.raw = v)
      | .ok _ => False
      | .error e => reply = .error e.toCallError := by
  have hlt : cpu < 0x80000000 :=
    Nat.lt_of_lt_of_le hcpu (Nat.le_trans h.sound.division.le (by decide))
  cases hc : k.current cpu with
  | none =>
    unfold syscall at hk
    rw [hc] at hk
    cases hk
  | some s =>
    refine ⟨s, rfl, ?_⟩
    have hends := @answered_performNumber M (k.save s tf) cpu tf.args _ tf.eax
    cases hop : performNumber cpu tf.eax tf.args (k.save s tf) with
    | error e k₁ =>
      rw [syscall_of_error hc hop] at hk
      cases hk
      simp only [Op.run, hop, env_setResult, if_true]
      exact decodeResult_encodeResult_toCallError e
    | ok c k₁ =>
      obtain ⟨call, -, hperforms⟩ := hends.of_ok hop
      rw [syscall_of_ok hc hop] at hk
      cases c with
      | yielded | exited => cases hk
      | value v =>
        cases hk
        have hnumbered : Numbered (k.save s tf) := fun t id hid =>
          h.numbered t id (((sameNames_frame k s tf).lastId t).symm.trans hid)
        have hregister : ((k₁.setResult s v).env s).frame.eax = v := by
          rw [env_setResult, if_pos rfl]
        simp only [Op.run, hop]
        refine ⟨?_, ?_⟩
        · show decodeResult ((k₁.setResult s v).env s).frame.eax = .ok v
          rw [hregister]
          exact decodeResult_of_lt (hperforms.value_lt hnumbered hlt rfl)
        · rcases hperforms.value_cases rfl with rfl | rfl | ⟨t, id, hid, rfl⟩
          · exact .inl rfl
          · refine .inr (.inl ?_)
            rw [UInt32.toNat_ofNat', Nat.mod_eq_of_lt]
            exact Nat.lt_trans hlt (by decide)
          · -- the value is written into the caller's registers, which name nobody
            exact .inr (.inr ⟨t, id, ((sameNames_frame k₁ s _).id t).trans hid, rfl⟩)

/-- A parent reads the identifier of the child it has made. -/
theorem Reached.reads_the_reply_child :
    ∃ (k k' : State Frames) (tf : TrapFrame), Reached .perCpu 1 ({} : Frames) k ∧ 0 < 1 ∧
      k.syscall 0 tf = (.resume, k') ∧ decodeResult (k'.env 0).frame.eax = .ok 0x1001 ∧
      (k'.env 1).id.map EnvId.raw = some 0x1001 := by
  let tf := TrapFrame.user.calling Call.exofork.number {}
  obtain ⟨k, hk, hseen⟩ := exists_of_map_toOption
    (f := fun k => (k.current 0, (k.syscall 0 tf).1,
      match ((performNumber 0 tf.eax tf.args).run (k.save 0 tf)).1 with
      | .ok (.value v) => some v
      | _ => none, ((k.syscall 0 tf).2.env 1).id.map EnvId.raw))
    (b := (some 0, .resume, some 0x1001, some 0x1001))
    (x := ran .perCpu 1 ({} : Frames) [.create [0x7f] 0, .schedule 0]) (by decide +kernel)
  simp only [Prod.mk.injEq] at hseen
  obtain ⟨hc, hnext, hvalue, hchild⟩ := hseen
  have h := reached_of_ran hk
  have hresume : k.syscall 0 tf = (.resume, (k.syscall 0 tf).2) := Prod.ext hnext rfl
  obtain ⟨s, hs, hreply⟩ := h.reads_the_reply (by decide) hresume
  obtain rfl : 0 = s := Option.some.inj (hc.symm.trans hs)
  refine ⟨k, _, tf, h, by decide, hresume, ?_, hchild⟩
  split at hvalue
  · next v hv =>
    obtain rfl := Option.some.inj hvalue
    rw [hv] at hreply
    exact hreply.1
  · cases hvalue

end State

end Exokernel
