import ExternalTrusty.StdCallLaw

namespace ExternalTrusty.Dev

open CMemory CProgram

/-- The functions that name shared memory to the secure OS by a command. -/
def bufIdCalls : List (UInt32 × (UInt64 → UInt32 → Trusty Int)) :=
  [(smcScTrustyIpcCreateQlDev, trustyDevInitIpc),
    (smcScTrustyIpcHandleQlDevCmd, trustyDevExecIpc),
    (smcFcHandleQlTipcDevCmd, trustyDevExecFcIpc),
    (smcScTrustyIpcShutdownQlDev, trustyDevShutdownIpc)]

/-- Each call that `p` makes under the number `nr` names `h` in its first two arguments. -/
def Names (h : Nat) (nr : UInt32) {α : Type} (p : Trusty α) : Prop :=
  ∀ t, p.Starts t → ∀ args ret, (⟨.smc8 args, ret⟩ : TrustyEvent) ∈ t → args.r0 = nr.toUInt64 →
    args.r1.toNat + 2 ^ 32 * args.r2.toNat = h

/-- Sharing memory under the handle `h` has come to `id`, and all later uses of it name `h`. -/
structure HandleKept (h : Nat) (id : UInt64) : Prop where
  stored : id.toNat = h
  commands : ∀ f ∈ bufIdCalls, ∀ size, Names h f.1 (f.2 id size)
  reclaim : ∀ dev, Names h smcFcFfaMemReclaim (trustyDevReclaimMemory dev id)

/-- The handle in the answer to `SMC_FC_FFA_MEM_SHARE`: its low half in w2, its high half in w3. -/
def shareHandle (ret : SmcRegs) : Nat := ret.r2.toNat % 2 ^ 32 + 2 ^ 32 * (ret.r3.toNat % 2 ^ 32)

/-- The two halves of an id, put together again. -/
theorem bufId_halves (id : UInt64) :
    id.toUInt32.toUInt64.toNat + 2 ^ 32 * (id >>> 32).toUInt32.toUInt64.toNat = id.toNat := by
  have hlt := id.toNat_lt
  simp only [UInt32.toNat_toUInt64, UInt64.toNat_toUInt32, UInt64.toNat_shiftRight]
  rw [Nat.shiftRight_eq_div_pow]
  have hmod : (32 : UInt64).toNat % 64 = 32 := by decide
  rw [hmod]
  omega

theorem names_of_uses {h : Nat} {nr : UInt32} {α : Type} {p : Trusty α}
    (hp : p.Uses fun o => ∀ args, o = .smc8 args → args.r0 = nr.toUInt64 →
      args.r1.toNat + 2 ^ 32 * args.r2.toNat = h) : Names h nr p :=
  fun _ ht args _ hmem => hp.starts ht _ hmem args rfl

theorem trustyCall32MemBufId_names {smcnr : UInt32} (id : UInt64) (size : UInt32)
    (hlast : smcnr ≠ smcScRestartLast) (hfiq : smcnr ≠ smcScRestartFiq) :
    Names id.toNat smcnr (trustyCall32MemBufId smcnr id size) := by
  unfold trustyCall32MemBufId
  split
  next =>
    refine names_of_uses ⟨?_, fun _ => trivial⟩
    intro args heq _
    obtain rfl := TrustyOp.smc8.inj heq
    exact bufId_halves id
  next =>
    have hother : ∀ {nr : UInt32} {b0 b1 b2 : UInt64}, smcnr ≠ nr → ∀ args,
        TrustyOp.smc8 (stdRegs nr.toUInt64 b0 b1 b2) = .smc8 args →
        args.r0 = smcnr.toUInt64 → args.r1.toNat + 2 ^ 32 * args.r2.toNat = id.toNat := by
      intro nr b0 b1 b2 hne args heq hnr
      obtain rfl := TrustyOp.smc8.inj heq
      exact absurd (UInt32.toUInt64_inj.mp hnr).symm hne
    refine names_of_uses (trustyStdCall32_uses nofun nofun
      (stdCallBody_uses ?_ (hother hfiq) (hother hlast) nofun nofun nofun))
    intro args heq _
    obtain rfl := TrustyOp.smc8.inj heq
    exact bufId_halves id

theorem trustyDevReclaimMemory_names (dev : TrustyDev) (id : UInt64) :
    Names id.toNat smcFcFfaMemReclaim (trustyDevReclaimMemory dev id) := by
  unfold trustyDevReclaimMemory
  split
  next => exact names_of_uses trivial
  next =>
    refine names_of_uses (Prog.Uses.bind ⟨?_, fun _ => trivial⟩ fun ret => ?_)
    · intro args heq _
      obtain rfl := TrustyOp.smc8.inj heq
      have hlt := id.toNat_lt
      have hmod : (32 : UInt64).toNat % 64 = 32 := by decide
      simp only [UInt32.toNat_toUInt64, UInt64.toNat_toUInt32, UInt64.toNat_shiftRight]
      rw [Nat.shiftRight_eq_div_pow, hmod]
      omega
    · split
      next => trivial
      next => trivial

theorem writeShareDescriptor_uses (dev : TrustyDev) (pinfo : NsMemPageInfo) (pageCount : Nat) :
    (writeShareDescriptor dev pinfo pageCount).Uses
      fun o => ∃ off bytes, o = .storeTx off bytes := by
  have hstore : ∀ off width value, (txStore off width value).Uses
      fun o => ∃ off bytes, o = .storeTx off bytes := fun _ _ _ => Prog.Uses.call ⟨_, _, rfl⟩
  refine (Prog.Uses.call ⟨_, _, rfl⟩).bind fun _ => (hstore _ _ _).bind fun _ =>
    (hstore _ _ _).bind fun _ => (hstore _ _ _).bind fun _ => (hstore _ _ _).bind fun _ =>
    (hstore _ _ _).bind fun _ => (hstore _ _ _).bind fun _ => (hstore _ _ _).bind fun _ =>
    (hstore _ _ _).bind fun _ => (hstore _ _ _).bind fun _ => hstore _ _ _

/-- How sharing memory can go: by the attributes alone, or by a descriptor and a call, whose
answer decides. -/
theorem trustyDevShareMemory_runs {dev : TrustyDev} {id₀ id : UInt64} {pinfo : NsMemPageInfo}
    {pageCount : Nat} {t : List TrustyEvent} {rc : Int}
    (h : (trustyDevShareMemory dev id₀ pinfo pageCount).Runs t (rc, id)) :
    (dev.ffaTx = false ∧ t = [] ∧ rc = 0 ∧ id = pinfo.attr) ∨
      (dev.ffaTx = true ∧ ∃ stores args ret, t = stores ++ [⟨.smc8 args, ret⟩] ∧
        args.r0 = smcFcFfaMemShare.toUInt64 ∧
        (∀ e ∈ stores, ∃ off bytes, e.1 = .storeTx off bytes) ∧
        ((ret.r0.toUInt32 ≠ smcFcFfaSuccess ∧ rc = -1 ∧ id = id₀) ∨
          (ret.r0.toUInt32 = smcFcFfaSuccess ∧ rc = 0 ∧ id = ret.r2))) := by
  unfold trustyDevShareMemory at h
  cases hdev : dev.ffaTx with
  | false =>
    rw [if_pos (by rw [hdev]; exact Bool.false_ne_true)] at h
    obtain ⟨ht, hres⟩ := h
    cases hres
    exact Or.inl ⟨rfl, ht.symm ▸ rfl, rfl, rfl⟩
  | true =>
    rw [if_neg (not_not_intro hdev)] at h
    obtain ⟨stores, _, _, rfl, hstores, ret, t', rfl, hend⟩ := Prog.runs_bind.mp h
    obtain ⟨rfl, hres⟩ := Prog.runs_ite_ret.mp hend
    refine Or.inr ⟨rfl, stores, _, ret, rfl, rfl,
      (writeShareDescriptor_uses dev pinfo pageCount).starts hstores.starts, ?_⟩
    split at hres
    next hfail =>
      cases hres
      exact Or.inl ⟨hfail, rfl, rfl⟩
    next hok =>
      cases hres
      exact Or.inr ⟨not_not.mp hok, rfl, rfl⟩

/-- Exactly when the handle survives: when the high half of x2 is w3. With w2 and w3 alone set by
the secure side, that is when the handle is below 2^32. -/
theorem handleKept_iff {dev : TrustyDev} {id₀ id : UInt64} {pinfo : NsMemPageInfo}
    {pageCount : Nat} {t : List TrustyEvent} {args ret : SmcRegs}
    (h : (trustyDevShareMemory dev id₀ pinfo pageCount).Runs t (0, id))
    (hmem : (⟨.smc8 args, ret⟩ : TrustyEvent) ∈ t) :
    HandleKept (shareHandle ret) id ↔ ret.r2.toNat / 2 ^ 32 = ret.r3.toNat % 2 ^ 32 := by
  have hid : id = ret.r2 := by
    rcases trustyDevShareMemory_runs h with ⟨_, rfl, _⟩ | ⟨_, stores, args', ret', rfl, _, hst, hc⟩
    · exact absurd hmem List.not_mem_nil
    · rcases List.mem_append.mp hmem with hin | hlast
      · obtain ⟨_, _, hno⟩ := hst _ hin
        exact absurd hno nofun
      · cases List.mem_singleton.mp hlast
        rcases hc with ⟨_, hrc, _⟩ | ⟨_, _, hid⟩
        · exact absurd hrc (by decide)
        · exact hid
  have hhalves : id.toNat = shareHandle ret ↔ ret.r2.toNat / 2 ^ 32 = ret.r3.toNat % 2 ^ 32 := by
    rw [hid, shareHandle]
    omega
  constructor
  · exact fun hkept => hhalves.mp hkept.stored
  · intro hcond
    have hstored := hhalves.mpr hcond
    refine ⟨hstored, ?_, ?_⟩
    · rw [← hstored]
      intro f hf size
      simp only [bufIdCalls, List.mem_cons, List.not_mem_nil, or_false] at hf
      rcases hf with rfl | rfl | rfl | rfl
      · exact trustyCall32MemBufId_names id size (by decide) (by decide)
      · exact trustyCall32MemBufId_names id size (by decide) (by decide)
      · exact trustyCall32MemBufId_names id size (by decide) (by decide)
      · exact trustyCall32MemBufId_names id size (by decide) (by decide)
    · rw [← hstored]
      exact fun dev => trustyDevReclaimMemory_names dev id

theorem writeShareDescriptor_runs (dev : TrustyDev) (pinfo : NsMemPageInfo) (pageCount : Nat) :
    ∃ t, (writeShareDescriptor dev pinfo pageCount).Runs t () := by
  obtain ⟨⟨t, _, _⟩, h⟩ : ∃ x, (writeShareDescriptor dev pinfo pageCount).exec Platform.answer 0
    (codePlatform []) = some x := ⟨_, rfl⟩
  exact ⟨t, Prog.exec_runs h⟩

/-- Sharing a page when the secure side grants the handle in these two registers. -/
def granted (w2 w3 : UInt64) : SmcRegs := ⟨smcFcFfaSuccess.toUInt64, 0, w2, w3, 0, 0, 0, 0⟩

theorem granted_runs (w2 w3 : UInt64) : ∃ t args,
    (trustyDevShareMemory ⟨true, 1, 0x8000⟩ 0 ⟨0, 4096, 0, 0⟩ 1).Runs t (0, w2) ∧
      (⟨.smc8 args, granted w2 w3⟩ : TrustyEvent) ∈ t := by
  obtain ⟨stores, hstores⟩ := writeShareDescriptor_runs ⟨true, 1, 0x8000⟩ ⟨0, 4096, 0, 0⟩ 1
  refine ⟨stores ++ [⟨.smc8 ⟨smcFcFfaMemShare.toUInt64, UInt64.ofNat txSize, UInt64.ofNat txSize,
    0, 0, 0, 0, 0⟩, granted w2 w3⟩], _, ?_, List.mem_append_right _ List.mem_cons_self⟩
  have hok : (granted w2 w3).r0.toUInt32 = smcFcFfaSuccess :=
    (by decide : smcFcFfaSuccess.toUInt64.toUInt32 = smcFcFfaSuccess)
  have hend : (if (granted w2 w3).r0.toUInt32 ≠ smcFcFfaSuccess
      then (.ret (-1, 0) : Trusty (Int × UInt64)) else .ret (0, w2)).Runs [] (0, w2) :=
    Prog.runs_ite_ret.mpr ⟨rfl, if_neg (not_not_intro hok)⟩
  exact Prog.runs_bind.mpr ⟨stores, (), _, rfl, hstores, _, [], rfl, hend⟩

theorem granted_small_kept : HandleKept 5 5 := by
  obtain ⟨t, args, hrun, hmem⟩ := granted_runs 5 0
  exact (handleKept_iff hrun hmem).mpr (by decide)

/-- The handle 2^32 is stored as 0. -/
theorem granted_large_lost : ∃ t args,
    (trustyDevShareMemory ⟨true, 1, 0x8000⟩ 0 ⟨0, 4096, 0, 0⟩ 1).Runs t (0, 0) ∧
      (⟨.smc8 args, granted 0 1⟩ : TrustyEvent) ∈ t ∧ shareHandle (granted 0 1) = 2 ^ 32 ∧
      ¬HandleKept (shareHandle (granted 0 1)) 0 := by
  obtain ⟨t, args, hrun, hmem⟩ := granted_runs 0 1
  refine ⟨t, args, hrun, hmem, by decide, ?_⟩
  intro hkept
  exact absurd hkept.stored (by decide)

end ExternalTrusty.Dev
