import ExternalTrusty.SharedHandle
import ExternalTrusty.FieldStores

namespace ExternalTrusty.Dev

open CMemory CProgram

/-- `struct ffa_cons_mrd`: one range of pages. -/
structure FfaConsMrd where
  address : Nat
  pageCount : Nat
  reserved12 : Nat
  deriving DecidableEq

/-- `struct ffa_comp_mrd`, with its ranges. -/
structure FfaCompMrd where
  totalPageCount : Nat
  addressRangeCount : Nat
  reserved8 : Nat
  addressRangeArray : List FfaConsMrd
  deriving DecidableEq

/-- `struct ffa_mapd`: what an endpoint may do. -/
structure FfaMapd where
  endpointId : Nat
  memoryAccessPermissions : Nat
  flags : Nat
  deriving DecidableEq

/-- `struct ffa_emad`: an endpoint's entry. -/
structure FfaEmad where
  mapd : FfaMapd
  compMrdOffset : Nat
  reserved8 : Nat
  deriving DecidableEq

/-- `struct ffa_mtd`, with its endpoints' entries. -/
structure FfaMtd where
  senderId : Nat
  memoryRegionAttributes : Nat
  reserved3 : Nat
  flags : Nat
  handle : Nat
  tag : Nat
  reserved24 : Nat
  emadCount : Nat
  emad : List FfaEmad
  deriving DecidableEq

section Layout

variable {β : Type}

def FfaConsMrd.decode (m : Mem β) (p : Ptr β) : FfaConsMrd :=
  ⟨m.load p 8, m.load (p.add 8) 4, m.load (p.add 12) 4⟩

def FfaCompMrd.decode (m : Mem β) (p : Ptr β) : FfaCompMrd :=
  ⟨m.load p 4, m.load (p.add 4) 4, m.load (p.add 8) 8,
    (List.range (m.load (p.add 4) 4)).map fun i => FfaConsMrd.decode m (p.add (16 + 16 * i))⟩

def FfaMapd.decode (m : Mem β) (p : Ptr β) : FfaMapd :=
  ⟨m.load p 2, m.load (p.add 2) 1, m.load (p.add 3) 1⟩

def FfaEmad.decode (m : Mem β) (p : Ptr β) : FfaEmad :=
  ⟨FfaMapd.decode m p, m.load (p.add 4) 4, m.load (p.add 8) 8⟩

def FfaMtd.decode (m : Mem β) (p : Ptr β) : FfaMtd :=
  ⟨m.load p 2, m.load (p.add 2) 1, m.load (p.add 3) 1, m.load (p.add 4) 4, m.load (p.add 8) 8,
    m.load (p.add 16) 8, m.load (p.add 24) 4, m.load (p.add 28) 4,
    (List.range (m.load (p.add 28) 4)).map fun i => FfaEmad.decode m (p.add (32 + 16 * i))⟩

end Layout

/-- The page for descriptors. -/
def ffaTx : Ptr Page := ⟨.tx, 0⟩

/-- What an operation leaves of the page for descriptors. -/
def storeEvent (m : Mem Page) (e : TrustyEvent) : Mem Page :=
  match e.1 with
  | .storeTx off bytes => m.write (ffaTx.add off) bytes
  | _ => m

/-- The page after these operations. -/
def txAfter (m : Mem Page) (t : List TrustyEvent) : Mem Page := t.foldl storeEvent m

/-- A descriptor of `size` bytes that shares these pages, and just them: one entry, for the
receiver, which leads to one composite descriptor inside it, of the one range. -/
def SharesPages (dev : TrustyDev) (pinfo : NsMemPageInfo) (pageCount size : Nat) (m : Mem Page) :
    Prop :=
  ∃ offset, FfaMtd.decode m ffaTx =
      ⟨dev.ffaLocalId.toNat, pinfo.ffaMemAttr.toNat, 0, 0, 0, 0, 0, 1,
        [⟨⟨dev.ffaRemoteId.toNat, pinfo.ffaMemPerm.toNat, 0⟩, offset, 0⟩]⟩ ∧
    32 + 16 ≤ offset ∧ offset + 16 + 16 ≤ size ∧
    FfaCompMrd.decode m (ffaTx.add offset) =
      ⟨pageCount, 1, 0, [⟨pinfo.paddr.toNat, pageCount, 0⟩]⟩ ∧
    (FfaCompMrd.decode m (ffaTx.add offset)).totalPageCount =
      ((FfaCompMrd.decode m (ffaTx.add offset)).addressRangeArray.map (·.pageCount)).sum

section SharePage

variable (dev : TrustyDev) (pinfo : NsMemPageInfo) (pageCount : Nat) (m : Mem Page)

/-- The fields of the three structures that are set, by their offsets in the page. -/
def shareFields : List Field :=
  [⟨0, 2, dev.ffaLocalId.toNat⟩, ⟨2, 1, pinfo.ffaMemAttr.toNat⟩, ⟨28, 4, 1⟩,
    ⟨32, 2, dev.ffaRemoteId.toNat⟩, ⟨34, 1, pinfo.ffaMemPerm.toNat⟩, ⟨36, 4, 48⟩,
    ⟨48, 4, pageCount⟩, ⟨52, 4, 1⟩, ⟨64, 8, pinfo.paddr.toNat⟩, ⟨72, 4, pageCount⟩]

/-- The page, once the descriptor is written. -/
def sharePage : Mem Page :=
  (m.memset ffaTx 0 80).storeFields ffaTx (shareFields dev pinfo pageCount)

theorem shareFields_ordered : (shareFields dev pinfo pageCount).Pairwise Field.Before := by
  simp [shareFields, Field.Before]

theorem sharePage_field {off width value : Nat}
    (h : ⟨off, width, value⟩ ∈ shareFields dev pinfo pageCount) (hv : value < 256 ^ width) :
    (sharePage dev pinfo pageCount m).load (ffaTx.add off) width = value :=
  load_storeFields_mem (g := ⟨off, width, value⟩) _ ffaTx h
    (shareFields_ordered dev pinfo pageCount) hv

/-- What was cleared, and is no field that is set. -/
theorem sharePage_zero {off width : Nat} (h : off + width ≤ 80)
    (hfar : ∀ f ∈ shareFields dev pinfo pageCount,
      f.Before ⟨off, width, 0⟩ ∨ Field.Before ⟨off, width, 0⟩ f) :
    (sharePage dev pinfo pageCount m).load (ffaTx.add off) width = 0 := by
  rw [sharePage, load_storeFields_apart (g := ⟨off, width, 0⟩) _ ffaTx hfar]
  exact Mem.load_memset_in m rfl (Nat.zero_le _) (by simpa [ffaTx] using h)

theorem sharePage_emad : FfaEmad.decode (sharePage dev pinfo pageCount m) (ffaTx.add 32) =
    ⟨⟨dev.ffaRemoteId.toNat, pinfo.ffaMemPerm.toNat, 0⟩, 48, 0⟩ := by
  have hid : (sharePage dev pinfo pageCount m).load (ffaTx.add 32) 2 = dev.ffaRemoteId.toNat :=
    sharePage_field dev pinfo pageCount m (by simp [shareFields]) (UInt16.toNat_lt _)
  have hperm : (sharePage dev pinfo pageCount m).load (ffaTx.add 34) 1 = pinfo.ffaMemPerm.toNat :=
    sharePage_field dev pinfo pageCount m (by simp [shareFields]) (UInt8.toNat_lt _)
  have hoffset : (sharePage dev pinfo pageCount m).load (ffaTx.add 36) 4 = 48 :=
    sharePage_field dev pinfo pageCount m (by simp [shareFields]) (by decide)
  have hflags : (sharePage dev pinfo pageCount m).load (ffaTx.add 35) 1 = 0 :=
    sharePage_zero dev pinfo pageCount m (by decide) (by simp [shareFields, Field.Before])
  have hreserved : (sharePage dev pinfo pageCount m).load (ffaTx.add 40) 8 = 0 :=
    sharePage_zero dev pinfo pageCount m (by decide) (by simp [shareFields, Field.Before])
  simp only [FfaEmad.decode, FfaMapd.decode, ← Ptr.add_assoc]
  rw [hid, hperm, hoffset, hflags, hreserved]

theorem sharePage_mtd : FfaMtd.decode (sharePage dev pinfo pageCount m) ffaTx =
    ⟨dev.ffaLocalId.toNat, pinfo.ffaMemAttr.toNat, 0, 0, 0, 0, 0, 1,
      [⟨⟨dev.ffaRemoteId.toNat, pinfo.ffaMemPerm.toNat, 0⟩, 48, 0⟩]⟩ := by
  have hid : (sharePage dev pinfo pageCount m).load (ffaTx.add 0) 2 = dev.ffaLocalId.toNat :=
    sharePage_field dev pinfo pageCount m (by simp [shareFields]) (UInt16.toNat_lt _)
  rw [Ptr.add_zero] at hid
  have hattr : (sharePage dev pinfo pageCount m).load (ffaTx.add 2) 1 = pinfo.ffaMemAttr.toNat :=
    sharePage_field dev pinfo pageCount m (by simp [shareFields]) (UInt8.toNat_lt _)
  have hcount : (sharePage dev pinfo pageCount m).load (ffaTx.add 28) 4 = 1 :=
    sharePage_field dev pinfo pageCount m (by simp [shareFields]) (by decide)
  have hzero : ∀ off width, (off, width) ∈ [(3, 1), (4, 4), (8, 8), (16, 8), (24, 4)] →
      (sharePage dev pinfo pageCount m).load (ffaTx.add off) width = 0 := by
    intro off width hmem
    have hcleared : off + width ≤ 28 ∧ 3 ≤ off := by
      simp only [List.mem_cons, Prod.mk.injEq, List.not_mem_nil, or_false] at hmem
      omega
    apply sharePage_zero dev pinfo pageCount m (by omega)
    simp only [shareFields, List.forall_mem_cons, Field.Before]
    refine ⟨?_, ?_, ?_, ?_, ?_, ?_, ?_, ?_, ?_, ?_, List.forall_mem_nil _⟩ <;> omega
  simp only [FfaMtd.decode]
  rw [hid, hattr, hcount, hzero 3 1 (by simp), hzero 4 4 (by simp), hzero 8 8 (by simp),
    hzero 16 8 (by simp), hzero 24 4 (by simp)]
  simp only [List.range_one, List.map_cons, List.map_nil, Nat.mul_zero, Nat.add_zero,
    sharePage_emad]

theorem sharePage_compMrd (hcount : pageCount < 2 ^ 32) :
    FfaCompMrd.decode (sharePage dev pinfo pageCount m) (ffaTx.add 48) =
      ⟨pageCount, 1, 0, [⟨pinfo.paddr.toNat, pageCount, 0⟩]⟩ := by
  have htotal : (sharePage dev pinfo pageCount m).load (ffaTx.add 48) 4 = pageCount :=
    sharePage_field dev pinfo pageCount m (by simp [shareFields]) hcount
  have hranges : (sharePage dev pinfo pageCount m).load (ffaTx.add 52) 4 = 1 :=
    sharePage_field dev pinfo pageCount m (by simp [shareFields]) (by decide)
  have haddress : (sharePage dev pinfo pageCount m).load (ffaTx.add 64) 8 = pinfo.paddr.toNat :=
    sharePage_field dev pinfo pageCount m (by simp [shareFields]) (UInt64.toNat_lt _)
  have hpages : (sharePage dev pinfo pageCount m).load (ffaTx.add 72) 4 = pageCount :=
    sharePage_field dev pinfo pageCount m (by simp [shareFields]) hcount
  have hreserved : (sharePage dev pinfo pageCount m).load (ffaTx.add 56) 8 = 0 :=
    sharePage_zero dev pinfo pageCount m (by decide) (by simp [shareFields, Field.Before])
  have hpadding : (sharePage dev pinfo pageCount m).load (ffaTx.add 76) 4 = 0 :=
    sharePage_zero dev pinfo pageCount m (by decide) (by simp [shareFields, Field.Before])
  simp only [FfaCompMrd.decode, FfaConsMrd.decode, ← Ptr.add_assoc]
  rw [htotal, hranges, hreserved]
  simp only [List.range_one, List.map_cons, List.map_nil, Nat.mul_zero, Nat.add_zero]
  rw [haddress, hpages, hpadding]

theorem sharePage_shares (hcount : pageCount < 2 ^ 32) :
    SharesPages dev pinfo pageCount 80 (sharePage dev pinfo pageCount m) := by
  have hcomp := sharePage_compMrd dev pinfo pageCount m hcount
  refine ⟨48, sharePage_mtd dev pinfo pageCount m, by omega, by omega, hcomp, ?_⟩
  rw [hcomp]
  simp

theorem sharePage_beyond {i : Nat} (hi : 80 ≤ i) :
    (sharePage dev pinfo pageCount m).bytes .tx i = m.bytes .tx i := by
  have hfields := @storeFields_bytes_out _ _ (m.memset ffaTx 0 80) ffaTx
    (shareFields dev pinfo pageCount) 80 i (by simp [shareFields]) (by simpa [ffaTx] using hi)
  refine hfields.trans (Mem.write_bytes_out m (Or.inr (Or.inr ?_)))
  rw [List.length_replicate]
  simpa [ffaTx] using hi

/-- Writing the descriptor leaves the page so. -/
theorem writeShareDescriptor_page {t : List TrustyEvent}
    (h : (writeShareDescriptor dev pinfo pageCount).Runs t ()) :
    txAfter m t = sharePage dev pinfo pageCount m := by
  obtain ⟨_, _, rfl, _, _, rfl, _, _, rfl, _, _, rfl, _, _, rfl, _, _, rfl, _, _, rfl, _, _, rfl,
    _, _, rfl, _, _, rfl, _, _, rfl, rfl, _⟩ := h
  rfl

end SharePage

/-- At every call to the secure side that sharing memory makes, the page holds the descriptor of
just these pages, and beyond it what it held before. -/
theorem trustyDevShareMemory_describes {dev : TrustyDev} {id : UInt64} {pinfo : NsMemPageInfo}
    {pageCount : Nat} {m : Mem Page} {before : List TrustyEvent} {args ret : SmcRegs}
    (hcount : pageCount < 2 ^ 32)
    (hcall : (trustyDevShareMemory dev id pinfo pageCount).Starts
      (before ++ [⟨.smc8 args, ret⟩])) :
    args.r0 = smcFcFfaMemShare.toUInt64 ∧ args.r1 = args.r2 ∧
      SharesPages dev pinfo pageCount args.r1.toNat (txAfter m before) ∧
      ∀ i, args.r1.toNat ≤ i → (txAfter m before).bytes .tx i = m.bytes .tx i := by
  unfold trustyDevShareMemory at hcall
  split at hcall
  next => exact absurd hcall (by simp [Prog.Starts, pure])
  next =>
    -- the call comes after all that is written: no write is a call
    have hnot : ∀ t, (writeShareDescriptor dev pinfo pageCount).Starts t →
        (⟨.smc8 args, ret⟩ : TrustyEvent) ∉ t := by
      intro t ht hmem
      obtain ⟨off, bytes, hno⟩ := (writeShareDescriptor_uses dev pinfo pageCount).starts ht _ hmem
      exact TrustyOp.noConfusion hno
    rcases Prog.starts_bind hcall with hwriting | ⟨stores, _, t, heq, hwritten, hshare⟩
    · exact absurd List.mem_concat_self (hnot _ hwriting)
    · rcases hshare with rfl | ⟨answer, rest, rfl, hend⟩
      · rw [List.append_nil] at heq
        exact absurd (heq ▸ List.mem_concat_self) (hnot _ hwritten.starts)
      · have hrest : rest = [] := by
          simp only [Prog.bind] at hend
          split at hend
          next => exact hend
          next => exact hend
        rw [hrest] at heq
        obtain ⟨rfl, hlast⟩ := List.append_inj' heq rfl
        cases List.singleton_inj.mp hlast
        rw [writeShareDescriptor_page dev pinfo pageCount m hwritten]
        exact ⟨rfl, rfl, sharePage_shares dev pinfo pageCount m hcount,
          fun i hi => sharePage_beyond dev pinfo pageCount m hi⟩

/-- Two pages that start at 0x5000, shared by endpoint 1. -/
theorem twoPages_described : ∃ (t : List TrustyEvent) (args : SmcRegs),
    args.r0 = smcFcFfaMemShare.toUInt64 ∧ args.r1 = args.r2 ∧
      SharesPages ⟨true, 1, 0x8000⟩ ⟨0, 0x5000, 0x2f, 6⟩ 2 args.r1.toNat
        (txAfter ⟨fun _ _ => 0xff, []⟩ t) ∧
      ∀ i, args.r1.toNat ≤ i →
        (txAfter ⟨fun _ _ => 0xff, []⟩ t).bytes .tx i = 0xff := by
  obtain ⟨stores, hstores⟩ := writeShareDescriptor_runs ⟨true, 1, 0x8000⟩ ⟨0, 0x5000, 0x2f, 6⟩ 2
  have hok : (granted 5 0).r0.toUInt32 = smcFcFfaSuccess :=
    (by decide : smcFcFfaSuccess.toUInt64.toUInt32 = smcFcFfaSuccess)
  have hend : (if (granted 5 0).r0.toUInt32 ≠ smcFcFfaSuccess
      then (.ret (-1, 0) : Trusty (Int × UInt64)) else .ret (0, 5)).Runs [] (0, 5) :=
    Prog.runs_ite_ret.mpr ⟨rfl, if_neg (not_not_intro hok)⟩
  have hcall : (trustyDevShareMemory ⟨true, 1, 0x8000⟩ 0 ⟨0, 0x5000, 0x2f, 6⟩ 2).Starts
      (stores ++ [⟨.smc8 ⟨smcFcFfaMemShare.toUInt64, UInt64.ofNat txSize, UInt64.ofNat txSize,
        0, 0, 0, 0, 0⟩, granted 5 0⟩]) :=
    Prog.Runs.starts (Prog.runs_bind.mpr ⟨stores, (), _, rfl, hstores, _, [], rfl, hend⟩)
  exact ⟨_, _, trustyDevShareMemory_describes (m := ⟨fun _ _ => 0xff, []⟩) (by decide) hcall⟩

end ExternalTrusty.Dev
