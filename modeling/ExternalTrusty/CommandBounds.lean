import ExternalTrusty.IpcDev

namespace ExternalTrusty

open CMemory

variable {σ : Type}

theorem prepareHdr_footprint (page : Mem Page) (opcode : Nat) :
    Footprint .store page (prepareHdr page opcode) fun b i => b = .shared ∧ i < 16 := by
  have hset := Footprint.memset page cmdHdr 0 sizeofCmdHdr
  have hop := Footprint.store (page.memset cmdHdr 0 sizeofCmdHdr) cmdOpcode 2 opcode
  apply (hset.trans hop).congr
  intro b i
  simp only [cmdHdr, cmdOpcode, sizeofCmdHdr]
  constructor
  · rintro (⟨rfl, _, _⟩ | ⟨rfl, _, _⟩) <;> exact ⟨rfl, by omega⟩
  · rintro ⟨rfl, h⟩
    exact Or.inr ⟨rfl, by omega, by omega⟩

theorem prepareHdr_payloadLen (page : Mem Page) (opcode : Nat) :
    (prepareHdr page opcode).load cmdPayloadLen 4 = 0 := by
  rw [prepareHdr, Mem.load_store_apart _ (by decide)]
  exact Mem.load_memset_in page rfl (by decide) (by decide)

/-- Stores past the header only add their own range to what the header covers. -/
theorem footprint_header_then {page page' page'' : Mem Page} {p : Ptr Page} {lo n : Nat}
    (h : Footprint .store page page' fun b i => b = .shared ∧ i < lo)
    (h' : Footprint .store page' page'' fun b i => p.block = b ∧ p.off ≤ i ∧ i < p.off + n)
    (hb : p.block = .shared) (hlo : p.off ≤ lo) :
    Footprint .store page page'' fun b i => b = .shared ∧ i < max lo (p.off + n) := by
  apply (h.trans h').congr
  intro b i
  constructor
  · rintro (⟨hb', _, _⟩ | ⟨hb', _⟩)
    · exact ⟨by rw [← hb', hb], by omega⟩
    · exact ⟨hb', by omega⟩
  · rintro ⟨rfl, hi⟩
    by_cases hl : i < lo
    · exact Or.inr ⟨rfl, hl⟩
    · exact Or.inl ⟨hb, by omega, by omega⟩

theorem prepareConnect_footprint (page : Mem Page) (port : CString) (cookie : UInt64) :
    Footprint .store page (prepareConnect page port cookie)
      fun b i => b = .shared ∧ i < 32 + (port.chars.length + 1) := by
  have h0 := prepareHdr_footprint page qlTipcDevConnect
  have h1 := footprint_header_then h0 (Footprint.memset _ cmdPayload 0 sizeofConnectReq) rfl
    (by decide)
  have h2 := footprint_header_then h1 (Footprint.store _ connectReqCookie 8 cookie.toNat) rfl
    (by decide)
  have h3 := footprint_header_then h2 (Footprint.write _ connectReqName (port.chars ++ [0])) rfl
    (by decide)
  have h4 := footprint_header_then h3 (Footprint.store _ cmdPayloadLen 4
    (u32 (sizeofConnectReq + (port.chars.length + 1)))) rfl (by simp [cmdPayloadLen])
  apply h4.congr
  intro b i
  simp only [cmdPayload, sizeofConnectReq, connectReqCookie, connectReqName, cmdPayloadLen,
    List.length_append, List.length_singleton]
  constructor <;> rintro ⟨hb, hi⟩ <;> exact ⟨hb, by omega⟩

theorem prepareConnect_payloadLen (page : Mem Page) (port : CString) (cookie : UInt64) :
    (prepareConnect page port cookie).load cmdPayloadLen 4 =
      u32 (16 + (port.chars.length + 1)) := by
  have hlt : u32 (sizeofConnectReq + (port.chars.length + 1)) < 256 ^ 4 := by
    unfold u32; omega
  rw [prepareConnect, Mem.load_store_self _ _ hlt]
  rfl

theorem prepareClose_footprint (page : Mem Page) (handle : UInt32) :
    Footprint .store page (prepareClose page handle) fun b i => b = .shared ∧ i < 16 := by
  have h := footprint_header_then (prepareHdr_footprint page qlTipcDevDisconnect)
    (Footprint.store _ cmdHandle 4 handle.toNat) rfl (by decide)
  exact h

theorem prepareHasEvent_footprint (page : Mem Page) (chan : UInt32) :
    Footprint .store page (prepareHasEvent page chan) fun b i => b = .shared ∧ i < 16 := by
  have h0 := footprint_header_then (prepareHdr_footprint page qlTipcDevFcHasEvent)
    (Footprint.store _ cmdHandle 4 chan.toNat) rfl (by decide)
  exact footprint_header_then h0 (Footprint.store _ cmdPayloadLen 4 0) rfl (by decide)

theorem prepareGetEvent_footprint (page : Mem Page) (chan : UInt32) :
    Footprint .store page (prepareGetEvent page chan) fun b i => b = .shared ∧ i < 24 := by
  have h0 := footprint_header_then (prepareHdr_footprint page qlTipcDevGetEvent)
    (Footprint.store _ cmdHandle 4 chan.toNat) rfl (by decide)
  have h1 := footprint_header_then h0 (Footprint.memset _ cmdPayload 0 sizeofWaitReq) rfl
    (by decide)
  exact footprint_header_then h1 (Footprint.store _ cmdPayloadLen 4 sizeofWaitReq) rfl (by decide)

theorem prepareSend_footprint (page : Mem Page) (chan : UInt32) (msgSize : Nat) :
    Footprint .store page (prepareSend page chan msgSize) fun b i => b = .shared ∧ i < 16 := by
  have h0 := footprint_header_then (prepareHdr_footprint page qlTipcDevSend)
    (Footprint.store _ cmdHandle 4 chan.toNat) rfl (by decide)
  exact footprint_header_then h0 (Footprint.store _ cmdPayloadLen 4 (u32 msgSize)) rfl (by decide)

theorem prepareRecv_footprint (page : Mem Page) (chan : UInt32) :
    Footprint .store page (prepareRecv page chan) fun b i => b = .shared ∧ i < 16 := by
  exact footprint_header_then (prepareHdr_footprint page qlTipcDevRecv)
    (Footprint.store _ cmdHandle 4 chan.toNat) rfl (by decide)

/-- A gathered payload that fits follows the header without a gap, and leaves the header's
length field alone. -/
theorem sendPage_spec {m : Mem Obj} {page : Mem Page} {chan : UInt32} {iovs : List Iovec}
    {bufLen : Nat} (h : total (segs iovs) ≤ bufLen) :
    let g := iovecToBuf m (prepareSend page chan (iovecSize iovs)) (cmdHdr.add sizeofCmdHdr) 0
      bufLen iovs
    (Footprint .store page g.2.2 fun b i => b = .shared ∧ i < 16 + total (segs iovs)) ∧
    g.2.2.load cmdPayloadLen 4 = u32 (iovecSize iovs) ∧
    g.2.2.read cmdPayload (total (segs iovs)) = gather m (segs iovs) := by
  intro g
  obtain ⟨_, _, hbytes, hfoot⟩ := @iovecToBuf_spec m _ (cmdHdr.add sizeofCmdHdr) 0 _ _ h
  have hlen : (gather m (segs iovs)).length = total (segs iovs) := gather_length m _
  refine ⟨?_, ?_, ?_⟩
  · have hf := footprint_header_then (p := cmdPayload) (n := total (segs iovs))
      (prepareSend_footprint page chan (iovecSize iovs))
      (hfoot.congr fun b i => by simp [cmdHdr, cmdPayload, sizeofCmdHdr]) rfl (by decide)
    apply hf.congr
    intro b i
    simp only [cmdPayload]
    constructor <;> rintro ⟨hb, hi⟩ <;> exact ⟨hb, by omega⟩
  · have hlt : u32 (iovecSize iovs) < 256 ^ 4 := by
      unfold u32; omega
    rw [Mem.load_congr hbytes, Mem.load_write_apart _ (by
      simp [Apart, cmdHdr, cmdPayloadLen, sizeofCmdHdr])]
    exact Mem.load_store_self _ _ hlt
  · have hself := Mem.read_write_self (prepareSend page chan (iovecSize iovs)) cmdPayload
      (gather m (segs iovs))
    rw [hlen] at hself
    rw [Mem.read_congr hbytes]
    exact hself

theorem sendPage_header {m : Mem Obj} {page : Mem Page} {chan : UInt32} {iovs : List Iovec}
    {bufLen : Nat} (h : total (segs iovs) ≤ bufLen) :
    let g := iovecToBuf m (prepareSend page chan (iovecSize iovs)) (cmdHdr.add sizeofCmdHdr) 0
      bufLen iovs
    g.2.2.load cmdOpcode 2 = qlTipcDevSend ∧ g.2.2.load cmdHandle 4 = chan.toNat := by
  intro g
  obtain ⟨_, _, hbytes, _⟩ := iovecToBuf_spec (m := m)
    h
  constructor
  · rw [Mem.load_congr hbytes, Mem.load_write_apart _ (by
      simp [Apart, cmdHdr, cmdOpcode, sizeofCmdHdr]), prepareSend,
      Mem.load_store_apart _ (by decide), Mem.load_store_apart _ (by decide)]
    exact Mem.load_store_self _ _ (by decide)
  · have hlt : chan.toNat < 256 ^ 4 := chan.toNat_lt
    rw [Mem.load_congr hbytes, Mem.load_write_apart _ (by
      simp [Apart, cmdHdr, cmdHandle, sizeofCmdHdr]), prepareSend,
      Mem.load_store_apart _ (by decide)]
    exact Mem.load_store_self _ _ hlt

end ExternalTrusty
