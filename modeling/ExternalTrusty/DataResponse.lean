import ExternalTrusty.RawResponse

namespace ExternalTrusty

open CMemory

theorem kmReadRawResponse_script {cmd maxRespLen fuel : Nat} {resp : Ptr Obj} {w : World Script}
    (hresp : resp.block ≠ .kmRawHeader) (hmax : maxRespLen < 2 ^ 32)
    (hfuel : w.env.recvs.length < fuel) :
    ∃ w', kmReadRawResponse scriptTransport fuel cmd (some resp) maxRespLen w =
        some ((rawRun cmd maxRespLen 0 w.env.recvs).rc 0, w') ∧
      Stored w.mem w'.mem resp (rawRun cmd maxRespLen 0 w.env.recvs).data [.kmRawHeader] ∧
      w'.env.recvs = w.env.recvs.drop (rawRun cmd maxRespLen 0 w.env.recvs).taken := by
  have hout : resp.block ∉ [Obj.kmRawHeader] := by simpa using hresp
  obtain ⟨w', hrun, hstored, hleft⟩ := kmReadRawLoop_script
    (w := w.setMem (w.mem.store kmRawHeader 4 cmd)) hresp hmax rfl hfuel (Nat.zero_le _)
  have hinit := Stored.scratch_write (m := w.mem) (p := resp) (q := kmRawHeader)
    (leBytes 4 cmd) (by simp [kmRawHeader]) hout
  exact ⟨w', hrun, hinit.trans hout hstored, hleft⟩

/-- The result, the data and its length, and the locals of the read are objects of their own. -/
structure DataPlaces (error data len : Ptr Obj) : Prop where
  data_scratch : data.block ∉ [Obj.kmDataHeader, error.block, len.block]
  data_raw : data.block ≠ .kmRawHeader
  len_error : len.block ≠ error.block
  len_header : len.block ≠ .kmDataHeader
  len_raw : len.block ≠ .kmRawHeader
  len_request : len.block ≠ .kmSendHeader
  error_header : error.block ≠ .kmDataHeader
  error_raw : error.block ≠ .kmRawHeader

theorem DataPlaces.data_ne {error data len : Ptr Obj} (h : DataPlaces error data len) :
    data.block ≠ .kmDataHeader ∧ data.block ≠ error.block ∧ data.block ≠ len.block := by
  have hs := h.data_scratch
  simp only [List.mem_cons, List.not_mem_nil, or_false, not_or] at hs
  exact hs

/-- The four buffers of the first read. -/
def dataSegs (error data len : Ptr Obj) (cap : Nat) : List (Seg Obj) :=
  [⟨kmDataHeader, 4⟩, ⟨error, 4⟩, ⟨len, 4⟩, ⟨data, min 4096 cap⟩]

theorem segs_dataIovs (error data len : Ptr Obj) (cap : Nat) :
    segs (dataIovs error data len cap) = dataSegs error data len cap := by
  have hlen : (UInt64.ofNat (min keymasterMaxBufferLength cap)).toNat = min 4096 cap := by
    rw [UInt64.toNat_ofNat', keymasterMaxBufferLength]
    omega
  simp only [dataIovs, segs_cons, segs_nil, Iovec.seg, hlen]
  rfl

theorem dataSegs_apart {error data len : Ptr Obj} (h : DataPlaces error data len) (cap : Nat) :
    SegsApart (dataSegs error data len cap) := by
  obtain ⟨hd, he, hl⟩ := h.data_ne
  simp only [SegsApart, dataSegs, List.pairwise_cons, List.mem_cons, List.not_mem_nil, or_false]
  refine ⟨?_, ?_, ?_, ?_, List.Pairwise.nil⟩
  · rintro v (rfl | rfl | rfl)
    · exact Or.inl (Ne.symm h.error_header)
    · exact Or.inl (Ne.symm h.len_header)
    · exact Or.inl (Ne.symm hd)
  · rintro v (rfl | rfl)
    · exact Or.inl (Ne.symm h.len_error)
    · exact Or.inl (Ne.symm he)
  · rintro v rfl
    exact Or.inl (Ne.symm hl)
  · exact nofun

theorem DataPlaces.beside_header {error data len : Ptr Obj} (h : DataPlaces error data len)
    (cap : Nat) : ∀ v ∈ [(⟨error, 4⟩ : Seg Obj), ⟨len, 4⟩, ⟨data, min 4096 cap⟩],
      v.base.block ≠ kmDataHeader.block := by
  simp only [List.mem_cons, List.not_mem_nil, or_false]
  rintro v (rfl | rfl | rfl)
  · exact h.error_header
  · exact h.len_header
  · exact h.data_ne.1

/-- What the first frame leaves behind: the data it carries, the error word and the length, as
far as they arrived. -/
structure FirstFrame (error data len : Ptr Obj) (cap : Nat) (bytes : List UInt8)
    (m m' : Mem Obj) : Prop where
  gotHeader : 4 ≤ bytes.length → m'.load kmDataHeader 4 = leNat (bytes.take 4)
  gotError : m'.read error 4 = overlay ((bytes.drop 4).take 4) (m.read error 4)
  gotLen : m'.read len 4 = overlay ((bytes.drop 8).take 4) (m.read len 4)
  gotData : Stored m m' data ((bytes.drop 12).take (min 4096 cap))
    [.kmDataHeader, error.block, len.block]

theorem dataFrame_scatter {error data len : Ptr Obj} (h : DataPlaces error data len) (cap : Nat)
    (bytes : List UInt8) (m : Mem Obj) :
    FirstFrame error data len cap bytes m (scatter m (dataSegs error data len cap) bytes) := by
  obtain ⟨hd, he, hl⟩ := h.data_ne
  have hapart := dataSegs_apart h cap
  refine ⟨?_, ?_, ?_, ?_⟩
  · exact (@checkResponseError_scatter 0 _ _ _ _ (h.beside_header cap)).1
  · exact @read_scatter_seg _ _ [⟨kmDataHeader, 4⟩] _ ⟨error, 4⟩ hapart m bytes
  · exact @read_scatter_seg _ _ [⟨kmDataHeader, 4⟩, ⟨error, 4⟩] _ ⟨len, 4⟩ hapart m bytes
  · refine @Stored.scatter_last _ _ _ [⟨kmDataHeader, 4⟩, ⟨error, 4⟩, ⟨len, 4⟩] ⟨data, min 4096 cap⟩
      bytes ?_
    simp only [List.mem_cons, List.not_mem_nil, or_false]
    rintro v (rfl | rfl | rfl)
    · exact Ne.symm hd
    · exact Ne.symm he
    · exact Ne.symm hl

/-- The data length the caller ends up with: the bytes that arrived, over the capacity. -/
def claimedLen (cap : Nat) (bytes : List UInt8) : Nat :=
  leNat (overlay ((bytes.drop 8).take 4) (leBytes 4 cap))

/-- `resp_data_bytes` after the first frame, which wraps below twelve bytes -/
def firstDataBytes (bytes : List UInt8) : Nat :=
  u32 (usizeSub (usizeSub bytes.length sizeofKeymasterMessage) 8)

/-- `resp_data_remaining` -/
def remainingData (cap : Nat) (bytes : List UInt8) : Nat :=
  u32Sub (claimedLen cap bytes) (firstDataBytes bytes)

def laterRun (cmd cap : Nat) (bytes : List UInt8) (ds : List Delivery) : RawRun :=
  rawRun cmd (remainingData cap bytes) 0 ds

/-- The first frame passes the check, read with room for all the offered buffers. -/
def FirstOk (cmd cap : Nat) (bytes : List UInt8) : Prop := FrameOk cmd (8 + min 4096 cap) bytes

theorem claimedLen_lt (cap : Nat) (bytes : List UInt8) : claimedLen cap bytes < 2 ^ 32 := by
  have h := leNat_lt (overlay ((bytes.drop 8).take 4) (leBytes 4 cap))
  have hlen : (overlay ((bytes.drop 8).take 4) (leBytes 4 cap)).length = 4 := by
    rw [overlay_length, leBytes_length, List.length_take]
    omega
  rwa [hlen] at h

theorem remainingData_lt (cap : Nat) (bytes : List UInt8) : remainingData cap bytes < 2 ^ 32 := by
  unfold remainingData u32Sub
  omega

theorem firstDataBytes_full {bytes : List UInt8} (h : 12 ≤ bytes.length)
    (hlt : bytes.length < 2 ^ 31) : firstDataBytes bytes = bytes.length - 12 := by
  unfold firstDataBytes u32 usizeSub sizeofKeymasterMessage
  omega

theorem firstDataBytes_short {bytes : List UInt8} (h : bytes.length < 12) (hlo : 4 ≤ bytes.length) :
    firstDataBytes bytes = 2 ^ 32 - (12 - bytes.length) := by
  unfold firstDataBytes u32 usizeSub sizeofKeymasterMessage
  omega

/-- What the first frame of a data response comes to. -/
theorem dataFrame_delivered {cmd cap : Nat} {error data len : Ptr Obj}
    (h : DataPlaces error data len) {m m' : Mem Obj} {f : Frame} {rc : Int}
    (hrecv : (rc, m') = deliver (dataIovs error data len cap) m (.frame f)) :
    checkResponseError cmd (m'.load kmDataHeader 4) rc =
        frameResult cmd (8 + min 4096 cap) f.bytes ∧
      FirstFrame error data len cap f.bytes m m' := by
  have htotal : total [(⟨error, 4⟩ : Seg Obj), ⟨len, 4⟩, ⟨data, min 4096 cap⟩] =
      8 + min 4096 cap := by
    simp only [total_cons, total_nil]
    omega
  have hcheck := (@checkResponseError_scatter cmd _ _ m f.bytes (h.beside_header cap)).2
  obtain ⟨rfl, rfl⟩ := Prod.mk.inj hrecv
  rw [segs_dataIovs]
  rw [htotal] at hcheck
  exact ⟨hcheck, dataFrame_scatter h cap f.bytes m⟩

/-- The first receive of a data response, for any frame. -/
theorem dataFrame_received {cmd cap : Nat} {error data len : Ptr Obj} {w : World Script}
    {f : Frame} {ds : List Delivery} (h : DataPlaces error data len)
    (hds : w.env.recvs = .frame f :: ds) :
    ∃ rc w', scriptTransport.recv .km (dataIovs error data len cap) true w = some (rc, w') ∧
      checkResponseError cmd (w'.mem.load kmDataHeader 4) rc =
        frameResult cmd (8 + min 4096 cap) f.bytes ∧
      FirstFrame error data len cap f.bytes w.mem w'.mem ∧ w'.env.recvs = ds := by
  have hrun := @scriptRecv_frame .km (dataIovs error data len cap) true w f (by rw [hds]; rfl)
  obtain ⟨hcheck, hfirst⟩ := @dataFrame_delivered cmd cap error data len h w.mem _ f _ rfl
  exact ⟨_, _, hrun, hcheck, hfirst, by rw [World.received_recvs, hds, List.tail_cons]⟩

/-- The world a data read starts from, with its header local set up. -/
theorem dataInit_world (cmd : Nat) {error data len : Ptr Obj} (h : DataPlaces error data len)
    (w : World Script) : ∃ w₀, w.setMem (w.mem.store kmDataHeader 4 cmd) = w₀ ∧
      w₀.env = w.env ∧ w₀.mem.load len 4 = w.mem.load len 4 ∧
      w₀.mem.read len 4 = w.mem.read len 4 ∧ w₀.mem.read error 4 = w.mem.read error 4 ∧
      Stored w.mem w₀.mem data [] [.kmDataHeader, error.block, len.block] := by
  have hlen : (w.mem.store kmDataHeader 4 cmd).read len 4 = w.mem.read len 4 :=
    Mem.read_write_apart _ (Or.inl (Ne.symm h.len_header))
  have herr : (w.mem.store kmDataHeader 4 cmd).read error 4 = w.mem.read error 4 :=
    Mem.read_write_apart _ (Or.inl (Ne.symm h.error_header))
  exact ⟨_, rfl, rfl, congrArg leNat hlen, hlen, herr,
    Stored.scratch_write _ (by simp [kmDataHeader]) h.data_scratch⟩

/-- The result of the later frames, once the first one is in. -/
def laterResult (cap : Nat) (bytes : List UInt8) (s : RawRun) : Int :=
  if s.rc 0 < 0 then s.rc 0
  else if claimedLen cap bytes ≠ u32 (firstDataBytes bytes + (s.rc 0).toNat) then trustyErrGeneric
  else trustyErrNone

/-- The result of the whole read. -/
def dataResult (cmd cap : Nat) : List Delivery → Int
  | [] => trustyErrChannelClosed
  | .failed rc _ :: _ => rc
  | .frame f :: ds =>
    if frameResult cmd (8 + min 4096 cap) f.bytes < 0 then
      frameResult cmd (8 + min 4096 cap) f.bytes
    else if isStop (leNat (f.bytes.take 4)) then trustyErrNone
    else laterResult cap f.bytes (laterRun cmd cap f.bytes ds)

/-- A first receive that fails, or whose frame is rejected, ends the read. -/
theorem kmReadDataResponse_rejected {cmd fuel : Nat} {error data len : Ptr Obj} {w : World Script}
    (h : DataPlaces error data len)
    (hrej : ∀ f ds, w.env.recvs = .frame f :: ds → ¬FirstOk cmd (w.mem.load len 4) f.bytes) :
    ∃ w' bs, kmReadDataResponse scriptTransport fuel cmd error data len w =
        some (dataResult cmd (w.mem.load len 4) w.env.recvs, w') ∧
      dataResult cmd (w.mem.load len 4) w.env.recvs < 0 ∧ bs.length ≤ w.mem.load len 4 ∧
      Stored w.mem w'.mem data bs [.kmDataHeader, error.block, len.block] := by
  obtain ⟨w₀, hw₀, henv, hcap, _, _, hinit⟩ := dataInit_world cmd h w
  have hfailed : ∀ rc (neg : rc < 0), w.env.recvs.headD .closed = .failed rc neg →
      ∃ w' bs, kmReadDataResponse scriptTransport fuel cmd error data len w = some (rc, w') ∧
        rc < 0 ∧ bs.length ≤ w.mem.load len 4 ∧
        Stored w.mem w'.mem data bs [.kmDataHeader, error.block, len.block] := by
    intro rc neg hhead
    have hrun := @scriptRecv_failed .km (dataIovs error data len (w.mem.load len 4)) true w₀ _ _
      (by rw [henv, hhead])
    refine ⟨w₀.received .km w₀.mem, [], ?_, neg, by simp, hinit⟩
    simp only [kmReadDataResponse, hw₀, hcap, scriptTransport, hrun, Option.bind_eq_bind,
      Option.bind_some, checkResponseError_of_neg neg, if_pos neg]
  cases hds : w.env.recvs with
  | nil => exact hfailed trustyErrChannelClosed (by decide) (by rw [hds]; rfl)
  | cons d ds =>
    cases d with
    | failed rc neg => exact hfailed rc neg (by rw [hds]; rfl)
    | frame f =>
      obtain ⟨rc, w', hrun, hcheck, hfirst, _⟩ := @dataFrame_received cmd _ _ _ _ w₀ _ _ h
        (by rw [henv, hds])
      have hneg := frameResult_of_not_ok f.bound (hrej f ds hds)
      rw [dataResult, if_pos hneg]
      refine ⟨w', [] ++ (f.bytes.drop 12).take (min 4096 (w.mem.load len 4)), ?_, hneg, ?_,
        hinit.trans h.data_scratch hfirst.gotData⟩
      · simp only [kmReadDataResponse, hw₀, hcap, hrun, Option.bind_eq_bind, Option.bind_some,
          hcheck, if_pos hneg]
      · simp only [List.nil_append, List.length_take]
        omega

/-- What an accepted first frame leaves behind, from where the read started. -/
structure FirstRead (error data len : Ptr Obj) (cap : Nat) (bytes : List UInt8)
    (m m' : Mem Obj) : Prop where
  gotError : m'.read error 4 = overlay ((bytes.drop 4).take 4) (m.read error 4)
  gotLen : m'.load len 4 = claimedLen cap bytes
  gotData : Stored m m' data (bytes.drop 12) [.kmDataHeader, error.block, len.block]

theorem dataFirst_accepted {cmd : Nat} {error data len : Ptr Obj} {w : World Script} {f : Frame}
    {ds : List Delivery} (h : DataPlaces error data len) (hds : w.env.recvs = .frame f :: ds)
    (hok : FirstOk cmd (w.mem.load len 4) f.bytes) :
    ∃ rc w₁, scriptTransport.recv .km (dataIovs error data len (w.mem.load len 4)) true
        (w.setMem (w.mem.store kmDataHeader 4 cmd)) = some (rc, w₁) ∧
      checkResponseError cmd (w₁.mem.load kmDataHeader 4) rc = f.bytes.length ∧
      w₁.mem.load kmDataHeader 4 = leNat (f.bytes.take 4) ∧ w₁.env.recvs = ds ∧
      FirstRead error data len (w.mem.load len 4) f.bytes w.mem w₁.mem := by
  obtain ⟨w₀, hw₀, henv, _, hlen, herr, hinit⟩ := dataInit_world cmd h w
  obtain ⟨rc, w₁, hrun, hcheck, hfirst, hrecvs⟩ := @dataFrame_received _ (w.mem.load len 4) _ _ _ w₀
    _ _ h (by rw [henv, hds])
  have hwhole : (f.bytes.drop 12).take (min 4096 (w.mem.load len 4)) = f.bytes.drop 12 := by
    have hhi := hok.2.1
    apply List.take_of_length_le
    rw [List.length_drop]
    omega
  have hold : leBytes 4 (w.mem.load len 4) = w.mem.read len 4 := by
    have hle := leBytes_leNat (w.mem.read len 4)
    rwa [Mem.read_length] at hle
  have hdata := hfirst.gotData
  rw [hwhole] at hdata
  rw [hw₀]
  refine ⟨rc, w₁, hrun, ?_, hfirst.gotHeader hok.1, hrecvs, ?_, ?_, ?_⟩
  · rw [hcheck]
    exact frameResult_of_ok hok
  · rw [hfirst.gotError, herr]
  · rw [claimedLen, hold, ← hlen, Mem.load, hfirst.gotLen]
  · exact hinit.trans h.data_scratch hdata

theorem kmReadDataResponse_stop {cmd fuel : Nat} {error data len : Ptr Obj} {w : World Script}
    {f : Frame} {ds : List Delivery} (h : DataPlaces error data len)
    (hds : w.env.recvs = .frame f :: ds) (hok : FirstOk cmd (w.mem.load len 4) f.bytes)
    (hstop : isStop (leNat (f.bytes.take 4))) :
    ∃ w', kmReadDataResponse scriptTransport fuel cmd error data len w =
        some (trustyErrNone, w') ∧ w'.env.recvs = ds ∧
      FirstRead error data len (w.mem.load len 4) f.bytes w.mem w'.mem := by
  obtain ⟨rc, w₁, hrun, hcheck, hhdr, hrecvs, hfirst⟩ := dataFirst_accepted h hds hok
  obtain ⟨w₀, hw₀, _, hcap, _⟩ := dataInit_world cmd h w
  rw [hw₀] at hrun
  rw [hhdr] at hcheck
  refine ⟨w₁, ?_, hrecvs, hfirst⟩
  simp only [kmReadDataResponse, hw₀, hcap, hrun, Option.bind_eq_bind, Option.bind_some, hcheck,
    hhdr, if_pos hstop]
  exact if_neg (by omega)

theorem kmReadDataResponse_more {cmd fuel : Nat} {error data len : Ptr Obj} {w : World Script}
    {f : Frame} {ds : List Delivery} (h : DataPlaces error data len)
    (hds : w.env.recvs = .frame f :: ds) (hfuel : ds.length < fuel)
    (hok : FirstOk cmd (w.mem.load len 4) f.bytes)
    (hmore : ¬isStop (leNat (f.bytes.take 4))) :
    ∃ w₁ w', kmReadDataResponse scriptTransport fuel cmd error data len w =
        some (laterResult (w.mem.load len 4) f.bytes
          (laterRun cmd (w.mem.load len 4) f.bytes ds), w') ∧
      FirstRead error data len (w.mem.load len 4) f.bytes w.mem w₁ ∧
      Stored w₁ w'.mem (data.add (firstDataBytes f.bytes))
        (laterRun cmd (w.mem.load len 4) f.bytes ds).data [.kmRawHeader] ∧
      w'.env.recvs = ds.drop (laterRun cmd (w.mem.load len 4) f.bytes ds).taken := by
  obtain ⟨rc, w₁, hrun, hcheck, hhdr, hrecvs, hfirst⟩ := dataFirst_accepted h hds hok
  obtain ⟨w₀, hw₀, _, hcap, _⟩ := dataInit_world cmd h w
  have hbytes : u32 (usizeSub (usizeSub (intToUsize (f.bytes.length : Int))
      sizeofKeymasterMessage) 8) = firstDataBytes f.bytes := by
    have hlt := hok.2.2.1
    rw [intToUsize_of_nonneg (by omega) (by omega), Int.toNat_natCast, firstDataBytes]
  obtain ⟨w₂, hraw, hstored, hleft⟩ := @kmReadRawResponse_script _ _ _
    (data.add (firstDataBytes f.bytes)) w₁ (by rw [Ptr.add_block]; exact h.data_raw)
    (remainingData_lt (w.mem.load len 4) f.bytes) (by rw [hrecvs]; exact hfuel)
  rw [hrecvs] at hraw hstored hleft
  have hlen : w₂.mem.load len 4 = claimedLen (w.mem.load len 4) f.bytes := by
    rw [← hfirst.gotLen, Mem.load, Mem.load, hstored.frame len 4 (by simpa using h.len_raw)
      (Or.inl (by rw [Ptr.add_block]; exact h.data_ne.2.2))]
  refine ⟨w₁.mem, w₂, ?_, hfirst, hstored, hleft⟩
  rw [hw₀] at hrun
  rw [hhdr] at hcheck
  simp only [kmReadDataResponse, hw₀, hcap, hrun, Option.bind_eq_bind, Option.bind_some, hcheck,
    hhdr, if_neg hmore, hbytes, hfirst.gotLen]
  rw [if_neg (by omega)]
  rw [← laterRun] at hraw hstored hleft
  have hrem : u32Sub (claimedLen (w.mem.load len 4) f.bytes) (firstDataBytes f.bytes) =
      remainingData (w.mem.load len 4) f.bytes := by rw [remainingData]
  simp only [hrem, hraw, Option.bind_some, hlen, laterResult]
  by_cases hneg : (laterRun cmd (w.mem.load len 4) f.bytes ds).rc 0 < 0
  · simp only [if_pos hneg]
  · simp only [if_neg hneg]
    split <;> rfl

end ExternalTrusty
