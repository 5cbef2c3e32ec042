import ExternalTrusty.Reassembly

namespace ExternalTrusty

open CMemory

/-- What a frame comes to, received into the header and a buffer. -/
theorem rawFrame_delivered {cmd room : Nat} {p : Ptr Obj} (hp : p.block ≠ .kmRawHeader)
    (hroom : room < 2 ^ 64) {m m' : Mem Obj} {f : Frame} {rc : Int}
    (h : (rc, m') = deliver [⟨kmRawHeader, 4⟩, ⟨p, UInt64.ofNat room⟩] m (.frame f)) :
    checkResponseError cmd (m'.load kmRawHeader 4) rc = frameResult cmd room f.bytes ∧
      (4 ≤ f.bytes.length → m'.load kmRawHeader 4 = leNat (f.bytes.take 4)) ∧
      Stored m m' p ((f.bytes.drop 4).take room) [.kmRawHeader] := by
  have hlen : (UInt64.ofNat room).toNat = room := by
    rw [UInt64.toNat_ofNat', Nat.mod_eq_of_lt hroom]
  have hsegs : segs [⟨kmRawHeader, 4⟩, ⟨p, UInt64.ofNat room⟩] =
      (⟨kmRawHeader, 4⟩ : Seg Obj) :: [⟨p, room⟩] := by
    simp only [segs_cons, segs_nil, Iovec.seg, hlen]
    rfl
  obtain ⟨rfl, rfl⟩ := Prod.mk.inj h
  obtain ⟨hload, hcheck⟩ := @checkResponseError_scatter cmd kmRawHeader [⟨p, room⟩] m f.bytes
    (by simpa [kmRawHeader] using hp)
  have hstored := @Stored.scatter_last _ _ m [⟨kmRawHeader, 4⟩] ⟨p, room⟩ f.bytes
    (by simpa [kmRawHeader] using Ne.symm hp)
  have htotal : total [(⟨p, room⟩ : Seg Obj)] = room := by simp
  rw [htotal] at hcheck
  rw [hsegs]
  exact ⟨hcheck, hload, hstored⟩

/-- The receive and the check at the head of the loop, for any frame. -/
theorem rawFrame_received {cmd room : Nat} {p : Ptr Obj} {w : World Script} {f : Frame}
    {ds : List Delivery} (hp : p.block ≠ .kmRawHeader) (hroom : room < 2 ^ 64)
    (h : w.env.recvs = .frame f :: ds) :
    ∃ rc w', scriptTransport.recv .km [⟨kmRawHeader, 4⟩, ⟨p, UInt64.ofNat room⟩] true w =
        some (rc, w') ∧
      checkResponseError cmd (w'.mem.load kmRawHeader 4) rc = frameResult cmd room f.bytes ∧
      (4 ≤ f.bytes.length → w'.mem.load kmRawHeader 4 = leNat (f.bytes.take 4)) ∧
      Stored w.mem w'.mem p ((f.bytes.drop 4).take room) [.kmRawHeader] ∧ w'.env.recvs = ds := by
  have hrun := @scriptRecv_frame .km [⟨kmRawHeader, 4⟩, ⟨p, UInt64.ofNat room⟩] true w f
    (by rw [h]; rfl)
  obtain ⟨hcheck, hload, hstored⟩ := @rawFrame_delivered cmd room p hp hroom w.mem _ f _ rfl
  exact ⟨_, _, hrun, hcheck, hload, hstored, by rw [World.received_recvs, h, List.tail_cons]⟩

/-- The loop makes of any deliveries what the run over them says, given a turn for each. -/
theorem kmReadRawLoop_script {cmd maxRespLen : Nat} {resp : Ptr Obj}
    (hresp : resp.block ≠ .kmRawHeader) (hmax : maxRespLen < 2 ^ 32) {ds : List Delivery}
    {fuel respLen : Nat} {w : World Script} (hds : w.env.recvs = ds) (hfuel : ds.length < fuel)
    (hle : respLen ≤ maxRespLen) :
    ∃ w', kmReadRawLoop scriptTransport cmd resp maxRespLen fuel respLen w =
        some ((rawRun cmd maxRespLen respLen ds).rc respLen, w') ∧
      Stored w.mem w'.mem (resp.add respLen) (rawRun cmd maxRespLen respLen ds).data
        [.kmRawHeader] ∧
      w'.env.recvs = ds.drop (rawRun cmd maxRespLen respLen ds).taken := by
  have hout : (resp.add respLen).block ∉ [Obj.kmRawHeader] := by simpa using hresp
  have hrefl : ∀ m : Mem Obj, Stored m m (resp.add respLen) [] [.kmRawHeader] := fun m =>
    Stored.refl m _ _
  induction ds generalizing fuel respLen w with
  | nil =>
    obtain ⟨fuel, rfl⟩ : ∃ n, fuel = n + 1 := ⟨fuel - 1, by omega⟩
    have hneg : trustyErrChannelClosed < 0 := by decide
    have hrun := @scriptRecv_failed .km
      [⟨kmRawHeader, 4⟩, ⟨resp.add respLen, UInt64.ofNat (rawRoom maxRespLen respLen)⟩] true w _ _
      (by rw [hds]; rfl)
    refine ⟨w.received .km w.mem, ?_, hrefl w.mem, ?_⟩
    · simp only [kmReadRawLoop, scriptTransport, hrun, Option.bind_eq_bind, Option.bind_some,
        checkResponseError_of_neg hneg, if_pos hneg]
      rfl
    · rw [World.received_recvs, hds]
      rfl
  | cons d ds ih =>
    obtain ⟨fuel, rfl⟩ : ∃ n, fuel = n + 1 := ⟨fuel - 1, by omega⟩
    cases d with
    | failed rc neg =>
      have hrun := @scriptRecv_failed .km
        [⟨kmRawHeader, 4⟩, ⟨resp.add respLen, UInt64.ofNat (rawRoom maxRespLen respLen)⟩] true w _ _
        (by rw [hds]; rfl)
      refine ⟨w.received .km w.mem, ?_, hrefl w.mem, ?_⟩
      · simp only [kmReadRawLoop, scriptTransport, hrun, Option.bind_eq_bind, Option.bind_some,
          checkResponseError_of_neg neg, if_pos neg]
        rfl
      · rw [World.received_recvs, hds]
        rfl
    | frame f =>
      obtain ⟨rc, w₁, hrecv, hcheck, hload, hstored, hrecvs⟩ := @rawFrame_received cmd _
        (resp.add respLen) _ _ _ hresp (rawRoom_lt maxRespLen respLen) hds
      rw [kmReadRawLoop]
      simp only [hrecv, Option.bind_eq_bind, Option.bind_some, hcheck]
      rw [rawRun]
      by_cases hrej : frameResult cmd (rawRoom maxRespLen respLen) f.bytes < 0
      · simp only [if_pos hrej]
        exact ⟨w₁, rfl, hstored, hrecvs⟩
      · have hok := (frameResult_nonneg_iff f.bound).mp (not_lt.mp hrej)
        obtain ⟨htake, hfits⟩ := hok.data_length hle hmax
        have hnext := hok.next_length hle hmax
        simp only [if_neg hrej, hnext, hload hok.1, htake] at hstored ⊢
        by_cases hend : isStop (leNat (f.bytes.take 4)) ∨
            maxRespLen ≤ respLen + (f.bytes.drop 4).length
        · simp only [if_pos hend]
          exact ⟨w₁, rfl, hstored, hrecvs⟩
        · obtain ⟨w', hrun, hrest, hleft⟩ := ih hrecvs (by simp at hfuel; omega) hfits
            (by simpa using hresp) (fun m => Stored.refl m _ _)
          simp only [if_neg hend]
          refine ⟨w', ?_, ?_, ?_⟩
          · rw [hrun]
            simp only [RawRun.rc, List.length_append, Nat.add_assoc]
          · rw [Ptr.add_assoc] at hrest
            exact Stored.trans hout hstored hrest
          · rw [hleft, List.drop_succ_cons]

end ExternalTrusty
