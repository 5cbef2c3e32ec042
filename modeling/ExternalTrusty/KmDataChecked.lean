import ExternalTrusty.KmChecked

namespace ExternalTrusty

open CMemory

/-- The first frame carries a whole error word, and it is `KM_ERROR_OK`. -/
def FirstCarriesOk (taken : List Delivery) : Prop :=
  ∃ f rest, taken = .frame f :: rest ∧ 8 ≤ f.bytes.length ∧
    leNat ((f.bytes.drop 4).take 4) = kmErrorOk

/-- The frames of a data response, as far as it can be read without an error. -/
def DataAccepted (cmd cap : Nat) (f : Frame) (rest : List Delivery) : Prop :=
  FirstOk cmd cap f.bytes ∧
    (isStop (leNat (f.bytes.take 4)) ∨ LaterComplete cmd cap f.bytes rest)

/-- A data response that is accepted although its error word is cut short, after zeros. -/
def ShortData (cmd cap : Nat) (ds : List Delivery) : Prop :=
  ∃ f rest, ds = .frame f :: rest ∧ DataAccepted cmd cap f rest ∧ f.bytes.length < 8 ∧
    ∀ b ∈ f.bytes.drop 4, b = 0

/-- A data response that is read without an error leaves its error word over the old one. -/
theorem kmReadDataResponse_accepted {cmd fuel : Nat} {error data len : Ptr Obj}
    {w : World Script} {f : Frame} {ds : List Delivery} (h : DataPlaces error data len)
    (hds : w.env.recvs = .frame f :: ds) (hfuel : ds.length < fuel)
    (hacc : DataAccepted cmd (w.mem.load len 4) f ds) :
    ∃ w' n, kmReadDataResponse scriptTransport fuel cmd error data len w =
        some (trustyErrNone, w') ∧
      w'.mem.read error 4 = overlay ((f.bytes.drop 4).take 4) (w.mem.read error 4) ∧
      takenSince w w' = .frame f :: ds.take n := by
  obtain ⟨hok, hend⟩ := hacc
  by_cases hstop : isStop (leNat (f.bytes.take 4))
  · obtain ⟨w', hrun, hrecvs, hread⟩ := kmReadDataResponse_stop h hds hok hstop
    exact ⟨w', 0, hrun, hread.gotError, takenSince_cons hds hrecvs (Nat.zero_le _)⟩
  · have hcomp := hend.resolve_left hstop
    obtain ⟨m₁, w', hrun, hread, hlater, hrecvs⟩ := kmReadDataResponse_more h hds hfuel hok hstop
    rw [laterResult_eq_none.mpr hcomp] at hrun
    refine ⟨w', _, hrun, ?_, takenSince_cons hds hrecvs (rawRun_taken_le _ _ _ _)⟩
    rw [← hread.gotError, hlater.frame error 4 (by simpa using h.error_raw)
      (Or.inl (by rw [Ptr.add_block]; exact h.data_ne.2.1))]

theorem laterResult_nonpos {cap : Nat} {bytes : List UInt8} {s : RawRun}
    (h : laterResult cap bytes s ≠ trustyErrNone) : laterResult cap bytes s < 0 := by
  unfold laterResult at *
  split
  next hneg => exact hneg
  next hpos =>
    rw [if_neg hpos] at h
    split
    next => decide
    next hsame => exact absurd (if_neg hsame) h

/-- Any other data response ends in an error, the same whatever the stack held. -/
theorem kmReadDataResponse_refused {cmd fuel : Nat} {error data len : Ptr Obj}
    {w : World Script} (h : DataPlaces error data len) (hfuel : w.env.recvs.length < fuel)
    (hno : ∀ f ds, w.env.recvs = .frame f :: ds → ¬DataAccepted cmd (w.mem.load len 4) f ds) :
    dataResult cmd (w.mem.load len 4) w.env.recvs < 0 ∧
      ∃ w', kmReadDataResponse scriptTransport fuel cmd error data len w =
        some (dataResult cmd (w.mem.load len 4) w.env.recvs, w') := by
  by_cases hrej : ∀ f ds, w.env.recvs = .frame f :: ds →
      ¬FirstOk cmd (w.mem.load len 4) f.bytes
  · obtain ⟨w', _, hrun, hneg, _⟩ := kmReadDataResponse_rejected h hrej
    exact ⟨hneg, w', hrun⟩
  · simp only [not_forall, not_not] at hrej
    obtain ⟨f, ds, hds, hok⟩ := hrej
    have hmore : ¬isStop (leNat (f.bytes.take 4)) := fun hs => hno f ds hds ⟨hok, Or.inl hs⟩
    have hlater : laterResult (w.mem.load len 4) f.bytes
        (laterRun cmd (w.mem.load len 4) f.bytes ds) < 0 :=
      laterResult_nonpos fun hnone =>
        hno f ds hds ⟨hok, Or.inr (laterResult_eq_none.mp hnone)⟩
    have hlt : ds.length < fuel := by
      rw [hds, List.length_cons] at hfuel
      omega
    have hres : dataResult cmd (w.mem.load len 4) w.env.recvs =
        laterResult (w.mem.load len 4) f.bytes (laterRun cmd (w.mem.load len 4) f.bytes ds) := by
      have hpos := (frameResult_nonneg_iff f.bound).mpr hok
      rw [hds, dataResult, if_neg (by omega), if_neg hmore]
    obtain ⟨_, w', hrun, _⟩ := kmReadDataResponse_more h hds hlt hok hmore
    rw [hres]
    exact ⟨hlater, w', hrun⟩

theorem kmDoTipc_data_checked_iff {cmd fuel : Nat} {req : Option (Ptr Obj)} {reqLen : UInt32}
    {data len : Ptr Obj} {w : World Script} (h : DataPlaces kmRespHeader data len)
    (hfuel : w.env.recvs.length < fuel) :
    ErrorChecked w .kmRespHeader FirstCarriesOk
        (kmDoTipc scriptTransport fuel cmd req reqLen (some data) (some len)) ↔
      w.env.sends.headD trustyErrNone < 0 ∨ ¬ShortData cmd (w.mem.load len 4) w.env.recvs := by
  have hsent : ∀ s, ∃ w₁,
      kmSendRequest scriptTransport cmd req reqLen (w.withStack .kmRespHeader s) =
        some (w.env.sends.headD trustyErrNone, w₁) ∧ w₁.env.recvs = w.env.recvs ∧
      w₁.mem.load len 4 = w.mem.load len 4 ∧
      w₁.mem.read kmRespHeader 4 = (w.withStack .kmRespHeader s).mem.read kmRespHeader 4 := by
    intro s
    obtain ⟨w₁, hrun, hrecvs, hframe⟩ :=
      kmSendRequest_script cmd req reqLen (w.withStack .kmRespHeader s)
    refine ⟨w₁, hrun, hrecvs, ?_, hframe kmRespHeader 4 (by decide)⟩
    have hkeep := World.withStack_read w (b := .kmRespHeader) s h.len_error 4
    rw [Mem.load, hframe len 4 h.len_request, hkeep, Mem.load]
  by_cases hsend : w.env.sends.headD trustyErrNone < 0
  · exact iff_of_true (kmDoTipc_unsent hsend) (Or.inl hsend)
  · rw [or_iff_right hsend]
    by_cases hacc : ∃ f ds, w.env.recvs = .frame f :: ds ∧
        DataAccepted cmd (w.mem.load len 4) f ds
    · obtain ⟨f, ds, hds, hacc⟩ := hacc
      have hlt : ds.length < fuel := by
        rw [hds, List.length_cons] at hfuel
        omega
      rw [@errorChecked_iff_of_tests _ (.kmRespHeader) _ _ (fun bs => leNat bs = kmErrorOk) _ _
        kmRespHeader 4 _
        rfl, errorWord_settled_iff _ Iff.rfl]
      · have hlen : ((f.bytes.drop 4).take 4).length < 4 ↔ f.bytes.length < 8 := by
          rw [List.length_take, List.length_drop]
          omega
        rw [hlen, not_iff_not]
        constructor
        · rintro ⟨hshort, hzero⟩
          rw [List.take_of_length_le (by rw [List.length_drop]; omega)] at hzero
          exact ⟨f, ds, hds, hacc, hshort, hzero⟩
        · rintro ⟨f', ds', hds', _, hshort, hzero⟩
          obtain ⟨rfl, rfl⟩ : f' = f ∧ ds' = ds := by simpa using hds'.symm.trans hds
          rw [List.take_of_length_le (by rw [List.length_drop]; omega)]
          exact ⟨hshort, hzero⟩
      · rw [List.length_take]
        omega
      · intro s
        obtain ⟨w₁, hrun, hrecvs, hcap, hread⟩ := hsent s
        obtain ⟨w₂, n, hdata, herror, htaken⟩ := kmReadDataResponse_accepted h
          (hrecvs.trans hds) hlt (by rw [hcap]; exact hacc)
        have hsince : takenSince w w₂ = takenSince w₁ w₂ := by
          rw [takenSince, takenSince, hrecvs]
        refine ⟨w₂, ?_, ?_⟩
        · simp only [kmDoTipc, hrun, Option.bind_eq_bind, Option.bind_some, hdata]
          rw [if_neg hsend, if_neg (by decide), Mem.load, herror, hread]
          exact errorWord_result _ w₂
        · rw [hsince, htaken, List.length_take, List.length_drop]
          constructor
          · rintro ⟨f', rest, heq, hfull, hok⟩
            obtain ⟨rfl, _⟩ : f = f' ∧ ds.take n = rest := by simpa using heq
            exact ⟨by omega, hok⟩
          · rintro ⟨hfull, hok⟩
            exact ⟨f, _, rfl, by omega, hok⟩
    · have hno : ∀ f ds, w.env.recvs = .frame f :: ds →
          ¬DataAccepted cmd (w.mem.load len 4) f ds := fun f ds hds ha => hacc ⟨f, ds, hds, ha⟩
      refine iff_of_true ?_ ?_
      · have hrun : ∀ s, ∃ w', dataResult cmd (w.mem.load len 4) w.env.recvs < 0 ∧
            kmDoTipc scriptTransport fuel cmd req reqLen (some data) (some len)
              (w.withStack .kmRespHeader s) =
            some (dataResult cmd (w.mem.load len 4) w.env.recvs, w') := by
          intro s
          obtain ⟨w₁, hrun, hrecvs, hcap, _⟩ := hsent s
          obtain ⟨hneg, w₂, hdata⟩ := kmReadDataResponse_refused
            (w := w₁) h (by rw [hrecvs]; exact hfuel) (by rw [hrecvs, hcap]; exact hno)
          rw [hrecvs, hcap] at hneg hdata
          refine ⟨w₂, hneg, ?_⟩
          simp only [kmDoTipc, hrun, Option.bind_eq_bind, Option.bind_some, hdata]
          rw [if_neg hsend, if_pos hneg]
        obtain ⟨_, hneg, _⟩ := hrun fun _ => 0
        exact errorChecked_of_fails hneg fun s => (hrun s).imp fun _ hw => hw.2
      · rintro ⟨f, ds, hds, ha, _⟩
        exact hno f ds hds ha

end ExternalTrusty
