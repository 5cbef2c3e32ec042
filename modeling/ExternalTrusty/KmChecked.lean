import ExternalTrusty.ErrorWord

namespace ExternalTrusty

open CMemory

theorem kmSendRequest_script (cmd : Nat) (req : Option (Ptr Obj)) (reqLen : UInt32)
    (w : World Script) : ∃ w', kmSendRequest scriptTransport cmd req reqLen w =
        some (w.env.sends.headD trustyErrNone, w') ∧ w'.env.recvs = w.env.recvs ∧
      ∀ q n, q.block ≠ .kmSendHeader → w'.mem.read q n = w.mem.read q n := by
  refine ⟨_, rfl, rfl, ?_⟩
  intro q n hq
  exact Mem.read_write_apart w.mem (Or.inl (Ne.symm hq))

theorem rawRun_rc_nonneg {cmd maxRespLen : Nat} {ds : List Delivery} (h : maxRespLen < 2 ^ 31) :
    0 ≤ (rawRun cmd maxRespLen 0 ds).rc 0 ↔
      (rawRun cmd maxRespLen 0 ds).ended = .complete := by
  rw [RawRun.rc]
  cases hend : (rawRun cmd maxRespLen 0 ds).ended with
  | rejected rc =>
    have hneg : rc < 0 := rawRun_rejected hend
    refine iff_of_false ?_ ?_
    · change ¬0 ≤ rc
      omega
    · intro complete
      cases complete
  | complete =>
    have hle := (rawRun_complete (by omega) (Nat.zero_le _) hend).1
    refine iff_of_true ?_ rfl
    change 0 ≤ toInt (0 + (rawRun cmd maxRespLen 0 ds).data.length)
    rw [toInt_of_lt (by omega)]
    omega

theorem takenSince_drop {w w' : World Script} {n : Nat}
    (h : w'.env.recvs = w.env.recvs.drop n) (hn : n ≤ w.env.recvs.length) :
    takenSince w w' = w.env.recvs.take n := by
  have hlen : w.env.recvs.length - (w.env.recvs.drop n).length = n := by
    rw [List.length_drop]
    omega
  rw [takenSince, h, hlen]

/-- A response read into a local struct of `n` bytes: what is there after, and what was taken. -/
theorem kmReadRawResponse_struct {cmd n fuel : Nat} {p : Ptr Obj} {w : World Script}
    (hp : p.block ≠ .kmRawHeader) (hn : n < 2 ^ 31) (hfuel : w.env.recvs.length < fuel) :
    ∃ w', kmReadRawResponse scriptTransport fuel cmd (some p) n w =
        some ((rawRun cmd n 0 w.env.recvs).rc 0, w') ∧
      ((rawRun cmd n 0 w.env.recvs).ended = .complete →
        w'.mem.read p n = overlay (rawRun cmd n 0 w.env.recvs).data (w.mem.read p n)) ∧
      w'.env.recvs = w.env.recvs.drop (rawRun cmd n 0 w.env.recvs).taken := by
  obtain ⟨w', hrun, hstored, hleft⟩ := kmReadRawResponse_script (w := w) hp
    (by omega : n < 2 ^ 32) hfuel
  refine ⟨w', hrun, ?_, hleft⟩
  intro hend
  have hle := (rawRun_complete (by omega : n < 2 ^ 32) (Nat.zero_le _) hend).1
  exact hstored.read_over (by simpa using hp) (by omega)

/-- The payloads of the taken frames carry a whole error word, and it is `KM_ERROR_OK`. -/
def CarriesOk (taken : List Delivery) : Prop :=
  4 ≤ (taken.flatMap (Delivery.payload 4)).length ∧
    leNat ((taken.flatMap (Delivery.payload 4)).take 4) = kmErrorOk

theorem overlay_allZero {got fill : List UInt8} (h : leNat (overlay got fill) = 0) :
    ∀ b ∈ got, b = 0 := by
  intro b hb
  exact leNat_eq_zero.mp h b (List.mem_append_left _ hb)

/-- A four-byte error word of which `got` arrived is checked, unless zeros arrived that leave it
incomplete. -/
theorem errorWord_settled_iff {got : List UInt8} {carried : Prop} (hlen : got.length ≤ 4)
    (hcarried : carried ↔ got.length = 4 ∧ leNat got = kmErrorOk) :
    (∀ fill : List UInt8, fill.length = 4 → leNat (overlay got fill) = kmErrorOk →
      carried ∧ ∀ other : List UInt8, other.length = 4 → leNat (overlay got other) = kmErrorOk) ↔
      ¬(got.length < 4 ∧ ∀ b ∈ got, b = 0) := by
  rw [hcarried]
  constructor
  · rintro h ⟨hshort, hzero⟩
    have hok : leNat (overlay got [0, 0, 0, 0]) = kmErrorOk := by
      apply leNat_eq_zero.mpr
      intro b hb
      rcases List.mem_append.mp hb with hg | hf
      · exact hzero b hg
      · have := List.mem_of_mem_drop hf
        simpa using this
    obtain ⟨⟨hfull, _⟩, _⟩ := h [0, 0, 0, 0] rfl hok
    omega
  · intro hno fill hfill hok
    have hzero := overlay_allZero hok
    have hfull : got.length = 4 := by
      by_contra hne
      exact hno ⟨by omega, hzero⟩
    have hover : ∀ other : List UInt8, other.length = 4 → overlay got other = got :=
      fun other ho => overlay_full (by omega)
    rw [hover fill hfill] at hok
    exact ⟨⟨hfull, hok⟩, fun other ho => by rw [hover other ho]; exact hok⟩

theorem errorWord_result (err : Nat) (w : World Script) :
    (if err ≠ kmErrorOk then some (trustyErrGeneric, w) else some (trustyErrNone, w)) =
      some (if err = kmErrorOk then trustyErrNone else trustyErrGeneric, w) := by
  by_cases h : err = kmErrorOk
  · rw [if_neg (not_not_intro h), if_pos h]
  · rw [if_pos h, if_neg h]

/-- The response of a command without data leaves the error word unsettled: frames that are
accepted bring only a part of it, all zero. -/
def ShortNoData (cmd : Nat) (ds : List Delivery) : Prop :=
  (rawRun cmd sizeofKmNoResponse 0 ds).ended = .complete ∧
    (rawRun cmd sizeofKmNoResponse 0 ds).data.length < 4 ∧
    ∀ b ∈ (rawRun cmd sizeofKmNoResponse 0 ds).data, b = 0

/-- A command that is not sent fails, whatever the stack held. -/
theorem kmDoTipc_unsent {cmd fuel : Nat} {req data len : Option (Ptr Obj)} {reqLen : UInt32}
    {w : World Script} {carries : List Delivery → Prop}
    (hsend : w.env.sends.headD trustyErrNone < 0) :
    ErrorChecked w .kmRespHeader carries
      (kmDoTipc scriptTransport fuel cmd req reqLen data len) := by
  apply errorChecked_of_fails hsend
  intro s
  obtain ⟨w₁, hrun, _⟩ := kmSendRequest_script cmd req reqLen (w.withStack .kmRespHeader s)
  refine ⟨w₁, ?_⟩
  simp only [kmDoTipc, hrun, Option.bind_eq_bind, Option.bind_some]
  exact if_pos hsend

theorem kmDoTipc_noData_checked_iff {cmd fuel : Nat} {req : Option (Ptr Obj)} {reqLen : UInt32}
    {len : Option (Ptr Obj)} {w : World Script} (hfuel : w.env.recvs.length < fuel) :
    ErrorChecked w .kmRespHeader CarriesOk (kmDoTipc scriptTransport fuel cmd req reqLen none len) ↔
      w.env.sends.headD trustyErrNone < 0 ∨ ¬ShortNoData cmd w.env.recvs := by
  by_cases hsend : w.env.sends.headD trustyErrNone < 0
  · exact iff_of_true (kmDoTipc_unsent hsend) (Or.inl hsend)
  · rw [or_iff_right hsend]
    have hstep : ∀ s, ∃ w₁ w₂,
        kmSendRequest scriptTransport cmd req reqLen (w.withStack .kmRespHeader s) =
          some (w.env.sends.headD trustyErrNone, w₁) ∧
        kmReadRawResponse scriptTransport fuel cmd (some kmRespHeader) sizeofKmNoResponse w₁ =
          some ((rawRun cmd sizeofKmNoResponse 0 w.env.recvs).rc 0, w₂) ∧
        ((rawRun cmd sizeofKmNoResponse 0 w.env.recvs).ended = .complete →
          w₂.mem.load kmRespHeader 4 =
            leNat (overlay (rawRun cmd sizeofKmNoResponse 0 w.env.recvs).data
              ((w.withStack .kmRespHeader s).mem.read kmRespHeader 4))) ∧
        w₂.env.recvs = w.env.recvs.drop (rawRun cmd sizeofKmNoResponse 0 w.env.recvs).taken := by
      intro s
      obtain ⟨w₁, hrun, hrecvs, hframe⟩ :=
        kmSendRequest_script cmd req reqLen (w.withStack .kmRespHeader s)
      have hds : w₁.env.recvs = w.env.recvs := hrecvs
      obtain ⟨w₂, hraw, hread, hleft⟩ := kmReadRawResponse_struct
        (n := sizeofKmNoResponse) (p := kmRespHeader) (w := w₁) (by decide)
        (by decide) (by rw [hds]; exact hfuel)
      rw [hds] at hraw hread hleft
      refine ⟨w₁, w₂, hrun, hraw, ?_, hleft⟩
      intro hend
      rw [← hframe kmRespHeader 4 (by decide)]
      exact congrArg leNat (hread hend)
    have hrc := @rawRun_rc_nonneg cmd sizeofKmNoResponse w.env.recvs (by decide)
    by_cases hend : (rawRun cmd sizeofKmNoResponse 0 w.env.recvs).ended = .complete
    · have hpos := hrc.mpr hend
      obtain ⟨hle, hdata⟩ := rawRun_complete
        (by decide : sizeofKmNoResponse < 2 ^ 32) (Nat.zero_le _) hend
      have htests := @errorChecked_iff_of_tests w (.kmRespHeader) CarriesOk
        (kmDoTipc scriptTransport fuel cmd req reqLen none len) (fun bs => leNat bs = kmErrorOk) _ _
        kmRespHeader 4 _
        rfl (by
          intro s
          obtain ⟨w₁, w₂, hrun, hraw, hload, hleft⟩ := hstep s
          refine ⟨w₂, ?_, by rw [takenSince_drop hleft (rawRun_taken_le _ _ _ _)]⟩
          simp only [kmDoTipc, hrun, Option.bind_eq_bind, Option.bind_some, hraw, hload hend]
          rw [if_neg hsend, if_neg (by omega)]
          exact errorWord_result _ w₂)
      rw [htests, errorWord_settled_iff]
      · unfold ShortNoData
        simp only [hend, true_and]
      · unfold sizeofKmNoResponse at hle ⊢
        omega
      · unfold CarriesOk
        rw [← hdata]
        unfold sizeofKmNoResponse at hle ⊢
        constructor
        · rintro ⟨hfull, hok⟩
          rw [List.take_of_length_le (by omega)] at hok
          exact ⟨by omega, hok⟩
        · rintro ⟨hfull, hok⟩
          rw [List.take_of_length_le (by omega)]
          exact ⟨by omega, hok⟩
    · refine iff_of_true ?_ (fun hshort => hend hshort.1)
      have hneg : (rawRun cmd sizeofKmNoResponse 0 w.env.recvs).rc 0 < 0 := by
        by_contra hpos
        exact hend (hrc.mp (by omega))
      apply errorChecked_of_fails hneg
      intro s
      obtain ⟨w₁, w₂, hrun, hraw, _⟩ := hstep s
      refine ⟨w₂, ?_⟩
      simp only [kmDoTipc, hrun, Option.bind_eq_bind, Option.bind_some, hraw]
      rw [if_neg hsend, if_pos hneg]

end ExternalTrusty
