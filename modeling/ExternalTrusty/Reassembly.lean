import ExternalTrusty.Keymaster

namespace ExternalTrusty

open CMemory

/-- How reading a run of frames ends: at one that is rejected, or with all there is to read. -/
inductive RawEnd
  | rejected (rc : Int)
  | complete
  deriving DecidableEq

/-- What reading a run of frames comes to: the bytes it stores, a rejected frame's included, and
how many deliveries it takes. -/
structure RawRun where
  ended : RawEnd
  data : List UInt8
  taken : Nat

/-- The result code, when `respLen` bytes were there before. -/
def RawRun.rc (s : RawRun) (respLen : Nat) : Int :=
  match s.ended with
  | .rejected rc => rc
  | .complete => toInt (respLen + s.data.length)

/-- What `check_response_error` makes of a frame read into `room` bytes after its header. -/
def frameResult (cmd room : Nat) (bytes : List UInt8) : Int :=
  checkResponseError cmd (leNat (bytes.take 4))
    (if 4 + room < bytes.length then trustyErrMsgTooBig else toInt bytes.length)

def FrameOk (cmd room : Nat) (bytes : List UInt8) : Prop :=
  4 ≤ bytes.length ∧ bytes.length ≤ 4 + room ∧ bytes.length < 2 ^ 31 ∧
    clearStop (leNat (bytes.take 4)) = cmd ||| keymasterRespBit

/-- The bytes of a frame past its first `n`. -/
def Delivery.payload (n : Nat) : Delivery → List UInt8
  | .failed _ _ => []
  | .frame f => f.bytes.drop n

/-- The frames of a response, as `km_read_raw_response` goes through them. -/
def rawRun (cmd maxRespLen : Nat) : Nat → List Delivery → RawRun
  | _, [] => ⟨.rejected trustyErrChannelClosed, [], 0⟩
  | _, .failed rc _ :: _ => ⟨.rejected rc, [], 1⟩
  | respLen, .frame f :: ds =>
    let room := rawRoom maxRespLen respLen
    let data := (f.bytes.drop 4).take room
    if frameResult cmd room f.bytes < 0 then ⟨.rejected (frameResult cmd room f.bytes), data, 1⟩
    else if isStop (leNat (f.bytes.take 4)) ∨ maxRespLen ≤ respLen + data.length then
      ⟨.complete, data, 1⟩
    else
      let s := rawRun cmd maxRespLen (respLen + data.length) ds
      ⟨s.ended, data ++ s.data, s.taken + 1⟩

theorem checkResponseError_of_neg {cmd hdr : Nat} {rc : Int} (h : rc < 0) :
    checkResponseError cmd hdr rc = rc := if_pos h

theorem checkResponseError_short {cmd hdr n : Nat} (h : n < 4) :
    checkResponseError cmd hdr (n : Int) = trustyErrGeneric := by
  have hn : intToUsize (n : Int) = n := by
    rw [intToUsize_of_nonneg (by omega) (by omega), Int.toNat_natCast]
  rw [checkResponseError, if_neg (by omega), if_pos (by rw [hn]; exact h)]

theorem checkResponseError_full {cmd hdr n : Nat} (h : 4 ≤ n) (hn : n < 2 ^ 31) :
    checkResponseError cmd hdr (n : Int) =
      if clearStop hdr = cmd ||| keymasterRespBit then (n : Int) else trustyErrGeneric := by
  have hcast : intToUsize (n : Int) = n := by
    rw [intToUsize_of_nonneg (by omega) (by omega), Int.toNat_natCast]
  rw [checkResponseError, if_neg (by omega), if_neg (by rw [hcast, sizeofKeymasterMessage]; omega)]
  by_cases hc : clearStop hdr = cmd ||| keymasterRespBit
  · rw [if_pos hc, if_neg (not_not_intro hc)]
  · rw [if_neg hc, if_pos hc]

theorem frameResult_of_ok {cmd room : Nat} {bytes : List UInt8} (h : FrameOk cmd room bytes) :
    frameResult cmd room bytes = bytes.length := by
  obtain ⟨hlo, hhi, hlt, hcmd⟩ := h
  rw [frameResult, if_neg (by omega), toInt_of_lt hlt, checkResponseError_full hlo hlt,
    if_pos hcmd]

theorem frameResult_of_not_ok {cmd room : Nat} {bytes : List UInt8} (hb : bytes.length < 2 ^ 32)
    (h : ¬FrameOk cmd room bytes) : frameResult cmd room bytes < 0 := by
  have hgeneric : trustyErrGeneric < 0 := by decide
  have hbig : trustyErrMsgTooBig < 0 := by decide
  rw [frameResult]
  by_cases hlong : 4 + room < bytes.length
  · rw [if_pos hlong, checkResponseError_of_neg hbig]
    exact hbig
  · rw [if_neg hlong]
    by_cases hhuge : 2 ^ 31 ≤ bytes.length
    · have hneg := toInt_neg hhuge hb
      rw [checkResponseError_of_neg hneg]
      exact hneg
    · rw [toInt_of_lt (by omega)]
      by_cases hshort : bytes.length < 4
      · rw [checkResponseError_short hshort]
        exact hgeneric
      · have hcmd : clearStop (leNat (bytes.take 4)) ≠ cmd ||| keymasterRespBit :=
          fun hc => h ⟨by omega, by omega, by omega, hc⟩
        rw [checkResponseError_full (by omega) (by omega), if_neg hcmd]
        exact hgeneric

theorem frameResult_nonneg_iff {cmd room : Nat} {bytes : List UInt8}
    (hb : bytes.length < 2 ^ 32) : 0 ≤ frameResult cmd room bytes ↔ FrameOk cmd room bytes := by
  constructor
  · intro h
    by_contra hno
    have := frameResult_of_not_ok hb hno
    omega
  · intro h
    rw [frameResult_of_ok h]
    omega

/-- The header that a receive checks is the frame's own, unless the frame is too short for it to
matter. -/
theorem checkResponseError_scatter {cmd : Nat} {hdr : Ptr Obj} {rest : List (Seg Obj)}
    {m : Mem Obj} {bytes : List UInt8} (h : ∀ v ∈ rest, v.base.block ≠ hdr.block) :
    let m' := scatter m (⟨hdr, 4⟩ :: rest) bytes
    (4 ≤ bytes.length → m'.load hdr 4 = leNat (bytes.take 4)) ∧
      checkResponseError cmd (m'.load hdr 4)
          (if total ((⟨hdr, 4⟩ : Seg Obj) :: rest) < bytes.length then trustyErrMsgTooBig
            else toInt bytes.length) =
        frameResult cmd (total rest) bytes := by
  intro m'
  have hload : 4 ≤ bytes.length → m'.load hdr 4 = leNat (bytes.take 4) := by
    intro hlen
    have hput : m'.read hdr 4 = overlay (bytes.take 4) (m.read hdr 4) := by
      have hout := read_scatter_apart (m := m.put hdr (bytes.take 4)) (q := hdr)
        (n := 4) (fun v hv => Or.inl (h v hv)) (bytes.drop 4)
      rw [Mem.read_put_over m hdr (by simp)] at hout
      exact hout
    rw [Mem.load, hput, overlay_full (by simp; omega)]
  have htotal : total ((⟨hdr, 4⟩ : Seg Obj) :: rest) = 4 + total rest := total_cons _ _
  refine ⟨hload, ?_⟩
  rw [frameResult, htotal]
  by_cases hlen : 4 ≤ bytes.length
  · rw [hload hlen]
  · rw [if_neg (by omega), toInt_of_lt (by omega),
      checkResponseError_short (by omega), checkResponseError_short (by omega)]

theorem rawRoom_eq {maxRespLen respLen : Nat} (h : respLen ≤ maxRespLen)
    (hmax : maxRespLen < 2 ^ 32) :
    rawRoom maxRespLen respLen =
      if maxRespLen - respLen < 2 ^ 31 then min 4096 (maxRespLen - respLen)
      else 2 ^ 64 - 2 ^ 32 + (maxRespLen - respLen) := by
  rw [rawRoom, intSub_toInt hmax h, keymasterMaxBufferLength]
  split
  next hlt =>
    rw [toInt_of_lt hlt, intToUsize_of_nonneg (by omega) (by omega)]
    omega
  next hge =>
    rw [toInt_of_ge (by omega) (by omega), intToUsize_of_neg (by omega) (by omega)]
    omega

theorem rawRoom_lt (maxRespLen respLen : Nat) : rawRoom maxRespLen respLen < 2 ^ 64 :=
  intToUsize_lt _

/-- An accepted frame is stored whole, and leaves the run within its bound. -/
theorem FrameOk.data_length {cmd maxRespLen respLen : Nat} {bytes : List UInt8}
    (h : FrameOk cmd (rawRoom maxRespLen respLen) bytes) (hle : respLen ≤ maxRespLen)
    (hmax : maxRespLen < 2 ^ 32) :
    (bytes.drop 4).take (rawRoom maxRespLen respLen) = bytes.drop 4 ∧
      respLen + (bytes.drop 4).length ≤ maxRespLen := by
  obtain ⟨hlo, hhi, hlt, _⟩ := h
  have hroom := rawRoom_eq hle hmax
  refine ⟨List.take_of_length_le (by rw [List.length_drop]; omega), ?_⟩
  rw [List.length_drop]
  split at hroom
  next => omega
  next => omega

/-- The length that the loop goes on with after an accepted frame. -/
theorem FrameOk.next_length {cmd maxRespLen respLen : Nat} {bytes : List UInt8}
    (h : FrameOk cmd (rawRoom maxRespLen respLen) bytes) (hle : respLen ≤ maxRespLen)
    (hmax : maxRespLen < 2 ^ 32) :
    usize (respLen + usizeSub (intToUsize (frameResult cmd (rawRoom maxRespLen respLen) bytes))
      sizeofKeymasterMessage) = respLen + (bytes.drop 4).length := by
  obtain ⟨_, hfits⟩ := h.data_length hle hmax
  have hlo := h.1
  have hlt := h.2.2.1
  rw [frameResult_of_ok h, intToUsize_of_nonneg (by omega) (by omega), Int.toNat_natCast,
    List.length_drop]
  rw [List.length_drop] at hfits
  unfold usize usizeSub sizeofKeymasterMessage
  omega

/-- A run that completes stays within its bound, and stores the payloads of the frames it takes. -/
theorem rawRun_complete {cmd maxRespLen : Nat} (hmax : maxRespLen < 2 ^ 32) {respLen : Nat}
    {ds : List Delivery} (hle : respLen ≤ maxRespLen)
    (h : (rawRun cmd maxRespLen respLen ds).ended = .complete) :
    respLen + (rawRun cmd maxRespLen respLen ds).data.length ≤ maxRespLen ∧
      (rawRun cmd maxRespLen respLen ds).data =
        (ds.take (rawRun cmd maxRespLen respLen ds).taken).flatMap (Delivery.payload 4) := by
  induction ds generalizing respLen with
  | nil => simp [rawRun] at h
  | cons d ds ih =>
    cases d with
    | failed rc neg => simp [rawRun] at h
    | frame f =>
      rw [rawRun] at h ⊢
      by_cases hrej : frameResult cmd (rawRoom maxRespLen respLen) f.bytes < 0
      · simp [hrej] at h
      · have hok := (frameResult_nonneg_iff f.bound).mp (not_lt.mp hrej)
        obtain ⟨htake, hfits⟩ := hok.data_length hle hmax
        simp only [if_neg hrej, htake] at h ⊢
        by_cases hend : isStop (leNat (f.bytes.take 4)) ∨
            maxRespLen ≤ respLen + (f.bytes.drop 4).length
        · simp only [if_pos hend]
          exact ⟨hfits, by simp [Delivery.payload]⟩
        · simp only [if_neg hend] at h ⊢
          obtain ⟨hbound, hdata⟩ := ih hfits h
          refine ⟨by rw [List.length_append]; omega, ?_⟩
          rw [List.take_succ_cons, List.flatMap_cons, ← hdata]
          rfl

/-- What a rejected frame returns is an error. -/
theorem rawRun_rejected {cmd maxRespLen respLen : Nat} {ds : List Delivery} {rc : Int}
    (h : (rawRun cmd maxRespLen respLen ds).ended = .rejected rc) : rc < 0 := by
  induction ds generalizing respLen with
  | nil =>
    have hrc : trustyErrChannelClosed = rc := by simpa [rawRun] using h
    rw [← hrc]
    decide
  | cons d ds ih =>
    cases d with
    | failed rc' neg =>
      have hrc : rc' = rc := by simpa [rawRun] using h
      rw [← hrc]
      exact neg
    | frame f =>
      rw [rawRun] at h
      by_cases hrej : frameResult cmd (rawRoom maxRespLen respLen) f.bytes < 0
      · simp only [if_pos hrej] at h
        rw [← RawEnd.rejected.inj h]
        exact hrej
      · simp only [if_neg hrej] at h
        split at h
        next => cases h
        next => exact ih h

end ExternalTrusty
