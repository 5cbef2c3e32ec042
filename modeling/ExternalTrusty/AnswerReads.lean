import ExternalTrusty.Mailbox
import ExternalTrusty.DataResponse
import ExternalTrusty.Hwbcc

namespace ExternalTrusty

open CMemory

variable {ε : Type}

/-- The messages that wait on a handle. -/
def Service.frames {s : Surroundings ε} (sv : Service s) (h : UInt32) (w : World ε) : List Frame :=
  (sv.box h w).waiting.map Prod.snd

/-- What `km_read_raw_response` leaves unread of these messages. -/
def rawLeft (cmd maxRespLen respLen : Nat) (frames : List Frame) : List Frame :=
  frames.drop (rawRun cmd maxRespLen respLen (frames.map .frame)).taken

/-- The read of a data response ends with the last message. When there is more than one, the first
holds the error and the length. -/
def DataWhole (cmd cap : Nat) : List Frame → Prop
  | [] => True
  | f :: fs =>
    if frameResult cmd (8 + min 4096 cap) f.bytes < 0 ∨ isStop (leNat (f.bytes.take 4)) then fs = []
    else 12 ≤ f.bytes.length ∧ rawLeft cmd (remainingData cap f.bytes) 0 fs = []

section Reads

variable {s : Surroundings ε} {sv : Service s} {on : Component → Prop}
  {handles : Component → UInt32} {target : Target} {wait : Nat} {c : Component}
  {w w' : World ε} {rc : Int}

theorem Reading.frames {calls : List OsCall} {new : List (Nat × Frame)}
    (h : Reading sv on handles c w w' calls new) :
    sv.frames (handles c) w = new.map Prod.snd ++ sv.frames (handles c) w' := by
  unfold Service.frames
  rw [h.took.waiting, List.map_append]

theorem Reading.of_setMem {m : Mem Obj} {calls : List OsCall} {new : List (Nat × Frame)}
    (h : Reading sv on handles c (w.setMem m) w' calls new) :
    Reading sv on handles c w w' calls new :=
  ⟨⟨h.meanwhile.log, h.meanwhile.connected, h.meanwhile.off⟩, h.took⟩

theorem Reading.setMem {calls : List OsCall} {new : List (Nat × Frame)}
    (h : Reading sv on handles c w w' calls new) (m : Mem Obj) :
    Reading sv on handles c w (w'.setMem m) calls new :=
  ⟨⟨h.meanwhile.log, h.meanwhile.connected.setMem m, h.meanwhile.off⟩, h.took⟩

/-- A single receive, whatever becomes of the message. -/
theorem recv_reading (hc : on c) (client : sv.clients (handles c)) (h : Connected on handles w)
    {iovs : List Iovec}
    (run : (ipcTransport s.dev (s.ops target) wait).recv c iovs true w = some (rc, w')) :
    ∃ calls new, Reading sv on handles c w w' calls new ∧ (0 ≤ rc → new ≠ []) ∧
      (Calm c (handles c) calls → sv.frames (handles c) w' = (sv.frames (handles c) w).tail) := by
  obtain ⟨calls, new, reading, ⟨negative, disturbed⟩ | ⟨x, _, rfl, _⟩⟩ :=
    trustyIpcRecv_meanwhile hc client h run
  · refine ⟨calls, new, reading, fun positive => ?_, fun calm => absurd calm disturbed⟩
    exact absurd negative (not_lt.mpr positive)
  · refine ⟨calls, _, reading, fun _ => List.cons_ne_nil _ _, fun _ => ?_⟩
    rw [reading.frames]
    rfl

theorem kmReadRawLoop_reading (hc : on .km) (client : sv.clients (handles .km))
    {cmd maxRespLen : Nat} {resp : Ptr Obj} (hresp : resp.block ≠ .kmRawHeader)
    (hmax : maxRespLen < 2 ^ 32) {fuel respLen : Nat} (hle : respLen ≤ maxRespLen)
    (h : Connected on handles w)
    (run : kmReadRawLoop (ipcTransport s.dev (s.ops target) wait) cmd resp maxRespLen fuel respLen
      w = some (rc, w')) :
    ∃ calls new, Reading sv on handles .km w w' calls new ∧ (0 ≤ rc → new ≠ []) ∧
      (Calm .km (handles .km) calls → sv.frames (handles .km) w' =
        rawLeft cmd maxRespLen respLen (sv.frames (handles .km) w)) := by
  induction fuel generalizing respLen w with
  | zero => cases run
  | succ fuel ih =>
    obtain ⟨⟨rc₁, w₁⟩, received, run⟩ := Option.bind_eq_some_iff.mp run
    obtain ⟨calls, new, reading, ⟨negative, disturbed⟩ | ⟨x, m, rfl, delivered⟩⟩ :=
      trustyIpcRecv_meanwhile hc client h received
    · simp only [checkResponseError_of_neg negative, if_pos negative] at run
      cases run
      refine ⟨calls, new, reading, fun positive => ?_, fun calm => absurd calm disturbed⟩
      exact absurd negative (not_lt.mpr positive)
    · obtain ⟨hcheck, hload, _⟩ := @rawFrame_delivered cmd _ (resp.add respLen) hresp
        (rawRoom_lt maxRespLen respLen) _ _ _ _ delivered
      have frames := reading.frames
      change _ = x.2 :: sv.frames (handles .km) w₁ at frames
      simp only [hcheck] at run
      rw [frames, rawLeft, List.map_cons, rawRun]
      by_cases hrej : frameResult cmd (rawRoom maxRespLen respLen) x.2.bytes < 0
      · simp only [if_pos hrej] at run ⊢
        cases run
        exact ⟨calls, _, reading, fun _ => List.cons_ne_nil _ _, fun _ => rfl⟩
      · have hok := (frameResult_nonneg_iff x.2.bound).mp (not_lt.mp hrej)
        obtain ⟨htake, hfits⟩ := hok.data_length hle hmax
        have hnext := hok.next_length hle hmax
        simp only [if_neg hrej, hnext, hload hok.1, htake] at run ⊢
        by_cases hend : isStop (leNat (x.2.bytes.take 4)) ∨
            maxRespLen ≤ respLen + (x.2.bytes.drop 4).length
        · simp only [ge_iff_le, if_pos hend] at run ⊢
          cases run
          exact ⟨calls, _, reading, fun _ => List.cons_ne_nil _ _, fun _ => rfl⟩
        · simp only [ge_iff_le, if_neg hend] at run ⊢
          obtain ⟨calls', new', reading', _, left⟩ := ih hfits reading.meanwhile.connected run
          refine ⟨_, _, reading.trans reading', fun _ => List.cons_ne_nil _ _, fun calm => ?_⟩
          exact left (calm_append.mp calm).2

theorem kmReadRawResponse_reading (hc : on .km) (client : sv.clients (handles .km))
    {cmd maxRespLen fuel : Nat} {resp : Ptr Obj} (hresp : resp.block ≠ .kmRawHeader)
    (hmax : maxRespLen < 2 ^ 32) (h : Connected on handles w)
    (run : kmReadRawResponse (ipcTransport s.dev (s.ops target) wait) fuel cmd (some resp)
      maxRespLen w = some (rc, w')) :
    ∃ calls new, Reading sv on handles .km w w' calls new ∧ (0 ≤ rc → new ≠ []) ∧
      (Calm .km (handles .km) calls → sv.frames (handles .km) w' =
        rawLeft cmd maxRespLen 0 (sv.frames (handles .km) w)) := by
  obtain ⟨calls, new, reading, reads, left⟩ := kmReadRawLoop_reading hc client hresp hmax
    (Nat.zero_le _) (h.setMem (w.mem.store kmRawHeader 4 cmd)) run
  exact ⟨calls, new, reading.of_setMem, reads, left⟩

theorem kmReadDataResponse_reading (hc : on .km) (client : sv.clients (handles .km))
    {cmd fuel : Nat} {error data len : Ptr Obj} (places : DataPlaces error data len)
    (h : Connected on handles w)
    (run : kmReadDataResponse (ipcTransport s.dev (s.ops target) wait) fuel cmd error data len w =
      some (rc, w')) :
    ∃ calls new, Reading sv on handles .km w w' calls new ∧ (0 ≤ rc → new ≠ []) ∧
      (Calm .km (handles .km) calls →
        DataWhole cmd (w.mem.load len 4) (sv.frames (handles .km) w) →
        sv.frames (handles .km) w' = []) := by
  have hcap : (w.mem.store kmDataHeader 4 cmd).load len 4 = w.mem.load len 4 :=
    congrArg leNat (Mem.read_write_apart _ (Or.inl (Ne.symm places.len_header)))
  unfold kmReadDataResponse at run
  simp only [World.setMem, hcap] at run
  obtain ⟨⟨rc₁, w₁⟩, received, run⟩ := Option.bind_eq_some_iff.mp run
  obtain ⟨calls, new, reading, outcome⟩ := trustyIpcRecv_meanwhile hc client
    (h.setMem (w.mem.store kmDataHeader 4 cmd)) received
  replace reading := reading.of_setMem
  rcases outcome with ⟨negative, disturbed⟩ | ⟨x, m, rfl, delivered⟩
  · simp only [checkResponseError_of_neg negative, if_pos negative] at run
    cases run
    refine ⟨calls, new, reading, fun positive => ?_, fun calm => absurd calm disturbed⟩
    exact absurd negative (not_lt.mpr positive)
  · obtain ⟨hcheck, first⟩ := @dataFrame_delivered cmd _ _ _ _ places _ _ _ _ delivered
    have frames := reading.frames
    change _ = x.2 :: sv.frames (handles .km) w₁ at frames
    simp only [hcheck] at run
    rw [frames, DataWhole]
    by_cases hrej : frameResult cmd (8 + min 4096 (w.mem.load len 4)) x.2.bytes < 0
    · simp only [if_pos hrej] at run
      cases run
      refine ⟨calls, _, reading, fun _ => List.cons_ne_nil _ _, fun _ whole => ?_⟩
      rwa [if_pos (Or.inl hrej)] at whole
    · have hok := (frameResult_nonneg_iff x.2.bound).mp (not_lt.mp hrej)
      have hlt := hok.2.2.1
      simp only [first.gotHeader hok.1, frameResult_of_ok hok] at run
      by_cases hstop : isStop (leNat (x.2.bytes.take 4))
      · simp only [if_pos hstop] at run
        cases run
        refine ⟨calls, _, reading, fun _ => List.cons_ne_nil _ _, fun _ whole => ?_⟩
        rwa [if_pos (Or.inr hstop)] at whole
      · simp only [if_neg hstop] at run
        obtain ⟨⟨rc₂, w₂⟩, later, run⟩ := Option.bind_eq_some_iff.mp run
        have hbytes : u32 (usizeSub (usizeSub (intToUsize (x.2.bytes.length : Int))
            sizeofKeymasterMessage) 8) = firstDataBytes x.2.bytes := by
          rw [intToUsize_of_nonneg (by omega) (by omega), Int.toNat_natCast]
          rfl
        rw [hbytes] at later run
        obtain ⟨calls', new', reading', _, left⟩ := kmReadRawResponse_reading hc client
          (by rw [Ptr.add_block]; exact places.data_raw) (by unfold u32Sub; omega)
          reading.meanwhile.connected later
        have both := reading.trans reading'
        have whole : Calm .km (handles .km) (calls ++ calls') →
            (if frameResult cmd (8 + min 4096 (w.mem.load len 4)) x.2.bytes < 0 ∨
                isStop (leNat (x.2.bytes.take 4)) then sv.frames (handles .km) w₁ = []
              else 12 ≤ x.2.bytes.length ∧
                rawLeft cmd (remainingData (w.mem.load len 4) x.2.bytes) 0
                  (sv.frames (handles .km) w₁) = []) →
            sv.frames (handles .km) w₂ = [] := by
          intro calm whole
          rw [if_neg (not_or.mpr ⟨hrej, hstop⟩)] at whole
          have claimed : w₁.mem.load len 4 = claimedLen (w.mem.load len 4) x.2.bytes := by
            have full : ((x.2.bytes.drop 8).take 4).length = 4 := by
              rw [List.length_take, List.length_drop]
              omega
            unfold Mem.load claimedLen
            rw [first.gotLen, overlay_full (by simp; omega), overlay_full (by simp; omega)]
          rw [left (calm_append.mp calm).2, claimed]
          exact whole.2
        simp only at run
        split at run
        next negative =>
          cases run
          refine ⟨_, _, both, fun positive => ?_, whole⟩
          exact absurd negative (not_lt.mpr positive)
        next =>
          split at run
          next =>
            cases run
            exact ⟨_, _, both, fun _ => List.cons_ne_nil _ _, whole⟩
          next =>
            cases run
            exact ⟨_, _, both, fun _ => List.cons_ne_nil _ _, whole⟩

end Reads

end ExternalTrusty
