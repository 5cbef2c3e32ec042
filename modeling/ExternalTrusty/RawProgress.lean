import ExternalTrusty.RawResponse

namespace ExternalTrusty

open CMemory

/-- An endless sequence of frames, and how many of them were received. -/
structure FrameStream where
  frames : Nat → Frame
  received : Nat

/-- Every receive takes the next frame. -/
def streamTransport : Transport FrameStream where
  connect _ _ w := some (trustyErrNone, w)
  close _ w := (trustyErrNone, w)
  send _ _ _ w := some (trustyErrNone, w)
  recv _ iovs _ w :=
    let r := deliver iovs w.mem (.frame (w.env.frames w.env.received))
    some (r.1, ⟨r.2, w.chans, w.initialized, ⟨w.env.frames, w.env.received + 1⟩⟩)

/-- What the first `k` frames carry after their headers. -/
def carried (frames : Nat → Frame) : Nat → Nat
  | 0 => 0
  | k + 1 => carried frames k + ((frames k).bytes.length - 4)

/-- Well-formed frames without a stop bit, each with as much in it as there is room for at most. -/
structure NeverStops (cmd maxRespLen : Nat) (frames : Nat → Frame) : Prop where
  header : ∀ k, 4 ≤ (frames k).bytes.length
  answers : ∀ k, leNat ((frames k).bytes.take 4) = cmd ||| keymasterRespBit
  goesOn : ∀ k, ¬isStop (leNat ((frames k).bytes.take 4))
  fits : ∀ k, k = 0 ∨ carried frames k < maxRespLen →
    (frames k).bytes.length - 4 ≤ min keymasterMaxBufferLength (maxRespLen - carried frames k)

/-- The read returns, after at most this many receives. -/
def EndsWithin (receives cmd : Nat) (resp : Ptr Obj) (respLen : Nat) (w : World FrameStream) :
    Prop :=
  ∃ fuel rc w', kmReadRawResponse streamTransport fuel cmd (some resp) respLen w =
    some (rc, w') ∧ w'.env.received ≤ w.env.received + receives

theorem carried_mono {frames : Nat → Frame} {j k : Nat} (h : j ≤ k) :
    carried frames j ≤ carried frames k := by
  induction h with
  | refl => exact Nat.le_refl _
  | step _ ih => exact Nat.le_trans ih (Nat.le_add_right _ _)

theorem clearStop_of_not_stop {n : Nat} (hn : n < 2 ^ 32) (h : ¬isStop n) : clearStop n = n := by
  have all : n &&& (0xfffffffd ||| 2) = n := by
    have low := Nat.and_two_pow_sub_one_eq_mod n 32
    rw [Nat.mod_eq_of_lt hn] at low
    exact low
  have stop : n &&& 2 = 0 := not_not.mp h
  rw [Nat.and_or_distrib_left, stop, Nat.or_zero] at all
  exact all

section Stream

variable {cmd maxRespLen : Nat} {frames : Nat → Frame} {resp : Ptr Obj}

theorem NeverStops.frameOk (h : NeverStops cmd maxRespLen frames) (hmax : maxRespLen < 2 ^ 31)
    {k : Nat} (before : carried frames k ≤ maxRespLen)
    (more : k = 0 ∨ carried frames k < maxRespLen) :
    FrameOk cmd (rawRoom maxRespLen (carried frames k)) (frames k).bytes := by
  have hroom := rawRoom_eq before (by omega)
  have hfits := h.fits k more
  have hlen := h.header k
  have hlt : leNat ((frames k).bytes.take 4) < 2 ^ 32 := leNat_take_lt 4 _
  rw [if_pos (by omega)] at hroom
  unfold keymasterMaxBufferLength at hfits
  refine ⟨hlen, by omega, by omega, ?_⟩
  rw [clearStop_of_not_stop hlt (h.goesOn k), h.answers k]

/-- One turn of the loop: a frame that is accepted, and the end when that fills the buffer. -/
theorem kmReadRawLoop_turn (hresp : resp.block ≠ .kmRawHeader)
    (h : NeverStops cmd maxRespLen frames) (hmax : maxRespLen < 2 ^ 31) {fuel k : Nat}
    {w : World FrameStream} (env : w.env = ⟨frames, k⟩) (before : carried frames k ≤ maxRespLen)
    (more : k = 0 ∨ carried frames k < maxRespLen) :
    carried frames (k + 1) ≤ maxRespLen ∧ ∃ w₁ : World FrameStream, w₁.env = ⟨frames, k + 1⟩ ∧
      kmReadRawLoop streamTransport cmd resp maxRespLen (fuel + 1) (carried frames k) w =
        if maxRespLen ≤ carried frames (k + 1) then
          some (toInt (carried frames (k + 1)), w₁)
        else
          kmReadRawLoop streamTransport cmd resp maxRespLen fuel (carried frames (k + 1)) w₁ := by
  have hok := h.frameOk hmax before more
  have hnext := hok.next_length before (by omega)
  obtain ⟨_, hfits⟩ := hok.data_length before (by omega)
  have hgrown : carried frames k + ((frames k).bytes.drop 4).length = carried frames (k + 1) := by
    rw [List.length_drop, carried]
  rw [hgrown] at hnext hfits
  obtain ⟨rc, m, delivered⟩ : ∃ rc m, (rc, m) = deliver [⟨kmRawHeader, 4⟩,
      ⟨resp.add (carried frames k), UInt64.ofNat (rawRoom maxRespLen (carried frames k))⟩] w.mem
      (.frame (frames k)) := ⟨_, _, rfl⟩
  obtain ⟨hcheck, hload, _⟩ := @rawFrame_delivered cmd _ (resp.add (carried frames k)) hresp
    (rawRoom_lt maxRespLen (carried frames k)) w.mem _ (frames k) _ delivered
  rw [frameResult_of_ok hok] at hcheck hnext
  rw [hload hok.1] at hcheck
  let w₁ : World FrameStream := ⟨m, w.chans, w.initialized, ⟨frames, k + 1⟩⟩
  have received : streamTransport.recv .km [⟨kmRawHeader, 4⟩,
      ⟨resp.add (carried frames k), UInt64.ofNat (rawRoom maxRespLen (carried frames k))⟩] true w =
        some (rc, w₁) := by
    simp only [streamTransport, env, ← delivered, w₁]
  have header : w₁.mem.load kmRawHeader 4 = leNat ((frames k).bytes.take 4) := hload hok.1
  refine ⟨hfits, w₁, rfl, ?_⟩
  rw [kmReadRawLoop]
  simp only [received, Option.bind_eq_bind, Option.bind_some, header, hcheck]
  rw [if_neg (by omega), hnext]
  by_cases full : maxRespLen ≤ carried frames (k + 1)
  · rw [if_pos (Or.inr full), if_pos full]
  · rw [if_neg (not_or.mpr ⟨h.goesOn k, full⟩), if_neg full]

/-- The loop ends at a frame that fills the buffer. -/
theorem kmReadRawLoop_ends (hresp : resp.block ≠ .kmRawHeader)
    (h : NeverStops cmd maxRespLen frames) (hmax : maxRespLen < 2 ^ 31) {fuel k : Nat}
    {w w' : World FrameStream} {rc : Int} (env : w.env = ⟨frames, k⟩)
    (before : carried frames k ≤ maxRespLen) (more : k = 0 ∨ carried frames k < maxRespLen)
    (run : kmReadRawLoop streamTransport cmd resp maxRespLen fuel (carried frames k) w =
      some (rc, w')) : maxRespLen ≤ carried frames w'.env.received := by
  induction fuel generalizing k w with
  | zero => cases run
  | succ fuel ih =>
    obtain ⟨hfits, w₁, henv, turn⟩ := @kmReadRawLoop_turn _ _ _ _ hresp h hmax fuel _ _ env before
      more
    rw [turn] at run
    split at run
    next full =>
      obtain ⟨_, rfl⟩ := Prod.mk.inj (Option.some.inj run)
      rw [henv]
      exact full
    next less => exact ih henv hfits (Or.inr (not_le.mp less)) run

/-- The loop ends in time when there are frames enough to fill the buffer. -/
theorem kmReadRawLoop_fills (hresp : resp.block ≠ .kmRawHeader)
    (h : NeverStops cmd maxRespLen frames) (hmax : maxRespLen < 2 ^ 31) {fuel k : Nat}
    {w : World FrameStream} (env : w.env = ⟨frames, k⟩) (before : carried frames k ≤ maxRespLen)
    (more : k = 0 ∨ carried frames k < maxRespLen)
    (enough : maxRespLen ≤ carried frames (k + (fuel + 1))) :
    ∃ rc w', kmReadRawLoop streamTransport cmd resp maxRespLen (fuel + 1) (carried frames k) w =
      some (rc, w') ∧ w'.env.received ≤ k + (fuel + 1) := by
  induction fuel generalizing k w with
  | zero =>
    obtain ⟨_, w₁, henv, turn⟩ := @kmReadRawLoop_turn _ _ _ _ hresp h hmax 0 _ _ env before more
    rw [turn, if_pos enough]
    exact ⟨_, w₁, rfl, by rw [henv]⟩
  | succ fuel ih =>
    obtain ⟨hfits, w₁, henv, turn⟩ := @kmReadRawLoop_turn _ _ _ _ hresp h hmax (fuel + 1) _ _ env
      before more
    rw [turn]
    split
    next full => exact ⟨_, w₁, rfl, by rw [henv]; show k + 1 ≤ _; omega⟩
    next less =>
      obtain ⟨rc, w', run, bound⟩ := ih henv hfits (Or.inr (not_le.mp less))
        (by rwa [Nat.add_assoc, Nat.add_comm 1])
      exact ⟨rc, w', run, by omega⟩

end Stream

/-- Frames without a stop bit end the read in time exactly when that many of them fill the buffer:
a frame may carry nothing. -/
theorem endsWithin_iff {cmd respLen : Nat} {frames : Nat → Frame} {resp : Ptr Obj}
    (hresp : resp.block ≠ .kmRawHeader) (hmax : respLen < 2 ^ 31)
    (h : NeverStops cmd respLen frames) {w : World FrameStream} (env : w.env = ⟨frames, 0⟩) :
    EndsWithin (max 1 respLen) cmd resp respLen w ↔
      respLen ≤ carried frames (max 1 respLen) := by
  have start : (w.setMem (w.mem.store kmRawHeader 4 cmd)).env = ⟨frames, 0⟩ := env
  constructor
  · intro ends
    obtain ⟨fuel, rc, w', run, bound⟩ := ends
    have full := @kmReadRawLoop_ends cmd respLen frames resp hresp h hmax fuel 0 _ w' rc start
      (Nat.zero_le _) (Or.inl rfl) run
    rw [env, Nat.zero_add] at bound
    exact full.trans (carried_mono bound)
  · intro enough
    obtain ⟨fuel, hfuel⟩ : ∃ fuel, max 1 respLen = fuel + 1 := ⟨max 1 respLen - 1, by omega⟩
    rw [hfuel] at enough ⊢
    obtain ⟨rc, w', run, bound⟩ := @kmReadRawLoop_fills cmd respLen frames resp hresp h hmax fuel 0
      _ start (Nat.zero_le _) (Or.inl rfl) (by rwa [Nat.zero_add])
    exact ⟨fuel + 1, rc, w', run, by rw [env]; exact bound⟩

/-- The response to `KM_ATAP_GET_CA_REQUEST`, in frames that carry these bytes each. -/
def frameOf (payload : List UInt8) (short : payload.length < 8) : Frame :=
  ⟨[1, 0, 1, 0] ++ payload, by simp; omega⟩

/-- Nothing is received yet. -/
def streamWorld (frames : Nat → Frame) : World FrameStream :=
  ⟨⟨fun _ _ => 0, []⟩, fun _ => ⟨0, 0, .sync⟩, fun _ => false, ⟨frames, 0⟩⟩

theorem carried_const {frame : Frame} (k : Nat) :
    carried (fun _ => frame) k = k * (frame.bytes.length - 4) := by
  induction k with
  | zero => simp [carried]
  | succ k ih => rw [carried, ih, Nat.succ_mul]

/-- Frames that consist of their header only: the read of four bytes never ends. -/
theorem emptyFrames_hang :
    NeverStops kmAtapGetCaRequest 4 (fun _ => frameOf [] (by decide)) ∧
      (∀ fuel, kmReadRawResponse streamTransport fuel kmAtapGetCaRequest (some ⟨.caller 0, 0⟩) 4
        (streamWorld fun _ => frameOf [] (by decide)) = none) ∧
      ¬EndsWithin (max 1 4) kmAtapGetCaRequest ⟨.caller 0, 0⟩ 4
        (streamWorld fun _ => frameOf [] (by decide)) := by
  have stream : NeverStops kmAtapGetCaRequest 4 (fun _ => frameOf [] (by decide)) :=
    ⟨fun _ => by decide, fun _ => by decide, fun _ => by decide, fun _ _ => by simp [frameOf]⟩
  have hangs : ∀ fuel, kmReadRawResponse streamTransport fuel kmAtapGetCaRequest
      (some ⟨.caller 0, 0⟩) 4 (streamWorld fun _ => frameOf [] (by decide)) = none := by
    intro fuel
    cases run : kmReadRawResponse streamTransport fuel kmAtapGetCaRequest
        (some ⟨.caller 0, 0⟩) 4 (streamWorld fun _ => frameOf [] (by decide)) with
    | none => rfl
    | some r =>
      have full := @kmReadRawLoop_ends _ 4 _ ⟨.caller 0, 0⟩ (by decide) stream (by decide) fuel 0 _
        r.2 r.1 rfl (Nat.zero_le _) (Or.inl rfl) run
      rw [carried_const] at full
      simp [frameOf] at full
  refine ⟨stream, hangs, fun ends => ?_⟩
  obtain ⟨fuel, rc, w', run, _⟩ := ends
  rw [hangs fuel] at run
  cases run

/-- Frames of one byte each fill two bytes with two receives. -/
theorem oneByteFrames_end : EndsWithin (max 1 2) kmAtapGetCaRequest ⟨.caller 0, 0⟩ 2
    (streamWorld fun _ => frameOf [7] (by decide)) := by
  have stream : NeverStops kmAtapGetCaRequest 2 (fun _ => frameOf [7] (by decide)) := by
    refine ⟨fun _ => by decide, fun _ => by decide, fun _ => by decide, fun k more => ?_⟩
    rw [carried_const] at more ⊢
    simp only [frameOf, keymasterMaxBufferLength, List.length_append, List.length_cons,
      List.length_nil] at more ⊢
    omega
  exact (endsWithin_iff (by decide) (by decide) stream rfl).mpr (by decide)

end ExternalTrusty
