import ExternalTrusty.Attempts
import ExternalTrusty.SentMessages
import ExternalTrusty.SerializeRoundTrip
import ExternalTrusty.KmChecked

namespace ExternalTrusty

open CMemory CProgram

/-- The requests that upload a CA response. -/
inductive CaRequest
  | begin (size : Nat)
  | update (chunk : List UInt8)
  | finish

namespace CaRequest

def cmd : CaRequest → Nat
  | .begin _ => kmAtapSetCaResponseBegin
  | .update _ => kmAtapSetCaResponseUpdate
  | .finish => kmAtapSetCaResponseFinish

def payload : CaRequest → List UInt8
  | .begin size => leBytes 4 size
  | .update chunk => Codec.sized.encode chunk
  | .finish => []

def message (r : CaRequest) : List UInt8 := leBytes 4 r.cmd ++ r.payload

/-- Only a chunk's message is allocated. -/
def Allocated (heap : Nat → Option Nat) : CaRequest → Prop
  | .update chunk => (heap (4 + chunk.length)).isSome
  | _ => True

end CaRequest

/-- An attempt at a request: its message is sent, and `km_do_tipc` comes to this, or there is no
memory for it. -/
inductive CaAttempt (fuel : Nat) (heap : Nat → Option Nat) :
    CaRequest → World Script → Int → World Script → Prop
  | asked {r w rc w'} (req len m) : r.Allocated heap →
      kmDoTipc scriptTransport fuel r.cmd req len none none (w.setMem m) = some (rc, w') →
      Sent w.env w'.env [(.km, r.message)] → CaAttempt fuel heap r w rc w'
  | noMemory {r w} (m) : ¬r.Allocated heap →
      CaAttempt fuel heap r w trustyErrNoMemory (w.setMem m)

/-- All the requests for a CA response, in order. -/
def caRequests (caResponse : List UInt8) : List CaRequest :=
  .begin caResponse.length :: ((chunks kMaxSendSize caResponse).map .update ++ [.finish])

theorem kmMessage_none (m : Mem Obj) (cmd : Nat) (reqLen : UInt32) :
    kmMessage m cmd none reqLen = (.km, leBytes 4 cmd ++ []) := by
  have header := Mem.read_write_self m kmSendHeader (leBytes 4 cmd)
  rw [leBytes_length] at header
  show (Component.km, (m.store kmSendHeader 4 cmd).read kmSendHeader 4 ++ []) = _
  rw [Mem.store, header]

theorem kmMessage_some {m : Mem Obj} {cmd : Nat} {p : Ptr Obj} {reqLen : UInt32}
    {payload : List UInt8} (apart : p.block ≠ .kmSendHeader)
    (held : m.read p reqLen.toNat = payload) :
    kmMessage m cmd (some p) reqLen = (.km, leBytes 4 cmd ++ payload) := by
  have header := Mem.read_write_self m kmSendHeader (leBytes 4 cmd)
  rw [leBytes_length] at header
  have kept : (m.store kmSendHeader 4 cmd).read p reqLen.toNat = payload := by
    rw [Mem.store, Mem.read_write_apart m (Or.inl apart.symm), held]
  have wide : reqLen.toUInt64.toNat = reqLen.toNat := UInt32.toNat_toUInt64 reqLen
  show (Component.km, (m.store kmSendHeader 4 cmd).read kmSendHeader 4 ++
    ((m.store kmSendHeader 4 cmd).read p reqLen.toUInt64.toNat ++ [])) = _
  rw [wide, kept, List.append_nil, Mem.store, header]

/-- What a request leaves to those after it. -/
structure Leaves (w w' : World Script) : Prop where
  recvs : w'.env.recvs.length ≤ w.env.recvs.length
  caller : ∀ c off n, w'.mem.read ⟨.caller c, off⟩ n = w.mem.read ⟨.caller c, off⟩ n

/-- A request without data in its response stores only to locals of the calls it makes. -/
theorem kmDoTipc_leaves {cmd fuel : Nat} {req : Option (Ptr Obj)} {reqLen : UInt32}
    {w : World Script} (enough : w.env.recvs.length < fuel) :
    ∃ rc w', kmDoTipc scriptTransport fuel cmd req reqLen none none w = some (rc, w') ∧
      Sent w.env w'.env [kmMessage w.mem cmd req reqLen] ∧ Leaves w w' := by
  obtain ⟨rc, w', run, sent⟩ := @kmDoTipc_sends cmd fuel req none none reqLen w enough nofun
  refine ⟨rc, w', run, sent, sent.recvs, ?_⟩
  intro c off n
  obtain ⟨w₁, send, recvs, kept⟩ := kmSendRequest_script cmd req reqLen w
  obtain ⟨w₂, read, stored, _⟩ := @kmReadRawResponse_script cmd sizeofKmNoResponse fuel kmRespHeader
    w₁ (by decide) (by decide) (by rw [recvs]; exact enough)
  have first := kept ⟨.caller c, off⟩ n nofun
  have second := stored.frame ⟨.caller c, off⟩ n (by simp) (Or.inl nofun)
  simp only [kmDoTipc, send, read, Option.bind_eq_bind, Option.bind_some] at run
  split at run
  next =>
    obtain ⟨_, rfl⟩ := Prod.mk.inj (Option.some.inj run)
    exact first
  next =>
    split at run
    next =>
      obtain ⟨_, rfl⟩ := Prod.mk.inj (Option.some.inj run)
      exact second.trans first
    next =>
      split at run
      next =>
        obtain ⟨_, rfl⟩ := Prod.mk.inj (Option.some.inj run)
        exact second.trans first
      next =>
        obtain ⟨_, rfl⟩ := Prod.mk.inj (Option.some.inj run)
        exact second.trans first

/-- A request that needs no memory of its own. -/
theorem kmDoTipc_attempt {r : CaRequest} {heap : Nat → Option Nat} {fuel : Nat}
    {req : Option (Ptr Obj)} {reqLen : UInt32} {w : World Script} {m : Mem Obj}
    (enough : w.env.recvs.length < fuel) (picked : r.Allocated heap)
    (message : kmMessage m r.cmd req reqLen = (.km, r.message))
    (caller : ∀ c off n, m.read ⟨.caller c, off⟩ n = w.mem.read ⟨.caller c, off⟩ n) :
    ∃ rc w', kmDoTipc scriptTransport fuel r.cmd req reqLen none none (w.setMem m) =
      some (rc, w') ∧ CaAttempt fuel heap r w rc w' ∧ Leaves w w' := by
  obtain ⟨rc, w', run, sent, leaves⟩ :=
    @kmDoTipc_leaves r.cmd fuel req reqLen (w.setMem m) enough
  change Sent w.env w'.env [kmMessage m r.cmd req reqLen] at sent
  rw [message] at sent
  refine ⟨rc, w', run, .asked req reqLen m picked run sent, leaves.recvs, ?_⟩
  intro c off n
  exact (leaves.caller c off n).trans (caller c off n)

theorem trustySendRawBuffer_attempt {heap : Nat → Option Nat} {fuel c off : Nat} {size : UInt32}
    {w : World Script} (enough : w.env.recvs.length < fuel) (small : 4 + size.toNat < 2 ^ 32) :
    ∃ rc w', trustySendRawBuffer scriptTransport heap fuel kmAtapSetCaResponseUpdate
        (some ⟨.caller c, off⟩) size none none w = some (rc, w') ∧
      CaAttempt fuel heap (.update (w.mem.read ⟨.caller c, off⟩ size.toNat)) w rc w' ∧
      Leaves w w' := by
  have len : (w.mem.read ⟨.caller c, off⟩ size.toNat).length = size.toNat := Mem.read_length _ _ _
  have sum : u32 (usize (4 + size.toNat)) = 4 + size.toNat := by
    rw [usize, Nat.mod_eq_of_lt (by omega), u32, Nat.mod_eq_of_lt small]
  unfold trustySendRawBuffer sendSerialized
  cases picked : heap (4 + size.toNat) with
  | none =>
    have refused : kmRawBufferSerialize heap ⟨size, some ⟨.caller c, off⟩⟩ w.mem =
        ⟨trustyErrNoMemory, none, 4 + size.toNat, 0, none, w.mem⟩ := by
      simp only [kmRawBufferSerialize, serialize, sum, trustyCalloc, picked, Option.map_none]
    rw [refused, if_pos (show trustyErrNoMemory < 0 by decide)]
    refine ⟨_, _, rfl, .noMemory w.mem ?_, le_rfl, fun _ _ _ => rfl⟩
    rw [CaRequest.Allocated, len, picked]
    exact Bool.false_ne_true
  | some k =>
    have ok : (kmRawBufferSerialize heap ⟨size, some ⟨.caller c, off⟩⟩ w.mem).rc =
        trustyErrNone := by
      simp only [kmRawBufferSerialize, serialize, sum, trustyCalloc, picked, Option.map_some]
    have fresh : (KmSerializable.rawBuffer ⟨size, some ⟨.caller c, off⟩⟩).Fresh heap := by
      intro k _ p mem
      rw [List.mem_singleton.mp mem]
      exact Obj.noConfusion
    obtain ⟨k, _, out, outSize, held, kept⟩ :=
      @KmSerializable.serialized_written (.rawBuffer ⟨size, some ⟨.caller c, off⟩⟩) _ w.mem small
        fresh ok
    have total := KmSerializable.encode_length (.rawBuffer ⟨size, some ⟨.caller c, off⟩⟩) w.mem
    have fits : (UInt32.ofNat (4 + size.toNat)).toNat = 4 + size.toNat :=
      UInt32.toNat_ofNat_of_lt small
    rw [total] at outSize held
    change (kmRawBufferSerialize heap ⟨size, some ⟨.caller c, off⟩⟩ w.mem).out = _ at out
    change (kmRawBufferSerialize heap ⟨size, some ⟨.caller c, off⟩⟩ w.mem).outSize = _ at outSize
    rw [if_neg (by rw [ok]; decide), out, outSize]
    refine kmDoTipc_attempt (r := .update (w.mem.read ⟨.caller c, off⟩ size.toNat)) enough ?_
      (kmMessage_some (p := ⟨.heap k, 0⟩) Obj.noConfusion ?_) fun c off n =>
      kept _ n Obj.noConfusion
    · rw [CaRequest.Allocated, len, picked]
      rfl
    · show Mem.read _ _ (UInt32.ofNat (4 + size.toNat)).toNat = _
      rw [fits]
      exact held

/-- The loop makes a request for each piece of what is left, and the one that follows them. -/
theorem caSendLoop_requests {heap : Nat → Nat → Option Nat} {fuel c off : Nat}
    {size bytesSent : UInt32} {w : World Script} (enough : w.env.recvs.length < fuel) :
    ∃ done rc w', caSendLoop scriptTransport heap fuel ⟨.caller c, off⟩ size bytesSent w =
        some (rc, w') ∧
      Attempted (fun i => CaAttempt fuel (heap i)) done w w' ∧
      UntilFailure ((chunks kMaxSendSize (w.mem.read ⟨.caller c, off + bytesSent.toNat⟩
        (size.toNat - bytesSent.toNat))).map .update ++ [.finish]) done rc := by
  have pos : 0 < kMaxSendSize := by decide
  induction left : size.toNat - bytesSent.toNat using Nat.strongRecOn
    generalizing heap bytesSent w with
  | ind n ih =>
    rw [caSendLoop]
    by_cases below : bytesSent < size
    · have more : bytesSent.toNat < size.toNat := below
      have bound := size.toNat_lt
      have sendSize := caSendSize_toNat below
      have sum := caSendSize_add below
      obtain ⟨rc, w₁, run, attempt, leaves⟩ := @trustySendRawBuffer_attempt (heap 0) fuel c
        (off + bytesSent.toNat) (caSendSize size bytesSent) w enough (by omega)
      have first : w.mem.read ⟨.caller c, off + bytesSent.toNat⟩ (caSendSize size bytesSent).toNat =
          (w.mem.read ⟨.caller c, off + bytesSent.toNat⟩ n).take kMaxSendSize := by
        rw [Mem.read_take_min, sendSize, left, kMaxSendSize]
      have some : w.mem.read ⟨.caller c, off + bytesSent.toNat⟩ n ≠ [] := by
        apply List.ne_nil_of_length_pos
        rw [Mem.read_length]
        omega
      rw [first] at attempt
      rw [dif_pos below, chunks_cons pos some, List.map_cons, List.cons_append]
      simp only [Ptr.add, run, Option.bind_eq_bind, Option.bind_some]
      by_cases ok : rc = trustyErrNone
      · rw [if_neg (not_not_intro ok)]
        subst ok
        obtain ⟨done, rc', w₂, rest, attempted, until_⟩ := @ih _ (by omega) (fun i => heap (i + 1))
          (bytesSent + caSendSize size bytesSent) w₁ (leaves.recvs.trans_lt enough) rfl
        have after : w₁.mem.read ⟨.caller c, off + (bytesSent + caSendSize size bytesSent).toNat⟩
            (size.toNat - (bytesSent + caSendSize size bytesSent).toNat) =
            (w.mem.read ⟨.caller c, off + bytesSent.toNat⟩ n).drop kMaxSendSize := by
          rw [leaves.caller, Mem.read_drop_min, sum, left, ← Nat.add_assoc, ← Nat.sub_sub, left]
          rfl
        rw [after] at until_
        exact ⟨_, rc', w₂, rest, .cons attempt attempted, .next until_⟩
      · rw [if_pos ok]
        exact ⟨_, rc, w₁, rfl, .one attempt, .failed ok⟩
    · have none : n = 0 := by
        have above : size.toNat ≤ bytesSent.toNat := Nat.le_of_not_lt below
        omega
      rw [dif_neg below, none, Mem.read_zero, chunks_nil pos, List.map_nil, List.nil_append]
      obtain ⟨rc, w', run, attempt, _⟩ := kmDoTipc_attempt (r := .finish) (m := w.mem) enough
        (show CaRequest.finish.Allocated (heap 0) from trivial) (kmMessage_none _ _ 0)
        fun _ _ _ => rfl
      exact ⟨_, rc, w', run, .one attempt, .one _ rc⟩

/-- Whatever the requests come to, the call ends: it makes them in order and gives up at the first
that fails, with its error. The chunks are the CA response, cut every 4000 bytes, and each of their
messages fits the device. -/
theorem trustyAtapSetCaResponse_uploads (heap : Nat → Nat → Option Nat) (fuel c off : Nat)
    (size : UInt32) (w : World Script) (enough : w.env.recvs.length < fuel) :
    ∃ done rc w', trustyAtapSetCaResponse scriptTransport heap fuel ⟨.caller c, off⟩ size w =
        some (rc, w') ∧
      Attempted (fun i => CaAttempt fuel (heap (i - 1))) done w w' ∧
      done.map Prod.fst <+: caRequests (w.mem.read ⟨.caller c, off⟩ size.toNat) ∧
      (rc = trustyErrNone ↔
        done.map Prod.fst = caRequests (w.mem.read ⟨.caller c, off⟩ size.toNat) ∧
          ∀ d ∈ done, d.2 = trustyErrNone) ∧
      (rc ≠ trustyErrNone → ∃ before r, done = before ++ [(r, rc)] ∧
        ∀ d ∈ before, d.2 = trustyErrNone) ∧
      (chunks kMaxSendSize (w.mem.read ⟨.caller c, off⟩ size.toNat)).flatten =
        w.mem.read ⟨.caller c, off⟩ size.toNat ∧
      (chunks kMaxSendSize (w.mem.read ⟨.caller c, off⟩ size.toNat)).length =
        (size.toNat + 3999) / 4000 ∧
      ∀ chunk ∈ chunks kMaxSendSize (w.mem.read ⟨.caller c, off⟩ size.toNat),
        chunk ≠ [] ∧ chunk.length ≤ 4000 ∧ (CaRequest.update chunk).message.length ≤ 4080 := by
  have pos : 0 < kMaxSendSize := by decide
  have len := Mem.read_length w.mem ⟨.caller c, off⟩ size.toNat
  obtain ⟨done, rc, w', run, attempted, until_⟩ : ∃ done rc w',
      trustyAtapSetCaResponse scriptTransport heap fuel ⟨.caller c, off⟩ size w = some (rc, w') ∧
      Attempted (fun i => CaAttempt fuel (heap (i - 1))) done w w' ∧
      UntilFailure (caRequests (w.mem.read ⟨.caller c, off⟩ size.toNat)) done rc := by
    have message : kmMessage (w.mem.store kmBeginReq 4 size.toNat) kmAtapSetCaResponseBegin
        (some kmBeginReq) 4 = (.km, (CaRequest.begin size.toNat).message) := by
      have stored := Mem.read_write_self w.mem kmBeginReq (leBytes 4 size.toNat)
      rw [leBytes_length] at stored
      exact kmMessage_some nofun stored
    have caller : ∀ c off n, (w.mem.store kmBeginReq 4 size.toNat).read ⟨.caller c, off⟩ n =
        w.mem.read ⟨.caller c, off⟩ n := fun _ _ _ => Mem.read_write_apart w.mem (Or.inl nofun)
    obtain ⟨rc, w₁, run, attempt, leaves⟩ := kmDoTipc_attempt (r := .begin size.toNat) enough
      (show (CaRequest.begin size.toNat).Allocated (heap 0) from trivial) message caller
    rw [caRequests, len]
    unfold trustyAtapSetCaResponse
    change kmDoTipc scriptTransport fuel kmAtapSetCaResponseBegin _ _ _ _ _ = _ at run
    simp only [run, Option.bind_eq_bind, Option.bind_some]
    by_cases ok : rc = trustyErrNone
    · rw [if_neg (not_not_intro ok)]
      subst ok
      obtain ⟨done, rc', w₂, rest, attempted, until_⟩ := @caSendLoop_requests heap fuel c off size 0
        w₁ (leaves.recvs.trans_lt enough)
      have zero : (0 : UInt32).toNat = 0 := rfl
      rw [leaves.caller, zero, Nat.add_zero, Nat.sub_zero] at until_
      exact ⟨_, rc', w₂, rest, .cons attempt attempted, .next until_⟩
    · rw [if_pos ok]
      exact ⟨_, rc, w₁, rfl, .one attempt, .failed ok⟩
  have count := chunks_length kMaxSendSize (w.mem.read ⟨.caller c, off⟩ size.toNat)
  rw [len] at count
  refine ⟨done, rc, w', run, attempted, until_.isPrefix, until_.success_iff, until_.failure,
    chunks_flatten pos _, count, ?_⟩
  intro chunk mem
  obtain ⟨some, short⟩ := chunks_mem pos mem
  have bound : chunk.length ≤ 4000 := short
  refine ⟨some, bound, ?_⟩
  simp only [CaRequest.message, CaRequest.payload, Codec.sized, List.length_append, leBytes_length]
  omega

/-- Two bytes of 7, and every request is answered with `KM_ERROR_OK`. -/
def twoSevens : World Script where
  mem := ⟨fun _ _ => 7, []⟩
  chans := fun _ => ⟨1, 0, .sync⟩
  initialized := fun _ => true
  env := ⟨[], [], [kmAtapSetCaResponseBegin, kmAtapSetCaResponseUpdate,
    kmAtapSetCaResponseFinish].map fun cmd => .frame ⟨leBytes 4 (cmd + 3) ++ [0, 0, 0, 0],
      by rw [List.length_append, leBytes_length]; decide⟩, [], []⟩

theorem twoSevens_uploaded : ∃ (done : List (CaRequest × Int)) (rc : Int) (w' : World Script),
    trustyAtapSetCaResponse scriptTransport (fun _ _ => some 0) 4 ⟨.caller 0, 0⟩ 2 twoSevens =
      some (rc, w') ∧
    done.map Prod.fst <+: [.begin 2, .update [7, 7], .finish] ∧
    (rc = trustyErrNone ↔ done.map Prod.fst = [.begin 2, .update [7, 7], .finish] ∧
      ∀ d ∈ done, d.2 = trustyErrNone) := by
  obtain ⟨done, rc, w', run, _, inOrder, success, _⟩ :=
    trustyAtapSetCaResponse_uploads (fun _ _ => some 0) 4 0 0 2 twoSevens (by decide)
  exact ⟨done, rc, w', run, inOrder, success⟩

end ExternalTrusty
