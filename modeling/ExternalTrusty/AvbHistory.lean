import ExternalTrusty.AvbRemote

namespace ExternalTrusty

open CMemory

variable {ε σ : Type}

theorem header_loads {m : Mem Obj} {bs : List UInt8} (header : m.read avbMsg 8 = bs.take 8) :
    m.load avbMsg 4 = leNat (bs.take 4) ∧ m.load avbMsgResult 4 = leNat ((bs.drop 4).take 4) := by
  constructor
  · rw [Mem.load, ← Mem.read_take m avbMsg (by omega : 4 ≤ 8), header, List.take_take]
    rfl
  · have second : m.read avbMsgResult 4 = (m.read avbMsg 8).drop 4 :=
      (Mem.read_drop m avbMsg (by omega : 4 ≤ 8)).symm
    rw [Mem.load, second, header, List.drop_take]

/-- The header of a response, whether or not there is a buffer for a payload. -/
theorem header_delivered {m : Mem Obj} {resp : Option (Ptr Obj)} {n : UInt32} {bs : List UInt8}
    (apart : ∀ p ∈ resp, p.block ≠ .avbMsg) (full : 8 ≤ bs.length) :
    let m' := scatter m (segs (twoIovs avbMsg 8 resp n.toUInt64)) bs
    m'.load avbMsg 4 = leNat (bs.take 4) ∧
      m'.load avbMsgResult 4 = leNat ((bs.drop 4).take 4) := by
  cases resp with
  | some p => exact avbHeader_scatter (apart p rfl) full
  | none =>
    have alone : SegsApart ([] ++ (⟨avbMsg, 8⟩ : Seg Obj) :: []) := List.pairwise_singleton ..
    have header := read_scatter_seg alone m bs
    rw [overlay_full (by simp; omega)] at header
    exact header_loads header

/-- The end of an exchange stores the size of the payload, and nothing else. -/
theorem avbFinish_stored {respSizeP : Option (Ptr Obj)} (size : ∀ p ∈ respSizeP, p = avbRespSize)
    {n : Nat} (small : n < 2 ^ 31) (w : World ε) :
    ∃ m, avbFinish respSizeP n w =
      (if w.mem.load avbMsgResult 4 ≠ avbErrorNone then trustyErrGeneric else trustyErrNone,
        w.setMem m) ∧
      (∀ q k, q.block ≠ .avbRespSize → m.read q k = w.mem.read q k) ∧
      ∀ p ∈ respSizeP, m.load p 4 = n := by
  have whole : ((n : Int) % 2 ^ 32).toNat = n := by omega
  have pick : ∀ w' : World ε, (if w'.mem.load avbMsgResult 4 ≠ avbErrorNone then
      (trustyErrGeneric, w') else (trustyErrNone, w')) =
      (if w'.mem.load avbMsgResult 4 ≠ avbErrorNone then trustyErrGeneric else trustyErrNone,
        w') := by
    intro w'
    split
    next => rfl
    next => rfl
  cases respSizeP with
  | none => exact ⟨w.mem, pick w, fun _ _ _ => rfl, nofun⟩
  | some p =>
    obtain rfl := size p rfl
    have only : ∀ p ∈ some avbRespSize, p = avbRespSize := size
    simp only [avbFinish, whole]
    split
    next =>
      have apart : ∀ q k, q.block ≠ .avbRespSize →
          (w.mem.store avbRespSize 4 n).read q k = w.mem.read q k := fun q k hq =>
        Mem.read_write_apart _ (Or.inl (Ne.symm hq))
      refine ⟨w.mem.store avbRespSize 4 n, ?_, apart, ?_⟩
      · rw [pick]
        have result : (w.setMem (w.mem.store avbRespSize 4 n)).mem.load avbMsgResult 4 =
            w.mem.load avbMsgResult 4 := congrArg leNat (apart avbMsgResult 4 (by decide))
        rw [result]
      · intro p mem
        obtain rfl := only p mem
        exact Mem.load_store_self _ _ (by omega)
    next same =>
      refine ⟨w.mem, pick w, fun _ _ _ => rfl, ?_⟩
      intro p mem
      obtain rfl := only p mem
      exact (not_not.mp same).symm

/-- The return code of an exchange. -/
def AvbRequest.Reply.code {r : AvbRequest} (reply : r.Reply) : Int :=
  if reply.result ≠ avbErrorNone then trustyErrGeneric else trustyErrNone

/-- What an exchange leaves behind: its buffer holds the payload, and the size is its length. -/
def AvbRequest.Reply.Left {r : AvbRequest} (reply : r.Reply) (resp : Option (Ptr Obj))
    (m : Mem Obj) : Prop :=
  ∀ p ∈ resp, m.read p reply.bytes.length = reply.bytes ∧
    m.load avbRespSize 4 = reply.bytes.length

section Exchange

variable {s : Surroundings ε} {sv : Service s} {on : Component → Prop}
  {handles : Component → UInt32} {target : Target} {wait fuel : Nat} {w w' : World ε} {rc : Int}

/-- The room that a call offers for a payload. -/
def respRoom (m : Mem Obj) (resp : Option (Ptr Obj)) : UInt32 :=
  ((resp.map fun _ => avbRespSize).map fun p => UInt32.ofNat (m.load p 4)).getD 0

theorem respRoom_congr {m m' : Mem Obj} (same : m'.bytes .avbRespSize = m.bytes .avbRespSize)
    (resp : Option (Ptr Obj)) : respRoom m' resp = respRoom m resp := by
  cases resp with
  | none => rfl
  | some p => exact congrArg UInt32.ofNat (load_spared same 4)

theorem total_respRoom (m : Mem Obj) (resp : Option (Ptr Obj)) :
    total (segs (twoIovs avbMsg 8 resp (respRoom m resp).toUInt64)) =
      8 + (respRoom m resp).toNat := by
  cases resp with
  | none => rfl
  | some p => simp [twoIovs]

/-- A receive that is not disturbed takes in the whole reply. -/
theorem avbReadResponse_reply (hc : on .avb) (client : sv.clients (handles .avb))
    (h : Connected on handles w) {r : AvbRequest} {reply : r.Reply} {k : Nat}
    (waiting : (sv.box (handles .avb) w).waiting = [(k, reply.frame)]) {resp : Option (Ptr Obj)}
    (apart : ∀ p ∈ resp, p.block ≠ .avbMsg) (room : (respRoom w.mem resp).toNat = r.room)
    (run : avbReadResponse (ipcTransport s.dev (s.ops target) wait) avbMsg r.cmd resp
      (respRoom w.mem resp) w = some (rc, w')) :
    ∃ calls new, Reading sv on handles .avb w w' calls new ∧
      (rc < 0 ∧ ¬Calm .avb (handles .avb) calls ∨
        (sv.box (handles .avb) w').waiting = [] ∧ rc = reply.bytes.length ∧
          w'.mem.load avbMsgResult 4 = reply.result ∧
          ∀ p ∈ resp, w'.mem.read p reply.bytes.length = reply.bytes) := by
  obtain ⟨⟨rc₀, w₀⟩, received, run⟩ := Option.bind_eq_some_iff.mp run
  obtain ⟨calls, new, reading, ⟨negative, disturbed⟩ | ⟨x, m, rfl, delivered⟩⟩ :=
    trustyIpcRecv_meanwhile hc client h received
  · simp only [if_pos negative] at run
    cases run
    exact ⟨calls, new, reading, Or.inl ⟨negative, disturbed⟩⟩
  have took := reading.took.waiting
  rw [waiting] at took
  obtain ⟨rfl, left⟩ := List.cons.inj took
  have len := reply.frame_length
  have short := reply.bytes_length
  have most := r.room_le
  have fits : ¬total (segs (twoIovs avbMsg 8 resp (respRoom w.mem resp).toUInt64)) <
      reply.frame.bytes.length := by
    rw [total_respRoom, room, len]
    omega
  have code : rc₀ = if total (segs (twoIovs avbMsg 8 resp (respRoom w.mem resp).toUInt64)) <
      reply.frame.bytes.length then trustyErrMsgTooBig else toInt reply.frame.bytes.length :=
    congrArg Prod.fst delivered
  have got : rc₀ = reply.frame.bytes.length :=
    code.trans ((if_neg fits).trans (toInt_of_lt (by omega)))
  have scattered : w₀.mem = scatter m (segs (twoIovs avbMsg 8 resp
      (respRoom w.mem resp).toUInt64)) reply.frame.bytes := congrArg Prod.snd delivered
  obtain ⟨cmd, result⟩ := @header_delivered m resp (respRoom w.mem resp) reply.frame.bytes apart
    (by omega)
  rw [← scattered] at cmd result
  have bad : ¬w₀.mem.load avbMsg 4 ≠ r.cmd ||| avbRespBit := not_not_intro (cmd.trans reply.frame_cmd)
  have payload := @payloadLen_full reply.frame.bytes.length (by omega) (by omega)
  subst got
  simp only [if_neg (by omega : ¬(reply.frame.bytes.length : Int) < 0), if_neg bad, payload] at run
  obtain ⟨rfl, rfl⟩ := Prod.mk.inj (Option.some.inj run)
  refine ⟨calls, _, reading, Or.inr ⟨left.symm, by omega, result.trans reply.frame_result, ?_⟩⟩
  intro p mem
  have body := @avbPayload_scatter m p (respRoom w.mem resp) reply.frame.bytes (apart p mem)
  obtain rfl : resp = some p := mem
  rw [← scattered, reply.frame_payload, room, List.take_of_length_le short] at body
  rw [← Mem.read_take _ _ short, body, overlay, List.take_left]

/-- An exchange that is not disturbed takes in the whole reply. -/
theorem avbRead_reply (hc : on .avb) (client : sv.clients (handles .avb))
    (h : Connected on handles w) {r : AvbRequest} {reply : r.Reply} {k : Nat}
    (waiting : (sv.box (handles .avb) w).waiting = [(k, reply.frame)])
    {req resp : Option (Ptr Obj)} {reqSize : UInt32}
    (apart : ∀ p ∈ resp, p.block ≠ .avbMsg ∧ p.block ≠ .avbRespSize)
    (room : (respRoom w.mem resp).toNat = r.room)
    (run : ClientCall.read (ipcTransport s.dev (s.ops target) wait) fuel
      (.avbDoTipc r.cmd req reqSize resp (resp.map fun _ => avbRespSize)) w = some (rc, w')) :
    ∃ calls, Meanwhile s on handles (fun d => d ≠ .avb) w w' calls ∧
      requests (handles .avb) (s.log w'.env) = requests (handles .avb) (s.log w.env) ∧
      (Calm .avb (handles .avb) calls → (sv.box (handles .avb) w').waiting = [] ∧
        rc = reply.code ∧ reply.Left resp w'.mem) := by
  obtain ⟨⟨rc₁, w₁⟩, response, run⟩ := Option.bind_eq_some_iff.mp run
  obtain ⟨calls, new, reading, ⟨negative, disturbed⟩ | ⟨left, rfl, result, body⟩⟩ :=
    avbReadResponse_reply hc client h waiting (fun p mem => (apart p mem).1) room response
  · simp only [if_pos negative] at run
    cases run
    exact ⟨calls, reading.meanwhile, reading.requests, fun calm => absurd calm disturbed⟩
  have short := reply.bytes_length
  have most := r.room_le
  have size : ∀ p ∈ resp.map fun _ => avbRespSize, p = avbRespSize := by
    intro p mem
    obtain ⟨_, _, rfl⟩ := Option.mem_map.mp mem
    rfl
  obtain ⟨m, finished, elsewhere, stored⟩ := avbFinish_stored size
    (by omega : reply.bytes.length < 2 ^ 31) w₁
  simp only [if_neg (by omega : ¬(reply.bytes.length : Int) < 0), finished, result] at run
  obtain ⟨rfl, rfl⟩ := Prod.mk.inj (Option.some.inj run)
  have after := reading.setMem m
  refine ⟨calls, after.meanwhile, after.requests, fun _ => ⟨left, rfl, ?_⟩⟩
  intro p mem
  refine ⟨?_, stored _ (Option.mem_map.mpr ⟨p, mem, rfl⟩)⟩
  exact (elsewhere p _ (apart p mem).2).trans (body p mem)

end Exchange

/-- The requests that the service has taken, as it reads them. -/
def taken (h : UInt32) (log : List OsCall) : List AvbRequest :=
  (requests h log).filterMap AvbRequest.parse

/-- The service at this handle is the object: it answers each request with one message. -/
structure Service.Serves {s : Surroundings ε} (sv : Service s)
    (obj : Remote.Object AvbRequest AvbRequest.Reply σ) (h : UInt32) : Prop where
  client : sv.clients h
  answers : ∀ log rc msg r, 0 ≤ rc → AvbRequest.parse msg = some r →
    sv.answer (log ++ [.send h rc msg]) = [(obj.answer (taken h log) r).frame]

namespace AvbCall

theorem resp_apart (c : AvbCall) (placed : c.Placed) :
    ∀ p ∈ c.resp, p.block ≠ .avbMsg ∧ p.block ≠ .avbRespSize := by
  have own : ∀ p ∈ some avbResp, p.block ≠ .avbMsg ∧ p.block ≠ .avbRespSize := by
    rintro p ⟨⟩
    decide
  cases c with
  | readRollbackIndex => exact own
  | writeRollbackIndex => exact own
  | readPermanentAttributes => exact own
  | readLockState lockState =>
    rintro p ⟨⟩
    obtain ⟨n, caller⟩ := placed
    rw [caller]
    exact ⟨nofun, nofun⟩
  | _ => exact nofun

/-- A call offers the room that its answer needs. -/
theorem start_room (c : AvbCall) (w : World ε) :
    (respRoom (c.start w).mem c.resp).toNat = (c.ask w.mem).request.room := by
  have stored : ∀ (m : Mem Obj) (n : Nat), n < 256 ^ 4 →
      (UInt32.ofNat ((m.store avbRespSize 4 n).load avbRespSize 4)).toNat = n := by
    intro m n small
    rw [Mem.load_store_self _ _ small, UInt32.toNat_ofNat', Nat.mod_eq_of_lt (by omega)]
  cases c with
  | readRollbackIndex slot value => exact stored _ 8 (by decide)
  | writeRollbackIndex slot value => exact stored _ 8 (by decide)
  | readPermanentAttributes attributes size => exact stored _ avbMaxBufferLength (by decide)
  | readLockState lockState => exact stored _ 1 (by decide)
  | _ => rfl

theorem refused_code {r : AvbRequest} (error : UInt32) (nonzero : error ≠ 0) :
    (AvbRequest.Reply.refused (r := r) error nonzero).code = trustyErrGeneric := by
  refine if_pos fun zero => nonzero ?_
  exact UInt32.toNat_inj.mp zero

/-- What the caller of a call makes of a reply that has been taken in. -/
theorem finish_outcome (c : AvbCall) (m : Mem Obj) (reply : (c.ask m).request.Reply) (w : World ε)
    (left : reply.Left c.resp w.mem) :
    c.outcome (c.finish (reply.code, w)).1 (c.finish (reply.code, w)).2.mem =
      (c.ask m).outcome reply := by
  cases reply with
  | refused error nonzero =>
    have code := @refused_code (c.ask m).request error nonzero
    have negative : trustyErrGeneric < 0 := by decide
    rw [code, c.finish_negative negative, outcome, if_pos (by decide)]
    cases c
    all_goals rfl
  | granted answer =>
    have code : (AvbRequest.Reply.granted answer).code = trustyErrNone := if_neg (not_not_intro rfl)
    rw [code]
    cases c with
    | readRollbackIndex slot value =>
      have size : (leBytes 8 (answer : UInt64).toNat).length = 8 := leBytes_length ..
      obtain ⟨body, _⟩ := left avbResp rfl
      have stored := Mem.read_store_load w.mem value avbResp 8
      have read : w.mem.read avbResp 8 = leBytes 8 (answer : UInt64).toNat := by
        rw [← size]
        exact body
      exact congrArg Except.ok (stored.trans read)
    | readPermanentAttributes attributes size =>
      have succeeded : ¬trustyErrNone ≠ 0 := by decide
      obtain ⟨body, len⟩ := left avbResp rfl
      change w.mem.read avbResp answer.1.length = answer.1 at body
      change w.mem.load avbRespSize 4 = answer.1.length at len
      by_cases same : size.toNat = answer.1.length
      · have fits : ¬size.toNat ≠ w.mem.load avbRespSize 4 := not_not_intro (same.trans len.symm)
        have copied := Mem.read_write_self w.mem attributes answer.1
        rw [← same] at copied
        rw [finish, if_neg succeeded, if_neg fits, len, body]
        exact (congrArg Except.ok copied).trans (if_pos same).symm
      · have differs : size.toNat ≠ w.mem.load avbRespSize 4 := by rwa [len]
        rw [finish, if_neg succeeded, if_pos differs]
        exact (if_neg same).symm
    | readLockState lockState =>
      obtain ⟨body, _⟩ := left lockState rfl
      exact congrArg Except.ok body
    | _ => rfl

variable {s : Surroundings ε} {sv : Service s} {on : Component → Prop}
  {handles : Component → UInt32} {target : Target} {wait fuel : Nat} {w w' : World ε} {rc : Int}

/-- Nothing disturbs the wait for the answer, once the call's request is sent. -/
def Undisturbed (c : AvbCall) (s : Surroundings ε) (target : Target)
    (handles : Component → UInt32) (wait : Nat) (w w' : World ε) : Prop :=
  ∀ rc w₁, (c.tipc (c.ask w.mem).request.cmd).ask (ipcTransport s.dev (s.ops target) wait)
    (c.start w) = some (rc, w₁) → 0 ≤ rc → Calm .avb (handles .avb) (s.callsSince w₁ w')

/-- The message of a call goes out once, if at all, and is read as the call's request. -/
theorem ask_delivers (sv : Service s) (c : AvbCall) (placed : c.Placed)
    (spares : ∀ b, s.Spares b) (hc : on .avb) (h : Connected on handles w)
    (run : (c.tipc (c.ask w.mem).request.cmd).ask (ipcTransport s.dev (s.ops target) wait)
      (c.start w) = some (rc, w')) :
    ∃ calls, Meanwhile s on handles (fun d => d ≠ .avb) w w' calls ∧
      (respRoom w'.mem c.resp).toNat = (c.ask w.mem).request.room ∧
      (rc < 0 ∧ requests (handles .avb) (s.log w'.env) = requests (handles .avb) (s.log w.env) ∧
          sv.box (handles .avb) w' = sv.box (handles .avb) w ∨
        0 ≤ rc ∧ sv.Delivered (handles .avb) w w' (c.ask w.mem).request.message) := by
  have payload := c.payload_bytes w
  have offered := c.start_room w
  obtain ⟨m₀, started⟩ := c.start_mem w
  rw [started] at payload offered run
  have header : ((m₀.store avbMsg 4 (c.ask w.mem).request.cmd).store avbMsgResult 4 0).bytes
      .avbRespSize = m₀.bytes .avbRespSize :=
    (store_spares (by decide) 4 0).trans (store_spares (by decide) 4 _)
  have room : ∀ {m : Mem Obj}, m.bytes .avbRespSize = m₀.bytes .avbRespSize →
      (respRoom m c.resp).toNat = (c.ask w.mem).request.room := fun same => by
    rw [respRoom_congr same]
    exact offered
  simp only [tipc, ClientCall.ask] at run
  split at run
  next =>
    cases run
    have generic : trustyErrGeneric < 0 := by decide
    have quiet := (h.setMem m₀).setMem
      ((m₀.store avbMsg 4 (c.ask w.mem).request.cmd).store avbMsgResult 4 0)
    have off : ∀ d, on d → d ≠ .avb → ∀ x ∈ ([] : List OsCall), ¬x.On (handles d) :=
      fun _ _ _ _ mem => absurd mem List.not_mem_nil
    exact ⟨[], ⟨(List.append_nil _).symm, quiet, off⟩, room header, Or.inl ⟨generic, rfl, rfl⟩⟩
  next =>
    obtain ⟨calls, while₁, outcome⟩ := trustyIpcSend_delivers sv hc ((h.setMem m₀).setMem _)
      (fun v mem => ⟨spares _, c.iovs_plain placed v mem⟩) run
    have message := @message_gather m₀ (c.ask w.mem).request.cmd _ c.reqSize (c.req_apart placed)
    rw [show bytesAt m₀ c.req c.reqSize = _ from payload] at message
    have kept := (spares .avbRespSize).trustyIpcSend (by simp [ProxyObj]) run
    refine ⟨calls, ⟨while₁.log, while₁.connected, while₁.off⟩, room (kept.trans header), ?_⟩
    refine outcome.imp_right ?_
    rintro ⟨positive, delivered⟩
    refine ⟨positive, ?_⟩
    have delivered' : sv.Delivered (handles .avb) _ w'
      (gather ((m₀.store avbMsg 4 _).store avbMsgResult 4 0) (segs _)) := delivered
    rw [message] at delivered'
    exact ⟨delivered'.requests, delivered'.box⟩

/-- An undisturbed call on an idle channel is a request that the object takes, or one that it never
gets to see. -/
theorem remote {obj : Remote.Object AvbRequest AvbRequest.Reply σ}
    (serves : sv.Serves obj (handles .avb)) (spares : ∀ b, s.Spares b) (hc : on .avb)
    (idle : Idle sv on handles w) {c : AvbCall} (placed : c.Placed)
    (run : c.run (ipcTransport s.dev (s.ops target) wait) w = some (rc, w'))
    (calm : c.Undisturbed s target handles wait w w') :
    Idle sv on handles w' ∧
      (rc < 0 ∧ taken (handles .avb) (s.log w'.env) = taken (handles .avb) (s.log w.env) ∨
        taken (handles .avb) (s.log w'.env) =
            taken (handles .avb) (s.log w.env) ++ [(c.ask w.mem).request] ∧
          c.outcome rc w'.mem = (c.ask w.mem).outcome
            (obj.answer (taken (handles .avb) (s.log w.env)) (c.ask w.mem).request)) := by
  rw [c.run_eq _ 0] at run
  obtain ⟨⟨rc₂, w₂⟩, exchanged, finished⟩ := Option.map_eq_some_iff.mp run
  obtain ⟨m₂, mem₂⟩ := c.finish_mem (rc₂, w₂)
  rw [finished] at mem₂
  simp only at mem₂
  subst mem₂
  rw [ClientCall.run_eq] at exchanged
  obtain ⟨⟨rc₁, w₁⟩, asked, exchanged⟩ := Option.bind_eq_some_iff.mp exchanged
  obtain ⟨calls₁, while₁, room, outcome⟩ := c.ask_delivers sv placed spares hc idle.connected asked
  -- the other channels are left alone all along
  have others : ∀ {w₃ calls}, Meanwhile s on handles (fun d => d ≠ .avb) w w₃ calls →
      (sv.box (handles .avb) w₃).waiting = [] → Idle sv on handles w₃ := by
    intro w₃ calls while₃ empty
    refine ⟨while₃.connected, idle.clients, fun d hd => ?_⟩
    by_cases same : d = .avb
    · rw [same]
      exact empty
    · rw [while₃.box sv hd same]
      exact idle.waiting d hd
  simp only at exchanged
  split at exchanged
  next negative =>
    obtain ⟨rfl, rfl⟩ := Prod.mk.inj (Option.some.inj exchanged)
    have code : (c.finish (rc₁, w₁)).1 = rc₁ := c.finish_negative negative w₁
    rw [finished] at code
    obtain rfl : rc = rc₁ := code
    rcases outcome with ⟨_, same, box⟩ | ⟨positive, _⟩
    · have empty : (sv.box (handles .avb) w₁).waiting = [] := by
        rw [box]
        exact idle.waiting _ hc
      refine ⟨(others while₁ empty).setMem m₂, Or.inl ⟨negative, ?_⟩⟩
      exact congrArg (List.filterMap AvbRequest.parse) same
    · exact absurd negative (not_lt.mpr positive)
  next positive =>
    rcases outcome with ⟨negative, _⟩ | ⟨_, delivered⟩
    · exact absurd negative positive
    obtain ⟨log, r, took, before, box⟩ := delivered.box
    have parsed := AvbRequest.parse_message (c.ask w.mem).request
    have same : taken (handles .avb) log = taken (handles .avb) (s.log w.env) :=
      congrArg (List.filterMap AvbRequest.parse) before
    rw [serves.answers log r _ _ took parsed, same, Mailbox.ask, idle.waiting _ hc] at box
    have waiting : (sv.box (handles .avb) w₁).waiting = [((sv.box (handles .avb) w).asked,
        (obj.answer (taken (handles .avb) (s.log w.env)) (c.ask w.mem).request).frame)] := by
      rw [box]
      rfl
    obtain ⟨calls₂, while₂, still, reply⟩ := avbRead_reply hc serves.client while₁.connected waiting
      (c.resp_apart placed) room exchanged
    have quiet : Calm .avb (handles .avb) calls₂ := by
      have calm₂ := calm rc₁ w₁ asked (not_lt.mp positive)
      rwa [s.callsSince_eq (show s.log (w₂.setMem m₂).env = _ from while₂.log)] at calm₂
    obtain ⟨empty, rfl, left⟩ := reply quiet
    have outcome := c.finish_outcome w.mem _ w₂ left
    rw [finished] at outcome
    refine ⟨(others (while₁.trans while₂) empty).setMem m₂, Or.inr ⟨?_, outcome⟩⟩
    show taken (handles .avb) (s.log w₂.env) = _
    rw [taken, still, delivered.requests, List.filterMap_append]
    exact congrArg _ (congrArg Option.toList parsed)

end AvbCall

section Sessions

variable {s : Surroundings ε} {sv : Service s} {on : Component → Prop}
  {handles : Component → UInt32} {target : Target} {start w : World ε}
  {history : List (AvbAsk × AvbOutcome)}

/-- Calls of the AVB client with their outcomes, and between them calls of the other clients, polls
and the program's own stores. -/
inductive AvbSession (sv : Service s) (target : Target) (on : Component → Prop)
    (handles : Component → UInt32) (start : World ε) :
    World ε → List (AvbAsk × AvbOutcome) → Prop
  | here : AvbSession sv target on handles start start []
  | stores {w : World ε} {history : List (AvbAsk × AvbOutcome)}
    (before : AvbSession sv target on handles start w history) (m : Mem Obj) :
    AvbSession sv target on handles start (w.setMem m) history
  | poll {w w' : World ε} {history : List (AvbAsk × AvbOutcome)} {rc : Int}
    (before : AvbSession sv target on handles start w history)
    (run : trustyIpcPollForEvent s.dev (s.ops target) w = some (rc, w')) :
    AvbSession sv target on handles start w' history
  | other {w w' : World ε} {history : List (AvbAsk × AvbOutcome)} {rc : Int} {call : ClientCall}
    {wait fuel : Nat} (before : AvbSession sv target on handles start w history)
    (hc : on call.chan) (apart : call.chan ≠ .avb)
    (run : call.run (ipcTransport s.dev (s.ops target) wait) fuel w = some (rc, w'))
    (fine : sv.Fine target handles wait call w w') :
    AvbSession sv target on handles start w' history
  | call {w w' : World ε} {history : List (AvbAsk × AvbOutcome)} {rc : Int} {c : AvbCall}
    {wait : Nat} (before : AvbSession sv target on handles start w history) (placed : c.Placed)
    (run : c.run (ipcTransport s.dev (s.ops target) wait) w = some (rc, w'))
    (calm : c.Undisturbed s target handles wait w w') :
    AvbSession sv target on handles start w' (history ++ [(c.ask w.mem, c.outcome rc w'.mem)])

theorem AvbSession.explained {obj : Remote.Object AvbRequest AvbRequest.Reply σ}
    (serves : sv.Serves obj (handles .avb)) (spares : ∀ b, s.Spares b) (hc : on .avb)
    (idle : Idle sv on handles start)
    (session : AvbSession sv target on handles start w history) :
    Idle sv on handles w ∧ obj.Explains avbStub (taken (handles .avb) (s.log start.env)) history
      (taken (handles .avb) (s.log w.env)) := by
  induction session with
  | here => exact ⟨idle, .nil⟩
  | stores before m ih => exact ⟨ih.1.setMem m, ih.2⟩
  | poll before run ih =>
    obtain ⟨calls, while₁, _⟩ := ih.1.connected.poll (s.poll_done run)
    refine ⟨ih.1.poll run, ?_⟩
    rw [taken, taken, while₁.requests hc trivial]
    exact ih.2
  | other before hc' apart run fine ih =>
    obtain ⟨calls, while₁⟩ := ih.1.run_meanwhile hc' run
    refine ⟨(ih.1.run hc' run).2 fine, ?_⟩
    rw [taken, taken, while₁.requests hc apart.symm]
    exact ih.2
  | call before placed run calm ih =>
    obtain ⟨idle', ⟨negative, same⟩ | ⟨more, outcome⟩⟩ :=
      AvbCall.remote serves spares hc ih.1 placed run calm
    · refine ⟨idle', ?_⟩
      rw [same]
      exact ih.2.refused ⟨_, negative, if_pos (by omega)⟩
    · refine ⟨idle', ?_⟩
      rw [more, outcome]
      exact ih.2.taken _

/-- However its calls are mixed with polls, with the storage proxy's work and with the calls of
other clients, the AVB client behaves as if each call were made on the service itself: every request
is taken at most once and in order, and each call returns what the service answers to it, or failed
without its request being taken. -/
theorem avbSession_remote {obj : Remote.Object AvbRequest AvbRequest.Reply σ}
    (serves : sv.Serves obj (handles .avb)) (spares : ∀ b, s.Spares b) (hc : on .avb)
    (idle : Idle sv on handles start)
    (session : AvbSession sv target on handles start w history) :
    ∃ done, taken (handles .avb) (s.log w.env) = taken (handles .avb) (s.log start.env) ++ done ∧
      done.Sublist (history.map fun call => call.1.request) ∧
      obj.Explains avbStub (taken (handles .avb) (s.log start.env)) history
        (taken (handles .avb) (s.log start.env) ++ done) := by
  have explained := (session.explained serves spares hc idle).2
  obtain ⟨done, more, sub⟩ := explained.sublist
  rw [more] at explained
  exact ⟨done, more, sub, explained⟩

end Sessions

/-- A service that keeps rollback indices, and refuses the rest. -/
def rollbackStore : Remote.Object AvbRequest AvbRequest.Reply (UInt32 → UInt64) where
  init _ := 0
  step indices
    | .readRollbackIndex slot => (.granted (indices slot), indices)
    | .writeRollbackIndex slot value => (.granted value, Function.update indices slot value)
    | _ => (.refused 1 (by decide), indices)

def storeAnswer (log : List OsCall) : List Frame :=
  match log.getLast? with
  | some (.send _ _ msg) =>
    match AvbRequest.parse msg with
    | some r => [(rollbackStore.answer (taken 5 log.dropLast) r).frame]
    | none => []
  | _ => []

theorem storeAnswer_serves : (mailService storeAnswer).Serves rollbackStore 5 where
  client := trivial
  answers log rc msg r _ parsed := by
    show storeAnswer (log ++ [.send 5 rc msg]) = _
    simp only [storeAnswer, List.getLast?_concat, List.dropLast_concat, parsed]

instance (c : Component) (h : UInt32) : DecidablePred (OsCall.Disturbs c h) := fun x =>
  match x with
  | .event (.error rc) => inferInstanceAs (Decidable (rc < 0))
  | .event (.ok e) => inferInstanceAs (Decidable (e.Has ipcHandlePollError ∨
      chanOfCookie e.cookie = some c ∧ (¬e.Has ipcHandlePollError ∧ ¬e.Has ipcHandlePollMsg ∧
        e.Has ipcHandlePollHup) ∧ ¬e.Has ipcHandlePollReady))
  | .send k rc _ => inferInstanceAs (Decidable (k ≠ h ∧ rc < 0))
  | .recv k rc =>
    if same : k = h then decidable_of_iff (¬Received rc) (by rw [OsCall.Disturbs, if_pos same])
    else decidable_of_iff (rc < sizeofStorageMsg) (by rw [OsCall.Disturbs, if_neg same])
  | .connect _ _ => inferInstanceAs (Decidable False)
  | .close _ => inferInstanceAs (Decidable False)

instance (c : Component) (h : UInt32) (calls : List OsCall) : Decidable (Calm c h calls) :=
  inferInstanceAs (Decidable (∀ x ∈ calls, _))

/-- How the AVB client's channel is used with this service. -/
abbrev storeTransport : Transport DevScript :=
  ipcTransport (mailSurroundings storeAnswer).dev ((mailSurroundings storeAnswer).ops .bits64) 2

/-- A call, with the world in which its request was sent, when that went well and nothing disturbed
it. -/
def AvbCall.tried (c : AvbCall) (w : World DevScript) : Option (Int × World DevScript) := do
  let (rc, w₁) ← (c.tipc (c.ask w.mem).request.cmd).ask storeTransport (c.start w)
  let (rc', w') ← c.run storeTransport w
  if 0 ≤ rc ∧ Calm .avb 5 ((mailSurroundings storeAnswer).callsSince w₁ w') then some (rc', w')
  else none

theorem AvbCall.tried_calm {c : AvbCall} {w w' : World DevScript} {rc : Int}
    (h : c.tried w = some (rc, w')) : c.run storeTransport w = some (rc, w') ∧
      c.Undisturbed (mailSurroundings storeAnswer) .bits64 (fun _ => 5) 2 w w' := by
  obtain ⟨⟨rc₁, w₁⟩, asked, h⟩ := Option.bind_eq_some_iff.mp h
  obtain ⟨⟨rc₂, w₂⟩, run, h⟩ := Option.bind_eq_some_iff.mp h
  obtain ⟨⟨_, calm⟩, h⟩ := Option.ite_none_right_eq_some.mp h
  cases h
  refine ⟨run, ?_⟩
  intro rc w asked' _
  have same := Option.some.inj (asked.symm.trans asked')
  cases same
  exact calm

def readBack : Option ((Int × World DevScript) × (Int × World DevScript)) := do
  let r₁ ← (AvbCall.writeRollbackIndex 1 7).tried promptAnswers
  let r₂ ← (AvbCall.readRollbackIndex 1 ⟨.caller 0, 0⟩).tried r₁.2
  some (r₁, r₂)

/-- A value is written to slot 1, and read back. -/
theorem avbSession_readsBack : ∃ w done,
    AvbSession (mailService storeAnswer) .bits64 (· = .avb) (fun _ => 5) promptAnswers w
      [(⟨.writeRollbackIndex 1 7, 0⟩, .ok []),
        (⟨.readRollbackIndex 1, 0⟩, .ok [7, 0, 0, 0, 0, 0, 0, 0])] ∧
    taken 5 w.env.calls = taken 5 [] ++ done ∧
    done.Sublist [.writeRollbackIndex 1 7, .readRollbackIndex 1] ∧
    rollbackStore.Explains avbStub (taken 5 []) [(⟨.writeRollbackIndex 1 7, 0⟩, .ok []),
      (⟨.readRollbackIndex 1, 0⟩, .ok [7, 0, 0, 0, 0, 0, 0, 0])] (taken 5 [] ++ done) := by
  have both : readBack.map (fun r => ((AvbCall.writeRollbackIndex 1 7).outcome r.1.1 r.1.2.mem,
      (AvbCall.readRollbackIndex 1 ⟨.caller 0, 0⟩).outcome r.2.1 r.2.2.mem)) =
        some (.ok [], .ok [7, 0, 0, 0, 0, 0, 0, 0]) := by decide +kernel
  obtain ⟨⟨⟨rc₁, w₁⟩, rc₂, w₂⟩, run, outcomes⟩ := Option.map_eq_some_iff.mp both
  unfold readBack at run
  obtain ⟨⟨_, _⟩, first, run⟩ := Option.bind_eq_some_iff.mp run
  obtain ⟨⟨_, _⟩, second, run⟩ := Option.bind_eq_some_iff.mp run
  cases run
  obtain ⟨wrote, stored⟩ := Prod.mk.inj outcomes
  obtain ⟨run₁, calm₁⟩ := AvbCall.tried_calm first
  obtain ⟨run₂, calm₂⟩ := AvbCall.tried_calm second
  have placed₁ : (AvbCall.writeRollbackIndex 1 7).Placed := trivial
  have placed₂ : (AvbCall.readRollbackIndex 1 ⟨.caller 0, 0⟩).Placed := ⟨0, rfl⟩
  have one : AvbSession (mailService storeAnswer) .bits64 (· = .avb) (fun _ => 5) promptAnswers w₁
      ([] ++ [(⟨.writeRollbackIndex 1 7, 0⟩, .ok [])]) := by
    rw [← wrote]
    exact .call .here placed₁ run₁ calm₁
  have two : AvbSession (mailService storeAnswer) .bits64 (· = .avb) (fun _ => 5) promptAnswers w₂
      ([] ++ [(⟨.writeRollbackIndex 1 7, 0⟩, .ok [])] ++
        [(⟨.readRollbackIndex 1, 0⟩, .ok [7, 0, 0, 0, 0, 0, 0, 0])]) := by
    rw [← stored]
    exact .call one placed₂ run₂ calm₂
  obtain ⟨done, more, sub, explained⟩ := avbSession_remote storeAnswer_serves
    (mailSurroundings_spares storeAnswer) (by rfl) (avbWorld_idle storeAnswer _) two
  exact ⟨w₂, done, two, more, sub, explained⟩

end ExternalTrusty
