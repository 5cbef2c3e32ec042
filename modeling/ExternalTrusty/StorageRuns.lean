import ExternalTrusty.Mailbox
import ExternalTrusty.SparedMemory
import ExternalTrusty.Observed
import ExternalTrusty.StorageServer

namespace ExternalTrusty

open CMemory

variable {ε : Type}

/-- A record of what the device and the RPMB device do for the proxy and for the others, on a device
that receives no more than there is room for, and an RPMB device that writes to its buffer only. -/
structure Watched (s : Surroundings ε) where
  trace : ε → List StorageEvent
  close : ∀ handle w, trace (s.dev.close handle w).2.env = trace w.env
  hasEvent : ∀ handle w, trace (s.dev.hasEvent handle w).2.env = trace w.env
  getEvent : ∀ handle w, trace (s.dev.getEvent handle w).2.env = trace w.env
  idle : ∀ w, trace (s.dev.idle w).env = trace w.env
  send : ∀ handle iovs w, trace (s.dev.send handle iovs w).2.env = trace w.env ++
    [.sent handle (s.dev.send handle iovs w).1 (gather w.mem (segs iovs))]
  recv : ∀ handle iovs w, trace (s.dev.recv handle iovs w).2.env = trace w.env ++
    [.received handle (s.dev.recv handle iovs w).1
      ((gather (s.dev.recv handle iovs w).2.mem (segs iovs)).take
        (s.dev.recv handle iovs w).1.toNat)]
  room : ∀ handle iovs w, (s.dev.recv handle iovs w).1 ≤ total (segs iovs)
  storageSend : ∀ rel relSize wr wrSize buf size w,
    trace (s.rpmb.storageSend rel relSize wr wrSize buf size w).2.env = trace w.env ++
      [.executed ⟨readIf w.mem rel relSize, readIf w.mem wr wrSize, size⟩
        (s.rpmb.storageSend rel relSize wr wrSize buf size w).1
        ((s.rpmb.storageSend rel relSize wr wrSize buf size w).2.mem.read buf size)]
  writes : ∀ rel relSize wr wrSize buf size w b, b ≠ buf.block →
    (s.rpmb.storageSend rel relSize wr wrSize buf size w).2.mem.bytes b = w.mem.bytes b

/-- Between two worlds, a message was dealt with and answered; this came of sending the reply. -/
def Watched.Answers {s : Surroundings ε} (W : Watched s) (msg : List UInt8) (w : World ε) (rc : Int)
    (w' : World ε) : Prop :=
  ∃ did outcome, Executed msg did outcome ∧ W.trace w'.env = W.trace w.env ++
    (did ++ [.sent (w.chans .proxy).handle rc (storageReply msg outcome)])

/-- A message that was read is in the two buffers. -/
structure InBuffers (m : Mem Obj) (msg : List UInt8) : Prop where
  header : m.read reqMsg 24 = msg.take 24
  payload : m.read reqBuf (msg.drop 24).length = msg.drop 24

theorem read_spared {m m' : Mem Obj} {p : Ptr Obj} (h : m'.bytes p.block = m.bytes p.block)
    (n : Nat) : m'.read p n = m.read p n := by
  unfold Mem.read
  rw [h]

section Proxy

variable {s : Surroundings ε} {W : Watched s} {w w' : World ε} {rc : Int} {msg : List UInt8}

theorem InBuffers.congr {m m' : Mem Obj} (held : InBuffers m msg)
    (hmsg : m'.bytes .reqMsg = m.bytes .reqMsg) (hbuf : m'.bytes .reqBuf = m.bytes .reqBuf) :
    InBuffers m' msg :=
  ⟨(read_spared hmsg 24).trans held.header, (read_spared hbuf _).trans held.payload⟩

/-- What is sent is the header with the result, and what there is to follow it. -/
theorem proxySendResponse_sends (W : Watched s) (header : w.mem.read reqMsg 24 = msg.take 24)
    {result respLen : Nat} {resp : Option (Ptr Obj)} (apart : ∀ p ∈ resp, p.block ≠ .reqMsg)
    (run : proxySendResponse (callbackTransport s.dev) .proxy reqMsg resp respLen
      (setResult reqMsg result w) = some (rc, w')) :
    W.trace w'.env = W.trace w.env ++ [.sent (w.chans .proxy).handle rc (replyHeader msg result ++
      (resp.elim [] fun p => w.mem.read p (UInt64.ofNat respLen).toNat))] := by
  obtain ⟨hheader, hother⟩ := @replyHeader_stored _ _ result header
  let m := (setResult reqMsg result w).mem
  let m' := m.store reqMsg 4 (m.load reqMsg 4 ||| storageRespBit)
  have sent := W.send (w.chans .proxy).handle (twoIovs reqMsg 24 resp (UInt64.ofNat respLen))
    (w.setMem m')
  have finished : s.dev.send (w.chans .proxy).handle (twoIovs reqMsg 24 resp (UInt64.ofNat respLen))
    (w.setMem m') = (rc, w') := Option.some.inj run
  rw [finished] at sent
  have message : gather m' (segs (twoIovs reqMsg 24 resp (UInt64.ofNat respLen))) =
      replyHeader msg result ++
        resp.elim [] fun p => w.mem.read p (UInt64.ofNat respLen).toNat := by
    rw [← hheader]
    cases resp with
    | none => exact gather_cons ..
    | some p =>
      have data := hother p (UInt64.ofNat respLen).toNat (apart p rfl)
      rw [Option.elim_some, ← data]
      show gather m' [⟨reqMsg, 24⟩, ⟨p, _⟩] = _
      rw [gather_cons, gather_cons]
      exact congrArg (m'.read reqMsg 24 ++ ·) (List.append_nil _)
  rw [← message]
  exact sent

theorem errResponse_sends (W : Watched s) (header : w.mem.read reqMsg 24 = msg.take 24)
    {result : Nat}
    (run : errResponse (callbackTransport s.dev) .proxy reqMsg result w = some (rc, w')) :
    W.trace w'.env = W.trace w.env ++
      [.sent (w.chans .proxy).handle rc (replyHeader msg result)] := by
  have sent : proxySendResponse (callbackTransport s.dev) .proxy reqMsg none 0
      (setResult reqMsg result w) = some (rc, w') := run
  rw [proxySendResponse_sends W header (by simp) sent, Option.elim_none, List.append_nil]

theorem rpmbAsk_eq_some {ask : RpmbAsk} (asked : rpmbAsk msg = some ask) :
    RpmbValid (msg.drop 24) ∧ rpmbReadSize (msg.drop 24) = ask.readSize := by
  simp only [rpmbAsk] at asked
  split at asked
  next valid =>
    cases asked
    exact ⟨valid.2, rfl⟩
  next => cases asked

/-- A command is executed once, and answered by what came of it. -/
theorem proxyExecute_does (W : Watched s) (held : InBuffers w.mem msg) {ask : RpmbAsk}
    (asked : rpmbAsk msg = some ask)
    {rel wr : Option (Ptr Obj)} {relSize wrSize readSize : Nat}
    (same : (⟨readIf w.mem rel relSize, readIf w.mem wr wrSize, readSize⟩ : RpmbAsk) = ask)
    (run : proxyExecute (callbackTransport s.dev) s.rpmb .proxy reqMsg reqBuf rel relSize wr wrSize
      readSize w = some (rc, w')) :
    W.Answers msg w rc w' := by
  have stored := s.storageSend rel relSize wr wrSize readBuf readSize w
  have done := W.storageSend rel relSize wr wrSize readBuf readSize w
  have writes := W.writes rel relSize wr wrSize readBuf readSize w
  unfold proxyExecute at run
  cases executed : s.rpmb.storageSend rel relSize wr wrSize readBuf readSize w with
  | mk code w₁ =>
    rw [executed] at stored done writes
    simp only [executed] at run
    have held₁ : InBuffers w₁.mem msg := held.congr (writes _ (by decide)) (writes _ (by decide))
    have handle : (w₁.chans .proxy).handle = (w.chans .proxy).handle := by rw [stored.chans]
    rw [same] at done
    refine ⟨_, _, .done asked code (w₁.mem.read readBuf readSize) ?_, ?_⟩
    · rw [Mem.read_length, ← same]
    · split at run
      next failed =>
        rw [errResponse_sends W held₁.header run, done, List.append_assoc, handle]
        simp only [storageReply, if_neg failed]
      next went =>
        obtain ⟨valid, size⟩ := rpmbAsk_eq_some asked
        have fits : readSize ≤ 4096 := by
          have room := valid.2.2.2.2.2
          rw [size, ← same] at room
          exact room
        have again : (setResult reqMsg storageNoError w₁).mem.load (reqBuf.add 8) 4 = readSize := by
          have sizes := (rpmbSizes_read held₁.payload valid.1).2.2
          rw [size, ← same] at sizes
          exact (load_spared (store_spares (by decide) 4 storageNoError) 4).trans sizes
        have small : (UInt64.ofNat readSize).toNat = readSize := by
          rw [UInt64.toNat_ofNat', Nat.mod_eq_of_lt (by omega)]
        rw [again] at run
        rw [proxySendResponse_sends W held₁.header (by simp [readBuf]) run, done, List.append_assoc,
          handle, Option.elim_some, small]
        simp only [storageReply, if_pos (not_not.mp went)]

theorem proxyHandleReq_does (W : Watched s) (held : InBuffers w.mem msg)
    (run : proxyHandleReq .bits64 (callbackTransport s.dev) s.rpmb .proxy reqMsg reqBuf
      (msg.drop 24).length w = some (rc, w')) :
    W.Answers msg w rc w' := by
  have cmd : w.mem.load reqMsg 4 = leNat (msg.take 4) := by
    have first := Mem.read_take w.mem reqMsg (by decide : 4 ≤ 24)
    rw [held.header, List.take_take] at first
    exact congrArg leNat first.symm
  have refused : rpmbAsk msg = none → errResponse (callbackTransport s.dev) .proxy reqMsg
      (refusal msg) w = some (rc, w') → W.Answers msg w rc w' := fun no run =>
    ⟨[], none, Executed.refused no, errResponse_sends W held.header run⟩
  unfold proxyHandleReq at run
  rw [cmd] at run
  by_cases send : leNat (msg.take 4) = storageRpmbSend
  · rw [if_pos send] at run
    by_cases valid : RpmbValid (msg.drop 24)
    · have asked : rpmbAsk msg = some _ := if_pos ⟨send, valid⟩
      rw [proxyHandleRpmb_valid held.payload valid] at run
      obtain ⟨_, length, _⟩ := valid
      refine proxyExecute_does W held asked ?_ run
      rw [readIf_payload held.payload (by omega), ← Ptr.add_assoc,
        readIf_payload held.payload (by omega)]
    · have no : rpmbAsk msg = none := if_neg fun both => valid both.2
      rw [proxyHandleRpmb_refused held.payload valid] at run
      refine refused no ?_
      rw [refusal, if_pos send]
      exact run
  · have no : rpmbAsk msg = none := if_neg fun both => send both.1
    rw [if_neg send] at run
    refine refused no ?_
    rw [refusal, if_neg send]
    exact run

def requestIovs : List Iovec := [⟨reqMsg, 24⟩, ⟨reqBuf, 4096⟩]

/-- The message of so many bytes that a receive has left in the buffers. -/
theorem inBuffers_gather (m : Mem Obj) {n : Nat} (header : 24 ≤ n) (room : n ≤ 4120) :
    ((gather m (segs requestIovs)).take n).length = n ∧
      InBuffers m ((gather m (segs requestIovs)).take n) := by
  have both : gather m (segs requestIovs) = m.read reqMsg 24 ++ m.read reqBuf 4096 := by
    show gather m [⟨reqMsg, 24⟩, ⟨reqBuf, 4096⟩] = _
    rw [gather_cons, gather_cons]
    exact congrArg (m.read reqMsg 24 ++ ·) (List.append_nil _)
  have msg : (gather m (segs requestIovs)).take n =
      m.read reqMsg 24 ++ m.read reqBuf (n - 24) := by
    rw [both, List.take_append, Mem.read_length, Mem.read_take m reqBuf (by omega),
      List.take_of_length_le (by rw [Mem.read_length]; exact header)]
  rw [msg]
  have length : (m.read reqMsg 24).length = 24 := Mem.read_length ..
  refine ⟨?_, ?_, ?_⟩
  · rw [List.length_append, length, Mem.read_length]
    omega
  · rw [List.take_left' length]
  · rw [List.drop_left' length, Mem.read_length]

/-- What is read from the channel is in the buffers, if it has a header. -/
theorem proxyReadRequest_receives (W : Watched s)
    (run : proxyReadRequest (callbackTransport s.dev) .proxy reqMsg reqBuf sizeofReqBuf w =
      some (rc, w')) :
    ∃ (r : Int) (msg : List UInt8),
      W.trace w'.env = W.trace w.env ++ [.received (w.chans .proxy).handle r msg] ∧
      w'.chans = w.chans ∧ (rc < 0 ∧ r < sizeofStorageMsg ∨ (sizeofStorageMsg : Int) ≤ r ∧
        r = msg.length ∧ r ≤ 4120 ∧ rc = (msg.drop 24).length ∧ InBuffers w'.mem msg) := by
  have received := W.recv (w.chans .proxy).handle requestIovs w
  have room := W.room (w.chans .proxy).handle requestIovs w
  have did := s.recv (w.chans .proxy).handle requestIovs w
  have header : sizeofStorageMsg = 24 := rfl
  have generic : trustyErrGeneric < 0 := by decide
  have iovs : [⟨reqMsg, 24⟩, ⟨reqBuf, UInt64.ofNat sizeofReqBuf⟩] = requestIovs := rfl
  unfold proxyReadRequest callbackTransport at run
  rw [iovs] at run
  cases hrecv : s.dev.recv (w.chans .proxy).handle requestIovs w with
  | mk r w₁ =>
    rw [hrecv] at received room did
    simp only [hrecv, Bool.false_eq_true, if_false, Option.bind_eq_bind, Option.bind_some] at run
    have total : total (segs requestIovs) = 4120 := rfl
    rw [total] at room
    split at run
    next negative =>
      cases run
      exact ⟨rc, _, received, did.chans, Or.inl ⟨negative, by omega⟩⟩
    next positive =>
      have cast := intToUsize_of_nonneg (not_lt.mp positive) (by omega)
      split at run
      next short =>
        cases run
        exact ⟨r, _, received, did.chans, Or.inl ⟨generic, by omega⟩⟩
      next long =>
        obtain ⟨rfl, rfl⟩ := Prod.mk.inj (Option.some.inj run)
        rw [cast, header] at long
        obtain ⟨length, held⟩ := inBuffers_gather w₁.mem (not_lt.mp long) (by omega)
        refine ⟨r, _, received, did.chans, Or.inr ⟨by omega, ?_, room, ?_, held⟩⟩
        · simp only [length]
          omega
        · rw [List.length_drop]
          simp only [length]
          rw [cast, header, toInt_of_lt (by unfold usizeSub; omega)]
          unfold usizeSub
          omega

/-- Closing the channel loses its handle. -/
theorem close_loses (W : Watched s) (w : World ε) :
    W.trace (trustyIpcClose s.dev .proxy w).2.env = W.trace w.env ∧
      (((trustyIpcClose s.dev .proxy w).2).chans .proxy).handle = 0 := by
  refine ⟨W.close (w.chans .proxy).handle w, ?_⟩
  simp only [trustyIpcClose, World.setHandle, Function.update_self]

theorem proxyOnMessage_serves (W : Watched s)
    (run : proxyOnMessage .bits64 (callbackTransport s.dev) s.rpmb .proxy w = some (rc, w')) :
    ∃ t, W.trace w'.env = W.trace w.env ++ t ∧
      Served (w.chans .proxy).handle t (w'.chans .proxy).handle := by
  obtain ⟨⟨n, w₁⟩, read, run⟩ := Option.bind_eq_some_iff.mp run
  obtain ⟨r, msg, received, chans, outcome⟩ := proxyReadRequest_receives W read
  simp only at run
  rcases outcome with ⟨negative, short⟩ | ⟨header, length, room, rest, held⟩
  · rw [if_pos negative] at run
    obtain ⟨rfl, rfl⟩ := Prod.mk.inj (Option.some.inj run)
    obtain ⟨same, lost⟩ := close_loses W w₁
    refine ⟨_, same.trans received, ?_⟩
    rw [show (((callbackTransport s.dev).close .proxy w₁).2.chans .proxy).handle = 0 from lost]
    exact .unread short
  · have positive : ¬n < 0 := by omega
    have cast : intToUsize n = (msg.drop 24).length := by
      rw [List.length_drop] at rest ⊢
      rw [intToUsize_of_nonneg (by omega) (by omega)]
      omega
    rw [if_neg positive, cast] at run
    obtain ⟨⟨rc₂, w₂⟩, handled, run⟩ := Option.bind_eq_some_iff.mp run
    obtain ⟨did, outcome, executed, answered⟩ := proxyHandleReq_does W held handled
    obtain ⟨_, quiet⟩ := s.did_proxyHandleReq handled
    have handle : (w₂.chans .proxy).handle = (w.chans .proxy).handle := by
      rw [quiet.chans, chans]
    rw [chans, received, List.append_assoc] at answered
    have served := @Served.answered (w.chans .proxy).handle r rc₂ msg did outcome length header
      executed
    simp only at run
    split at run
    next negative =>
      obtain ⟨rfl, rfl⟩ := Prod.mk.inj (Option.some.inj run)
      obtain ⟨same, lost⟩ := close_loses W w₂
      rw [if_pos negative] at served
      refine ⟨_, same.trans answered, ?_⟩
      rw [show (((callbackTransport s.dev).close .proxy w₂).2.chans .proxy).handle = 0 from lost]
      exact served
    next sent =>
      cases run
      rw [if_neg sent] at served
      refine ⟨_, answered, ?_⟩
      rw [handle]
      exact served

end Proxy

/-- An event on one of these handles, or on no handle at all. -/
def StorageEvent.Of (h : UInt32) : StorageEvent → Bool
  | .received k _ _ => k = h ∨ k = 0
  | .executed _ _ _ => true
  | .sent k _ _ => k = h ∨ k = 0

theorem Dialog.handle {h k : UInt32} {t : List StorageEvent} (dialog : Dialog h t k) :
    k = h ∨ k = 0 := by
  induction dialog with
  | start => exact Or.inl rfl
  | served _ now ih =>
    cases now with
    | unread => exact Or.inr rfl
    | answered =>
      split
      next => exact Or.inr rfl
      next => exact ih
  | hungUp => exact Or.inr rfl

theorem Served.filter {h k k' : UInt32} {t : List StorageEvent} (served : Served k t k')
    (own : k = h ∨ k = 0) : t.filter (StorageEvent.Of h) = t := by
  have here : decide (k = h ∨ k = 0) = true := decide_eq_true own
  refine List.filter_eq_self.mpr ?_
  intro e mem
  cases served with
  | unread =>
    cases List.mem_singleton.mp mem
    exact here
  | answered _ _ executed =>
    rcases List.mem_cons.mp mem with rfl | mem
    · exact here
    · rcases List.mem_append.mp mem with did | sent
      · cases executed with
        | refused => cases did
        | done =>
          cases List.mem_singleton.mp did
          rfl
      · cases List.mem_singleton.mp sent
        exact here

/-- What the program does while the proxy has its channel, step by step: polls, the other steps of a
wait, stores, and sends and receives on other channels. -/
inductive Traffic (s : Surroundings ε) (on : Component → Prop) (start : World ε) : World ε → Prop
  | here : Traffic s on start start
  | poll {w w' : World ε} {rc : Int} (before : Traffic s on start w)
    (run : trustyIpcPollForEvent s.dev (s.ops .bits64) w = some (rc, w')) : Traffic s on start w'
  | look {w : World ε} (before : Traffic s on start w) :
    Traffic s on start (s.dev.hasEvent 0 w).2
  | idle {w : World ε} (before : Traffic s on start w) : Traffic s on start (s.dev.idle w)
  | complete {w : World ε} (before : Traffic s on start w) (c : Component) (complete : Int) :
    Traffic s on start (w.setComplete c complete)
  | stores {w : World ε} (before : Traffic s on start w) (m : Mem Obj) :
    Traffic s on start (w.setMem m)
  | send {w : World ε} {c : Component} (before : Traffic s on start w) (hc : on c)
    (iovs : List Iovec) : Traffic s on start (s.dev.send (w.chans c).handle iovs w).2
  | recv {w : World ε} {c : Component} (before : Traffic s on start w) (hc : on c)
    (iovs : List Iovec) : Traffic s on start (s.dev.recv (w.chans c).handle iovs w).2

/-- The proxy serves its channel, next to other channels that are connected. -/
structure Serves {s : Surroundings ε} (W : Watched s) (on : Component → Prop)
    (handles : Component → UInt32) (h : UInt32) (start w : World ε) : Prop where
  connected : Connected on handles w
  others : ∀ c, on c → handles c ≠ h
  dialog : ∃ new, W.trace w.env = W.trace start.env ++ new ∧
    Dialog h (new.filter (StorageEvent.Of h)) (w.chans .proxy).handle

section Traffic

variable {s : Surroundings ε} {W : Watched s} {on : Component → Prop}
  {handles : Component → UInt32} {h : UInt32} {start w w' : World ε} {c : Component} {rc : Int}
  {fuel : Nat} {iovs : List Iovec} {wait : Bool}

theorem poll_serves (W : Watched s) (proxies : ∀ c, (w.chans c).ops = .proxy → c = .proxy)
    (run : trustyIpcPollForEvent s.dev (s.ops .bits64) w = some (rc, w')) :
    (W.trace w'.env = W.trace w.env ∧ ((w'.chans .proxy).handle = (w.chans .proxy).handle ∨
        (w'.chans .proxy).handle = 0)) ∨
      ∃ t, W.trace w'.env = W.trace w.env ++ t ∧
        Served (w.chans .proxy).handle t (w'.chans .proxy).handle := by
  have got := s.getEvent 0 w
  have quiet := W.getEvent 0 w
  rcases s.poll_dispatches run with error | ⟨e, w₁, event, ⟨_, _, rfl⟩ | ⟨c, _, run⟩⟩
  · rw [error] at got quiet
    exact Or.inl ⟨quiet, Or.inl (by rw [got.chans])⟩
  · rw [event] at got quiet
    exact Or.inl ⟨quiet, Or.inl (by rw [got.chans])⟩
  · rw [event] at got quiet
    have same : (w₁.chans .proxy).handle = (w.chans .proxy).handle := by rw [got.chans]
    cases hops : (w₁.chans c).ops with
    | sync =>
      rcases s.dispatch_sync hops with ⟨_, _, plain⟩ | ⟨complete, _, plain⟩
      · rw [plain] at run
        cases run
        exact Or.inl ⟨quiet, Or.inl same⟩
      · rw [plain] at run
        cases run
        exact Or.inl ⟨quiet, Or.inl ((setComplete_handle ..).trans same)⟩
    | proxy =>
      have hproxy : c = .proxy := proxies c (by rw [← got.chans]; exact hops)
      subst hproxy
      rcases s.dispatch_proxy hops run with ⟨rfl, _, _⟩ | ⟨_, handled⟩ | ⟨_, _, rfl⟩
      · exact Or.inl ⟨quiet, Or.inl same⟩
      · obtain ⟨t, trace, served⟩ := proxyOnMessage_serves W handled
        rw [quiet] at trace
        rw [same] at served
        exact Or.inr ⟨t, trace, served⟩
      · refine Or.inl ⟨quiet, Or.inr ?_⟩
        simp only [World.setHandle, Function.update_self]

theorem Serves.extend (serves : Serves W on handles h start w) (connected : Connected on handles w')
    {t : List StorageEvent} (trace : W.trace w'.env = W.trace w.env ++ t)
    (more : ∀ t₀, Dialog h t₀ (w.chans .proxy).handle →
      Dialog h (t₀ ++ t.filter (StorageEvent.Of h)) (w'.chans .proxy).handle) :
    Serves W on handles h start w' := by
  obtain ⟨new, before, dialog⟩ := serves.dialog
  refine ⟨connected, serves.others, new ++ t, ?_, ?_⟩
  · rw [trace, before, List.append_assoc]
  · rw [List.filter_append]
    exact more _ dialog

/-- What the proxy's channel and the record do not notice. -/
theorem Serves.quiet (serves : Serves W on handles h start w) (chans : w'.chans = w.chans)
    (trace : W.trace w'.env = W.trace w.env) : Serves W on handles h start w' := by
  refine serves.extend (serves.connected.of_chans chans) (trace.trans (List.append_nil _).symm) ?_
  intro t₀ dialog
  rw [chans, List.filter_nil, List.append_nil]
  exact dialog

theorem Serves.poll (serves : Serves W on handles h start w)
    (run : trustyIpcPollForEvent s.dev (s.ops .bits64) w = some (rc, w')) :
    Serves W on handles h start w' := by
  obtain ⟨_, while₁, _⟩ := serves.connected.poll (s.poll_done run)
  rcases poll_serves W serves.connected.proxies run with ⟨trace, same | lost⟩ | ⟨t, trace, served⟩
  · refine serves.extend while₁.connected (trace.trans (List.append_nil _).symm) ?_
    intro t₀ dialog
    rw [same, List.filter_nil, List.append_nil]
    exact dialog
  · refine serves.extend while₁.connected (trace.trans (List.append_nil _).symm) ?_
    intro t₀ dialog
    rw [lost, List.filter_nil, List.append_nil]
    exact .hungUp dialog
  · refine serves.extend while₁.connected trace ?_
    intro t₀ dialog
    rw [served.filter dialog.handle]
    exact .served dialog served

theorem Serves.setComplete (serves : Serves W on handles h start w) (c : Component)
    (complete : Int) : Serves W on handles h start (w.setComplete c complete) := by
  refine serves.extend (t := []) (serves.connected.setComplete c complete)
    (List.append_nil _).symm ?_
  intro t₀ dialog
  rw [setComplete_handle, List.filter_nil, List.append_nil]
  exact dialog

/-- A send or a receive on another channel is none of the proxy's. -/
theorem Serves.other (serves : Serves W on handles h start w) (hc : on c) {calls : List OsCall}
    {e : StorageEvent} (did : Did s.log w w' calls)
    (trace : W.trace w'.env = W.trace w.env ++ [e])
    (apart : e.Of h = decide (handles c = h ∨ handles c = 0)) : Serves W on handles h start w' := by
  refine serves.extend (serves.connected.of_chans did.chans) trace ?_
  intro t₀ dialog
  have no : ¬(handles c = h ∨ handles c = 0) :=
    not_or.mpr ⟨serves.others c hc, serves.connected.nonzero c hc⟩
  have none : [e].filter (StorageEvent.Of h) = [] := by
    refine List.filter_cons_of_neg ?_
    rw [apart, decide_eq_true_iff]
    exact no
  rw [none, List.append_nil, did.chans]
  exact dialog

theorem Serves.devSend (serves : Serves W on handles h start w) (hc : on c) (iovs : List Iovec) :
    Serves W on handles h start (s.dev.send (w.chans c).handle iovs w).2 := by
  refine serves.other hc (s.send (w.chans c).handle iovs w) (W.send (w.chans c).handle iovs w) ?_
  rw [serves.connected.handle c hc]
  rfl

theorem Serves.devRecv (serves : Serves W on handles h start w) (hc : on c) (iovs : List Iovec) :
    Serves W on handles h start (s.dev.recv (w.chans c).handle iovs w).2 := by
  refine serves.other hc (s.recv (w.chans c).handle iovs w) (W.recv (w.chans c).handle iovs w) ?_
  rw [serves.connected.handle c hc]
  rfl

theorem Serves.traffic (serves : Serves W on handles h start start)
    (traffic : Traffic s on start w) : Serves W on handles h start w := by
  induction traffic with
  | here => exact serves
  | poll _ run ih => exact ih.poll run
  | look _ ih => exact ih.quiet (s.hasEvent 0 _).chans (W.hasEvent 0 _)
  | idle _ ih => exact ih.quiet (s.idle _).chans (W.idle _)
  | complete _ c complete ih => exact ih.setComplete c complete
  | stores _ m ih => exact ih.quiet rfl rfl
  | send _ hc iovs ih => exact ih.devSend hc iovs
  | recv _ hc iovs ih => exact ih.devRecv hc iovs

theorem Traffic.waitLoop (traffic : Traffic s on start w)
    (run : waitLoop s.dev (s.ops .bits64) c fuel w = some (rc, w')) : Traffic s on start w' := by
  induction fuel generalizing w with
  | zero => cases run
  | succ fuel ih =>
    obtain ⟨⟨rc₁, w₁⟩, polled, run⟩ := Option.bind_eq_some_iff.mp run
    have traffic₁ := traffic.poll polled
    simp only at run
    split at run
    next =>
      cases run
      exact traffic₁
    next =>
      split at run
      next =>
        cases run
        exact traffic₁
      next =>
        split at run
        next =>
          refine ih ?_ run
          split
          next => exact traffic₁.look
          next => exact traffic₁.look.idle
        next => exact ih traffic₁ run

/-- A send that waits for room is such traffic. -/
theorem Traffic.trustyIpcSend (traffic : Traffic s on start w) (hc : on c)
    (run : trustyIpcSend s.dev (s.ops .bits64) fuel c iovs wait w = some (rc, w')) :
    Traffic s on start w' := by
  induction fuel generalizing w with
  | zero => cases run
  | succ fuel ih =>
    have sent := traffic.send hc iovs
    unfold ExternalTrusty.trustyIpcSend at run
    simp only at run
    split at run
    next =>
      obtain ⟨⟨rc₂, w₂⟩, waited, run⟩ := Option.bind_eq_some_iff.mp run
      have traffic₂ := (sent.complete c 0).waitLoop waited
      simp only at run
      split at run
      next =>
        cases run
        exact traffic₂
      next => exact ih traffic₂ run
    next =>
      cases run
      exact sent

/-- So is a receive that waits for a message. -/
theorem Traffic.trustyIpcRecv (traffic : Traffic s on start w) (hc : on c)
    (run : trustyIpcRecv s.dev (s.ops .bits64) fuel c iovs wait w = some (rc, w')) :
    Traffic s on start w' := by
  unfold ExternalTrusty.trustyIpcRecv at run
  split at run
  next =>
    obtain ⟨⟨rc₁, w₁⟩, waited, run⟩ := Option.bind_eq_some_iff.mp run
    have traffic₁ := (traffic.complete c 0).waitLoop waited
    simp only at run
    split at run
    next =>
      cases run
      exact traffic₁
    next =>
      have received := traffic₁.recv hc iovs
      rw [Option.some.inj run] at received
      exact received
  next =>
    have received := traffic.recv hc iovs
    rw [Option.some.inj run] at received
    exact received

end Traffic

/-- The events and the messages to come, with a record of calls and of what happens to messages. -/
structure StorageScript where
  events : List IpcEvent
  recvs : List Delivery
  calls : List OsCall
  trace : List StorageEvent

def StorageScript.did (d : StorageScript) (calls : List OsCall) (trace : List StorageEvent) :
    StorageScript := { d with calls := d.calls ++ calls, trace := d.trace ++ trace }

end ExternalTrusty
