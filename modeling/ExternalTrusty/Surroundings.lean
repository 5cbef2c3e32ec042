import ExternalTrusty.Ipc

namespace ExternalTrusty

open CMemory

variable {ε σ : Type}

/-- What the channels' code asks of the secure OS, and what it learns by that. -/
inductive OsCall
  | connect (cookie : UInt64) (rc : Int)
  | close (handle : UInt32)
  | event (evt : Except Int IpcEvent)
  | send (handle : UInt32) (rc : Int) (msg : List UInt8)
  | recv (handle : UInt32) (rc : Int)

/-- Between two worlds these calls were made, and the channels were left alone. -/
structure Did (log : ε → List OsCall) (w w' : World ε) (calls : List OsCall) : Prop where
  chans : w'.chans = w.chans
  initialized : w'.initialized = w.initialized
  log : log w'.env = log w.env ++ calls

theorem Did.refl {log : ε → List OsCall} (w : World ε) : Did log w w [] :=
  ⟨rfl, rfl, (List.append_nil _).symm⟩

theorem Did.setMem {log : ε → List OsCall} (w : World ε) (m : Mem Obj) :
    Did log w (w.setMem m) [] := ⟨rfl, rfl, (List.append_nil _).symm⟩

theorem Did.trans {log : ε → List OsCall} {w₁ w₂ w₃ : World ε} {calls calls' : List OsCall}
    (h : Did log w₁ w₂ calls) (h' : Did log w₂ w₃ calls') : Did log w₁ w₃ (calls ++ calls') where
  chans := h'.chans.trans h.chans
  initialized := h'.initialized.trans h.initialized
  log := by rw [h'.log, h.log, List.append_assoc]

/-- A device and an RPMB device that keep their hands off the channels, with a record of the calls
made to the device. -/
structure Surroundings (ε : Type) where
  dev : Device ε
  rpmb : RpmbDevice ε
  log : ε → List OsCall
  connect : ∀ port cookie w, Did log w (dev.connect port cookie w).2
    [.connect cookie (dev.connect port cookie w).1]
  close : ∀ handle w, Did log w (dev.close handle w).2 [.close handle]
  hasEvent : ∀ handle w, Did log w (dev.hasEvent handle w).2 []
  getEvent : ∀ handle w, Did log w (dev.getEvent handle w).2
    [.event (dev.getEvent handle w).1]
  send : ∀ handle iovs w, Did log w (dev.send handle iovs w).2
    [.send handle (dev.send handle iovs w).1 (gather w.mem (segs iovs))]
  recv : ∀ handle iovs w, Did log w (dev.recv handle iovs w).2
    [.recv handle (dev.recv handle iovs w).1]
  recvInt : ∀ handle iovs w, (dev.recv handle iovs w).1 < 2 ^ 31
  idle : ∀ w, Did log w (dev.idle w) []
  storageSend : ∀ rel relSize wr wrSize buf size w,
    Did log w (rpmb.storageSend rel relSize wr wrSize buf size w).2 []

namespace Surroundings

variable (s : Surroundings ε)

/-- The operations of each channel, in these surroundings. -/
def ops (target : Target) : Ops → TrustyIpcOps ε := opsTable target s.dev s.rpmb

theorem did_setResult (msg : Ptr Obj) (result : Nat) (w : World ε) :
    Did s.log w (setResult msg result w) [] := Did.setMem w _

theorem did_proxySendResponse {c : Component} {msg : Ptr Obj} {resp : Option (Ptr Obj)}
    {respLen : Nat} {w w' : World ε} {rc : Int}
    (h : proxySendResponse (callbackTransport s.dev) c msg resp respLen w = some (rc, w')) :
    ∃ bytes, Did s.log w w' [.send (w.chans c).handle rc bytes] := by
  have sent := (Did.setMem w (w.mem.store msg 4 (w.mem.load msg 4 ||| storageRespBit))).trans
    (s.send (w.chans c).handle (twoIovs msg 24 resp (UInt64.ofNat respLen)) _)
  have result := Option.some.inj h
  rw [show s.dev.send (w.chans c).handle _ _ = (rc, w') from result] at sent
  exact ⟨_, sent⟩

theorem did_errResponse {c : Component} {msg : Ptr Obj} {result : Nat} {w w' : World ε} {rc : Int}
    (h : errResponse (callbackTransport s.dev) c msg result w = some (rc, w')) :
    ∃ bytes, Did s.log w w' [.send (w.chans c).handle rc bytes] := by
  obtain ⟨bytes, sent⟩ := s.did_proxySendResponse h
  exact ⟨bytes, (s.did_setResult msg result w).trans sent⟩

theorem did_proxyExecute {c : Component} {msg r : Ptr Obj} {rel wr : Option (Ptr Obj)}
    {relSize wrSize readSize : Nat} {w w' : World ε} {rc : Int}
    (h : proxyExecute (callbackTransport s.dev) s.rpmb c msg r rel relSize wr wrSize readSize w =
      some (rc, w')) : ∃ bytes, Did s.log w w' [.send (w.chans c).handle rc bytes] := by
  have stored := s.storageSend rel relSize wr wrSize readBuf readSize w
  rw [← stored.chans]
  unfold proxyExecute at h
  simp only at h
  split at h
  next =>
    obtain ⟨bytes, sent⟩ := s.did_errResponse h
    exact ⟨bytes, stored.trans sent⟩
  next =>
    obtain ⟨bytes, sent⟩ := s.did_proxySendResponse h
    exact ⟨bytes, stored.trans ((s.did_setResult _ _ _).trans sent)⟩

/-- A request is refused, or executed. -/
theorem proxyHandleReq_outcome {t : Transport ε} {rpmb : RpmbDevice ε} {target : Target}
    {c : Component} {msg req : Ptr Obj} {reqLen : Nat} {w w' : World ε} {rc : Int}
    (h : proxyHandleReq target t rpmb c msg req reqLen w = some (rc, w')) :
    (∃ result, errResponse t c msg result w = some (rc, w')) ∨
      ∃ rel relSize wr wrSize readSize,
        proxyExecute t rpmb c msg req rel relSize wr wrSize readSize w = some (rc, w') := by
  unfold proxyHandleReq at h
  split at h
  next =>
    unfold proxyHandleRpmb at h
    simp only at h
    split at h
    next => exact Or.inl ⟨_, h⟩
    next =>
      split at h
      next => exact Or.inl ⟨_, h⟩
      next =>
        split at h
        next => exact Or.inl ⟨_, h⟩
        next =>
          split at h
          next => exact Or.inl ⟨_, h⟩
          next =>
            split at h
            next => exact Or.inl ⟨_, h⟩
            next => exact Or.inr ⟨_, _, _, _, _, h⟩
  next => exact Or.inl ⟨_, h⟩

theorem did_proxyHandleReq {target : Target} {c : Component} {msg req : Ptr Obj} {reqLen : Nat}
    {w w' : World ε} {rc : Int}
    (h : proxyHandleReq target (callbackTransport s.dev) s.rpmb c msg req reqLen w =
      some (rc, w')) : ∃ bytes, Did s.log w w' [.send (w.chans c).handle rc bytes] := by
  rcases proxyHandleReq_outcome h with ⟨_, refused⟩ | ⟨_, _, _, _, _, executed⟩
  · exact s.did_errResponse refused
  · exact s.did_proxyExecute executed

/-- How a message on a channel is handled: it is read and answered, or the channel is closed. -/
inductive MessageDone (c : Component) (w : World ε) : Int → World ε → Prop
  | answered {w' : World ε} {r r' : Int} {bytes : List UInt8}
    (read : (sizeofStorageMsg : Int) ≤ r) (sent : 0 ≤ r')
    (did : Did s.log w w' [.recv (w.chans c).handle r, .send (w.chans c).handle r' bytes]) :
    MessageDone c w trustyEventHandled w'
  | unread {w₁ : World ε} {rc r : Int} (negative : rc < 0) (failed : r < sizeofStorageMsg)
    (did : Did s.log w w₁ [.recv (w.chans c).handle r, .close (w.chans c).handle]) :
    MessageDone c w rc (w₁.setHandle c 0)
  | unanswered {w₁ : World ε} {rc r : Int} {bytes : List UInt8} (negative : rc < 0)
    (read : (sizeofStorageMsg : Int) ≤ r)
    (did : Did s.log w w₁ [.recv (w.chans c).handle r, .send (w.chans c).handle rc bytes,
      .close (w.chans c).handle]) : MessageDone c w rc (w₁.setHandle c 0)

/-- Reading a request is one receive; its result tells if there is a header. -/
theorem did_proxyReadRequest {c : Component} {msg req : Ptr Obj} {reqLen : Nat} {w w' : World ε}
    {rc : Int} (h : proxyReadRequest (callbackTransport s.dev) c msg req reqLen w = some (rc, w')) :
    ∃ r, Did s.log w w' [.recv (w.chans c).handle r] ∧
      (rc < 0 ∧ r < sizeofStorageMsg ∨ 0 ≤ rc ∧ (sizeofStorageMsg : Int) ≤ r) := by
  have received := s.recv (w.chans c).handle [⟨msg, 24⟩, ⟨req, UInt64.ofNat reqLen⟩] w
  have bound := s.recvInt (w.chans c).handle [⟨msg, 24⟩, ⟨req, UInt64.ofNat reqLen⟩] w
  have generic : trustyErrGeneric < 0 := by decide
  have header : sizeofStorageMsg = 24 := rfl
  unfold proxyReadRequest callbackTransport at h
  cases hrecv : s.dev.recv (w.chans c).handle [⟨msg, 24⟩, ⟨req, UInt64.ofNat reqLen⟩] w with
  | mk r w₁ =>
    rw [hrecv] at received bound
    simp only [hrecv, Bool.false_eq_true, if_false, Option.bind_eq_bind, Option.bind_some] at h
    split at h
    next negative =>
      cases h
      exact ⟨rc, received, Or.inl ⟨negative, by omega⟩⟩
    next positive =>
      have small : r < 2 ^ 31 := bound
      have cast := intToUsize_of_nonneg (not_lt.mp positive) (by omega)
      split at h
      next short =>
        cases h
        exact ⟨r, received, Or.inl ⟨generic, by omega⟩⟩
      next long =>
        obtain ⟨rfl, rfl⟩ := Prod.mk.inj (Option.some.inj h)
        refine ⟨r, received, Or.inr ⟨?_, by omega⟩⟩
        rw [toInt_of_lt (by unfold usizeSub; omega)]
        omega

theorem proxyOnMessage_done {target : Target} {c : Component} {w w' : World ε} {rc : Int}
    (h : proxyOnMessage target (callbackTransport s.dev) s.rpmb c w = some (rc, w')) :
    s.MessageDone c w rc w' := by
  unfold proxyOnMessage at h
  obtain ⟨⟨n, w₁⟩, hread, h⟩ := Option.bind_eq_some_iff.mp h
  obtain ⟨r, received, outcome⟩ := s.did_proxyReadRequest hread
  have handle : (w₁.chans c).handle = (w.chans c).handle := by rw [received.chans]
  have closed := s.close (w.chans c).handle w₁
  simp only at h
  split at h
  next negative =>
    obtain ⟨rfl, rfl⟩ := Prod.mk.inj (Option.some.inj h)
    have short : r < sizeofStorageMsg := by
      rcases outcome with ⟨_, short⟩ | ⟨positive, _⟩
      · exact short
      · omega
    show s.MessageDone c w n ((s.dev.close (w₁.chans c).handle w₁).2.setHandle c 0)
    rw [handle]
    exact .unread negative short (received.trans closed)
  next positive =>
    have read : (sizeofStorageMsg : Int) ≤ r := by
      rcases outcome with ⟨negative, _⟩ | ⟨_, read⟩
      · omega
      · exact read
    obtain ⟨⟨r', w₂⟩, hreq, h⟩ := Option.bind_eq_some_iff.mp h
    obtain ⟨bytes, replied⟩ := s.did_proxyHandleReq hreq
    rw [handle] at replied
    have did := received.trans replied
    have handle₂ : (w₂.chans c).handle = (w.chans c).handle := by rw [did.chans]
    simp only at h
    split at h
    next negative =>
      obtain ⟨rfl, rfl⟩ := Prod.mk.inj (Option.some.inj h)
      show s.MessageDone c w r' ((s.dev.close (w₂.chans c).handle w₂).2.setHandle c 0)
      rw [handle₂]
      exact .unanswered negative read (did.trans (s.close (w.chans c).handle w₂))
    next sent =>
      cases h
      exact .answered read (not_lt.mp sent) did

end Surroundings

/-- An event's bit. -/
def IpcEvent.Has (e : IpcEvent) (bit : UInt32) : Prop := e.event &&& bit ≠ 0

instance (e : IpcEvent) (bit : UInt32) : Decidable (e.Has bit) :=
  inferInstanceAs (Decidable (_ ≠ _))

/-- An event that a channel with message handling takes for a message. -/
def IpcEvent.BringsMessage (e : IpcEvent) : Prop :=
  ¬e.Has ipcHandlePollError ∧ e.Has ipcHandlePollMsg

/-- An event that such a channel takes for a hangup. -/
def IpcEvent.HangsUp (e : IpcEvent) : Prop :=
  ¬e.Has ipcHandlePollError ∧ ¬e.Has ipcHandlePollMsg ∧ e.Has ipcHandlePollHup

namespace Surroundings

variable (s : Surroundings ε)

/-- All that a poll can do, by the event it gets. -/
inductive PollDone (w : World ε) : Int → World ε → Prop
  | failed {rc : Int} {w' : World ε} (did : Did s.log w w' [.event (.error rc)]) :
    PollDone w rc w'
  | ignored {e : IpcEvent} {rc : Int} {w' : World ε} (did : Did s.log w w' [.event (.ok e)])
    (fails : rc < 0 → e.Has ipcHandlePollError)
    (neither : ∀ c, chanOfCookie e.cookie = some c → (w.chans c).ops = .proxy →
      ¬e.BringsMessage ∧ ¬e.HangsUp) : PollDone w rc w'
  | completed {e : IpcEvent} {c : Component} {w₁ : World ε} (complete : Int)
    (did : Did s.log w w₁ [.event (.ok e)]) (chan : chanOfCookie e.cookie = some c)
    (sync : (w.chans c).ops = .sync)
    (closes : complete < 0 → e.HangsUp ∧ ¬e.Has ipcHandlePollReady) :
    PollDone w trustyEventHandled (w₁.setComplete c complete)
  | message {e : IpcEvent} {c : Component} {rc : Int} {w₁ w' : World ε}
    (did : Did s.log w w₁ [.event (.ok e)]) (chan : chanOfCookie e.cookie = some c)
    (proxy : (w.chans c).ops = .proxy) (brings : e.BringsMessage)
    (done : s.MessageDone c w₁ rc w') : PollDone w rc w'
  | hangup {e : IpcEvent} {c : Component} {w₁ : World ε}
    (did : Did s.log w w₁ [.event (.ok e)]) (chan : chanOfCookie e.cookie = some c)
    (proxy : (w.chans c).ops = .proxy) (hangs : e.HangsUp) :
    PollDone w trustyEventHandled (w₁.setHandle c 0)

theorem runCallback_none (event bit : UInt32) (c : Component) (w : World ε) :
    runCallback event bit none c w = some (0, w) := rfl

theorem runCallback_set {event bit : UInt32} (h : event &&& bit ≠ 0) (f : Callback ε)
    (c : Component) (w : World ε) : runCallback event bit (some f) c w = f c w := if_pos h

theorem runCallback_clear {event bit : UInt32} (h : ¬event &&& bit ≠ 0) (f : Callback ε)
    (c : Component) (w : World ε) : runCallback event bit (some f) c w = some (0, w) := if_neg h

/-- A callback's result ends the poll unless it is zero. -/
def unlessHandled (first : Option (Int × World ε)) (rest : World ε → Option (Int × World ε)) :
    Option (Int × World ε) := do
  let (rc, w) ← first
  if rc ≠ 0 then some (rc, w) else rest w

theorem unlessHandled_zero (w : World ε) (rest : World ε → Option (Int × World ε)) :
    unlessHandled (some (0, w)) rest = rest w := rfl

/-- What follows the lookup of an event's channel. -/
def dispatch (table : Ops → TrustyIpcOps ε) (e : IpcEvent) (chan : Component) (w : World ε) :
    Option (Int × World ε) :=
  let ops := fun w : World ε => table (w.chans chan).ops
  let raw :=
    match (ops w).onRawEvent with
    | some f => f e chan w
    | none => some (0, w)
  unlessHandled raw fun w =>
    if e.event &&& ipcHandlePollError ≠ 0 then some (trustyErrGeneric, w)
    else unlessHandled
      (runCallback e.event ipcHandlePollSendUnblocked (ops w).onSendUnblocked chan w) fun w =>
      unlessHandled (runCallback e.event ipcHandlePollReady (ops w).onConnectComplete chan w)
        fun w => unlessHandled (runCallback e.event ipcHandlePollMsg (ops w).onMessage chan w)
          fun w => unlessHandled (runCallback e.event ipcHandlePollHup (ops w).onDisconnect chan w)
            fun w => some (trustyErrNone, w)

theorem poll_eq (dev : Device ε) (table : Ops → TrustyIpcOps ε) (w : World ε) :
    trustyIpcPollForEvent dev table w = match dev.getEvent 0 w with
      | (.error rc, w₁) => some (rc, w₁)
      | (.ok e, w₁) => if e.event = 0 then some (trustyEventNone, w₁)
        else (chanOfCookie e.cookie).bind fun c => dispatch table e c w₁ := by
  unfold trustyIpcPollForEvent
  cases get : dev.getEvent 0 w with
  | mk evt w₁ =>
    cases evt with
    | error err => rfl
    | ok e =>
      simp only
      split
      next => rfl
      next =>
        cases chanOfCookie e.cookie with
        | none => rfl
        | some c =>
          show _ = dispatch table e c w₁
          unfold dispatch
          cases raw : (table (w₁.chans c).ops).onRawEvent with
          | none => simp only [Option.bind_eq_bind, Option.bind_some, raw]; rfl
          | some f => simp only [Option.bind_eq_bind, Option.bind_some, raw]; rfl

/-- The default callbacks record a completion, and its kind depends on the event's bits only. -/
theorem dispatch_syncOps {table : Ops → TrustyIpcOps ε} {e : IpcEvent} {c : Component}
    {w : World ε} (sync : table (w.chans c).ops = syncIpcOps) :
    dispatch table e c w = some (
      if e.Has ipcHandlePollError then (trustyErrGeneric, w)
      else if e.Has ipcHandlePollReady ∨ e.Has ipcHandlePollMsg then
        (trustyEventHandled, w.setComplete c 1)
      else if e.Has ipcHandlePollHup then
        (trustyEventHandled, w.setComplete c trustyErrChannelClosed)
      else (trustyErrNone, w)) := by
  simp only [dispatch, sync, syncIpcOps, unlessHandled_zero, runCallback_none]
  by_cases error : e.Has ipcHandlePollError
  · have set : e.event &&& ipcHandlePollError ≠ 0 := error
    rw [if_pos set, if_pos error]
  · have clear : ¬e.event &&& ipcHandlePollError ≠ 0 := error
    rw [if_neg clear, if_neg error]
    by_cases ready : e.Has ipcHandlePollReady
    · rw [if_pos (Or.inl ready), runCallback_set ready]
      rfl
    · simp only [runCallback_clear ready, unlessHandled_zero, sync, syncIpcOps, ready, false_or]
      by_cases msg : e.Has ipcHandlePollMsg
      · rw [if_pos msg, runCallback_set msg]
        rfl
      · simp only [runCallback_clear msg, unlessHandled_zero, sync, syncIpcOps, if_neg msg]
        by_cases hup : e.Has ipcHandlePollHup
        · rw [if_pos hup, runCallback_set hup]
          rfl
        · rw [if_neg hup, runCallback_clear hup]
          rfl

theorem dispatch_sync {target : Target} {e : IpcEvent} {c : Component} {w : World ε}
    (sync : (w.chans c).ops = .sync) :
    (∃ rc, (rc < 0 → e.Has ipcHandlePollError) ∧ dispatch (s.ops target) e c w = some (rc, w)) ∨
      ∃ complete, (complete < 0 → e.HangsUp ∧ ¬e.Has ipcHandlePollReady) ∧
        dispatch (s.ops target) e c w = some (trustyEventHandled, w.setComplete c complete) := by
  have table : s.ops target (w.chans c).ops = syncIpcOps := by
    rw [sync]
    rfl
  rw [dispatch_syncOps table]
  by_cases error : e.Has ipcHandlePollError
  · rw [if_pos error]
    exact Or.inl ⟨_, fun _ => error, rfl⟩
  · rw [if_neg error]
    by_cases message : e.Has ipcHandlePollReady ∨ e.Has ipcHandlePollMsg
    · rw [if_pos message]
      exact Or.inr ⟨1, nofun, rfl⟩
    · obtain ⟨ready, msg⟩ := not_or.mp message
      rw [if_neg message]
      by_cases hup : e.Has ipcHandlePollHup
      · rw [if_pos hup]
        exact Or.inr ⟨trustyErrChannelClosed, fun _ => ⟨⟨error, msg, hup⟩, ready⟩, rfl⟩
      · rw [if_neg hup]
        exact Or.inl ⟨trustyErrNone, nofun, rfl⟩

theorem dispatch_proxy {target : Target} {e : IpcEvent} {c : Component} {w w' : World ε} {rc : Int}
    (proxy : (w.chans c).ops = .proxy) (h : dispatch (s.ops target) e c w = some (rc, w')) :
    (w' = w ∧ (rc < 0 → e.Has ipcHandlePollError) ∧ ¬e.BringsMessage ∧ ¬e.HangsUp) ∨
      (e.BringsMessage ∧
        proxyOnMessage target (callbackTransport s.dev) s.rpmb c w = some (rc, w')) ∨
      (e.HangsUp ∧ rc = trustyEventHandled ∧ w' = w.setHandle c 0) := by
  have table : s.ops target (w.chans c).ops = proxyOps target s.dev s.rpmb := by
    rw [proxy]
    rfl
  simp only [dispatch, table, proxyOps, unlessHandled_zero, runCallback_none] at h
  by_cases error : e.event &&& ipcHandlePollError ≠ 0
  · rw [if_pos error] at h
    cases h
    exact Or.inl ⟨rfl, fun _ => error, fun brings => brings.1 error, fun hangs => hangs.1 error⟩
  · simp only [if_neg error] at h
    by_cases msg : e.event &&& ipcHandlePollMsg ≠ 0
    · rw [runCallback_set msg] at h
      right
      left
      refine ⟨⟨error, msg⟩, ?_⟩
      obtain ⟨⟨rc₁, w₁⟩, run, h⟩ := Option.bind_eq_some_iff.mp h
      have nonzero : rc₁ ≠ 0 := by
        cases s.proxyOnMessage_done run with
        | answered => decide
        | unread negative => exact ne_of_lt negative
        | unanswered negative => exact ne_of_lt negative
      change (if rc₁ ≠ 0 then some (rc₁, w₁) else _) = some (rc, w') at h
      rw [if_pos nonzero] at h
      cases h
      exact run
    · simp only [runCallback_clear msg, unlessHandled_zero, table, proxyOps] at h
      by_cases hup : e.event &&& ipcHandlePollHup ≠ 0
      · rw [runCallback_set hup] at h
        cases h
        exact Or.inr (Or.inr ⟨⟨error, msg, hup⟩, rfl, rfl⟩)
      · rw [runCallback_clear hup] at h
        cases h
        exact Or.inl ⟨rfl, nofun, fun brings => msg brings.2, fun hangs => hup hangs.2.2⟩

/-- A poll gets an event, and dispatches it unless there is nothing in it. -/
theorem poll_dispatches {target : Target} {w w' : World ε} {rc : Int}
    (h : trustyIpcPollForEvent s.dev (s.ops target) w = some (rc, w')) :
    s.dev.getEvent 0 w = (.error rc, w') ∨ ∃ e w₁, s.dev.getEvent 0 w = (.ok e, w₁) ∧
      (e.event = 0 ∧ rc = trustyEventNone ∧ w' = w₁ ∨ ∃ c, chanOfCookie e.cookie = some c ∧
        dispatch (s.ops target) e c w₁ = some (rc, w')) := by
  rw [poll_eq] at h
  split at h
  next get =>
    cases h
    exact Or.inl get
  next e w₁ get =>
    refine Or.inr ⟨e, w₁, get, ?_⟩
    split at h
    next idle =>
      cases h
      exact Or.inl ⟨idle, rfl, rfl⟩
    next =>
      obtain ⟨c, chan, h⟩ := Option.bind_eq_some_iff.mp h
      exact Or.inr ⟨c, chan, h⟩

/-- The one step lemma about polls: later invariants are derived from its cases. -/
theorem poll_done {target : Target} {w w' : World ε} {rc : Int}
    (h : trustyIpcPollForEvent s.dev (s.ops target) w = some (rc, w')) : s.PollDone w rc w' := by
  have got := s.getEvent 0 w
  rcases s.poll_dispatches h with error | ⟨e, w₁, event, ⟨idle, rfl, rfl⟩ | ⟨c, chan, run⟩⟩
  · rw [error] at got
    exact .failed got
  · rw [event] at got
    refine .ignored got nofun fun c _ _ => ⟨fun brings => brings.2 ?_, fun hangs => hangs.2.2 ?_⟩
    · rw [idle, UInt32.zero_and]
    · rw [idle, UInt32.zero_and]
  · rw [event] at got
    have same : (w₁.chans c).ops = (w.chans c).ops := by rw [got.chans]
    cases hops : (w.chans c).ops with
    | sync =>
      have other : ∀ c', chanOfCookie e.cookie = some c' → (w.chans c').ops = .proxy →
          ¬e.BringsMessage ∧ ¬e.HangsUp := by
        intro c' chan' proxy
        rw [chan] at chan'
        cases chan'
        rw [hops] at proxy
        cases proxy
      rcases s.dispatch_sync (same.trans hops) with
        ⟨rc₁, fails, plain⟩ | ⟨complete, closes, plain⟩
      · rw [plain] at run
        cases run
        exact .ignored got fails other
      · rw [plain] at run
        cases run
        exact .completed complete got chan hops closes
    | proxy =>
      rcases s.dispatch_proxy (same.trans hops) run with
        ⟨rfl, fails, neither⟩ | ⟨brings, handled⟩ | ⟨hangs, rfl, rfl⟩
      · refine .ignored got fails fun c' chan' _ => ?_
        rw [chan] at chan'
        cases chan'
        exact neither
      · exact .message got chan hops brings (s.proxyOnMessage_done handled)
      · exact .hangup got chan hops hangs

/-- The calls from one world to a later one. -/
def callsSince (w w' : World ε) : List OsCall := (s.log w'.env).drop (s.log w.env).length

theorem callsSince_eq {w w' : World ε} {calls : List OsCall}
    (h : s.log w'.env = s.log w.env ++ calls) : s.callsSince w w' = calls := by
  unfold callsSince
  rw [h, List.drop_left]

/-- A property that the calls of `trusty_ipc.h` keep, those that open and close channels apart. -/
structure Stable (P : World ε → Prop) : Prop where
  quiet : ∀ {w w' : World ε}, Did s.log w w' [] → P w → P w'
  poll : ∀ {w w' : World ε} {rc : Int}, s.PollDone w rc w' → P w → P w'
  complete : ∀ {w : World ε} (c : Component) (complete : Int), P w → P (w.setComplete c complete)
  send : ∀ {w w' : World ε} {c : Component} {rc : Int} {msg : List UInt8},
    Did s.log w w' [.send (w.chans c).handle rc msg] → P w → P w'
  recv : ∀ {w w' : World ε} {c : Component} {rc : Int},
    Did s.log w w' [.recv (w.chans c).handle rc] → P w → P w'

section Waits

variable {s} {P : World ε → Prop} {target : Target} {c : Component} {w w' : World ε} {rc : Int}

/-- A wait keeps what polls keep, and what the look for further events keeps. -/
theorem waitLoop_keeps (quiet : ∀ {w w' : World ε}, Did s.log w w' [] → P w → P w')
    (poll : ∀ {w w' : World ε} {rc : Int}, s.PollDone w rc w' → P w → P w') {fuel : Nat}
    (h : waitLoop s.dev (s.ops target) c fuel w = some (rc, w')) (hw : P w) : P w' := by
  induction fuel generalizing w with
  | zero => cases h
  | succ fuel ih =>
    obtain ⟨⟨rc₁, w₁⟩, polled, h⟩ := Option.bind_eq_some_iff.mp h
    have hw₁ := poll (s.poll_done polled) hw
    simp only at h
    split at h
    next =>
      cases h
      exact hw₁
    next =>
      split at h
      next =>
        cases h
        exact hw₁
      next =>
        split at h
        next =>
          have hw₂ := quiet (s.hasEvent 0 w₁) hw₁
          apply ih h
          split
          next => exact hw₂
          next => exact quiet (s.idle _) hw₂
        next => exact ih h hw₁

theorem Stable.waitForComplete (hP : s.Stable P) {fuel : Nat}
    (h : waitForComplete s.dev (s.ops target) fuel c w = some (rc, w')) (hw : P w) : P w' :=
  waitLoop_keeps hP.quiet hP.poll h (hP.complete c 0 hw)

theorem Stable.trustyIpcSend (hP : s.Stable P) {fuel : Nat} {iovs : List Iovec} {wait : Bool}
    (h : trustyIpcSend s.dev (s.ops target) fuel c iovs wait w = some (rc, w')) (hw : P w) :
    P w' := by
  induction fuel generalizing w with
  | zero => cases h
  | succ fuel ih =>
    have hw₁ := hP.send (s.send (w.chans c).handle iovs w) hw
    unfold ExternalTrusty.trustyIpcSend at h
    simp only at h
    split at h
    next =>
      obtain ⟨⟨rc₂, w₂⟩, waited, h⟩ := Option.bind_eq_some_iff.mp h
      have hw₂ := hP.waitForComplete waited hw₁
      simp only at h
      split at h
      next =>
        cases h
        exact hw₂
      next => exact ih h hw₂
    next =>
      cases h
      exact hw₁

theorem Stable.trustyIpcRecv (hP : s.Stable P) {fuel : Nat} {iovs : List Iovec} {wait : Bool}
    (h : trustyIpcRecv s.dev (s.ops target) fuel c iovs wait w = some (rc, w')) (hw : P w) :
    P w' := by
  unfold ExternalTrusty.trustyIpcRecv at h
  split at h
  next =>
    obtain ⟨⟨rc₁, w₁⟩, waited, h⟩ := Option.bind_eq_some_iff.mp h
    have hw₁ := hP.waitForComplete waited hw
    simp only at h
    split at h
    next =>
      cases h
      exact hw₁
    next =>
      have hw₂ := hP.recv (s.recv (w₁.chans c).handle iovs w₁) hw₁
      rw [Option.some.inj h] at hw₂
      exact hw₂
  next =>
    have hw₁ := hP.recv (s.recv (w.chans c).handle iovs w) hw
    rw [Option.some.inj h] at hw₁
    exact hw₁

end Waits

end Surroundings

end ExternalTrusty
