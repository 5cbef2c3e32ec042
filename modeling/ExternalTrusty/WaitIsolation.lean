import ExternalTrusty.Dispatch
import ExternalTrusty.RecvBounds

namespace ExternalTrusty

open CMemory Surroundings

variable {ε σ : Type}

/-- The same of the memory and the RPMB device too. -/
structure Keeps (dev : Device ε) (rpmb : RpmbDevice ε) (R : World ε → World ε → Prop) : Prop
    extends dev.Keeps R where
  setMem : ∀ w m, R w (w.setMem m)
  storageSend : ∀ rel relSize wr wrSize buf size w,
    R w (rpmb.storageSend rel relSize wr wrSize buf size w).2

section Callbacks

variable {dev : Device ε} {rpmb : RpmbDevice ε} {target : Target} {R : World ε → World ε → Prop}
  {c : Component}

theorem Keeps.proxySendResponse (keeps : Keeps dev rpmb R) {msg : Ptr Obj}
    {resp : Option (Ptr Obj)} {respLen : Nat} {w w' : World ε} {rc : Int}
    (h : proxySendResponse (callbackTransport dev) c msg resp respLen w = some (rc, w')) :
    R w w' := by
  have sent := keeps.send (w.chans c).handle (twoIovs msg 24 resp (UInt64.ofNat respLen))
    (w.setMem (w.mem.store msg 4 (w.mem.load msg 4 ||| storageRespBit)))
  rw [show dev.send (w.chans c).handle _ _ = (rc, w') from Option.some.inj h] at sent
  exact keeps.trans (keeps.setMem w _) sent

theorem Keeps.errResponse (keeps : Keeps dev rpmb R) {msg : Ptr Obj} {result : Nat}
    {w w' : World ε} {rc : Int}
    (h : errResponse (callbackTransport dev) c msg result w = some (rc, w')) : R w w' :=
  keeps.trans (keeps.setMem w _) (keeps.proxySendResponse h)

theorem Keeps.proxyHandleReq (keeps : Keeps dev rpmb R) {msg req : Ptr Obj} {reqLen : Nat}
    {w w' : World ε} {rc : Int}
    (h : proxyHandleReq target (callbackTransport dev) rpmb c msg req reqLen w = some (rc, w')) :
    R w w' := by
  rcases proxyHandleReq_outcome h with ⟨_, refused⟩ | ⟨rel, relSize, wr, wrSize, readSize, executed⟩
  · exact keeps.errResponse refused
  · have stored := keeps.storageSend rel relSize wr wrSize readBuf readSize w
    unfold proxyExecute at executed
    simp only at executed
    split at executed
    next => exact keeps.trans stored (keeps.errResponse executed)
    next =>
      exact keeps.trans stored (keeps.trans (keeps.setMem _ _) (keeps.proxySendResponse executed))

theorem Keeps.proxyReadRequest (keeps : Keeps dev rpmb R) {msg req : Ptr Obj} {reqLen : Nat}
    {w w' : World ε} {rc : Int}
    (h : proxyReadRequest (callbackTransport dev) c msg req reqLen w = some (rc, w')) :
    R w w' := by
  have received := keeps.recv (w.chans c).handle [⟨msg, 24⟩, ⟨req, UInt64.ofNat reqLen⟩] w
  unfold ExternalTrusty.proxyReadRequest callbackTransport at h
  simp only [Bool.false_eq_true, if_false, Option.bind_eq_bind, Option.bind_some] at h
  split at h
  next =>
    cases h
    exact received
  next =>
    split at h
    next =>
      cases h
      exact received
    next =>
      obtain ⟨_, rfl⟩ := Prod.mk.inj (Option.some.inj h)
      exact received

theorem Keeps.proxyOnMessage (keeps : Keeps dev rpmb R)
    (setHandle : ∀ w, R w (w.setHandle c 0)) :
    Callback.Keeps (proxyOnMessage target (callbackTransport dev) rpmb) R c := by
  intro w rc w' h
  have closes : ∀ v : World ε, R v (trustyIpcClose dev c v).2 := fun v =>
    keeps.trans (keeps.close (v.chans c).handle v) (setHandle _)
  unfold ExternalTrusty.proxyOnMessage at h
  obtain ⟨⟨n, w₁⟩, read, h⟩ := Option.bind_eq_some_iff.mp h
  have received := keeps.proxyReadRequest read
  simp only at h
  split at h
  next =>
    cases h
    exact keeps.trans received (closes w₁)
  next =>
    obtain ⟨⟨r, w₂⟩, handled, h⟩ := Option.bind_eq_some_iff.mp h
    have answered := keeps.trans received (keeps.proxyHandleReq handled)
    simp only at h
    split at h
    next =>
      cases h
      exact keeps.trans answered (closes w₂)
    next =>
      cases h
      exact answered

/-- What the devices keep is kept by the program's callbacks, if writes to the channel keep it. -/
theorem Keeps.opsTable (keeps : Keeps dev rpmb R) (setHandle : ∀ w, R w (w.setHandle c 0))
    (setComplete : ∀ w complete, R w (w.setComplete c complete)) (o : Ops) :
    (opsTable target dev rpmb o).Keeps R c := by
  have completes : ∀ complete, Callback.Keeps
      (fun c (w : World ε) => some (trustyEventHandled, w.setComplete c complete)) R c := by
    intro complete w rc w' run
    obtain ⟨_, rfl⟩ := Prod.mk.inj (Option.some.inj run)
    exact setComplete w complete
  cases o with
  | sync =>
    refine ⟨nofun, ?_, nofun, ?_, ?_⟩
    · intro f mem
      cases mem
      exact completes 1
    · intro f mem
      cases mem
      exact completes 1
    · intro f mem
      cases mem
      exact completes trustyErrChannelClosed
  | proxy =>
    refine ⟨nofun, nofun, nofun, ?_, ?_⟩
    · intro f mem
      cases mem
      exact keeps.proxyOnMessage setHandle
    · intro f mem
      cases mem
      intro w rc w' run
      obtain ⟨_, rfl⟩ := Prod.mk.inj (Option.some.inj run)
      exact setHandle w

theorem sameChan_keeps (hdev : dev.Discreet) (hrpmb : rpmb.Discreet) (X : Component) :
    Keeps dev rpmb (SameChan X) where
  toKeeps := hdev.keeps X
  setMem _ _ := rfl
  storageSend rel relSize wr wrSize buf size w :=
    congrFun (hrpmb rel relSize wr wrSize buf size w).chans X

/-- The callbacks of the program only write the channel they are called for. -/
theorem opsTable_spares (hdev : dev.Discreet) (hrpmb : rpmb.Discreet) (X : Component) (o : Ops) :
    (ExternalTrusty.opsTable target dev rpmb o).Spares X := fun _ other =>
  (sameChan_keeps hdev hrpmb X).opsTable
    (fun _ => Function.update_of_ne (Ne.symm other) _ _)
    (fun _ _ => Function.update_of_ne (Ne.symm other) _ _) o

end Callbacks

theorem getEvent_error_neg {os : SecureOs σ} {dev : IpcDev} {chan : UInt32} {rc : Int}
    {w w' : World (DevEnv σ)} (h : trustyIpcDevGetEvent os dev chan w = (.error rc, w')) :
    rc < 0 := by
  have secos : trustyErrSecosErr < 0 := by decide
  unfold trustyIpcDevGetEvent at h
  simp only at h
  split at h
  next =>
    cases h
    exact secos
  next =>
    split at h
    next failed =>
      rw [← Except.error.inj (Prod.mk.inj h).1, checkResponse_ne_none failed]
      exact secos
    next =>
      split at h
      next =>
        cases h
        exact secos
      next => cases h

/-- A wait of a channel with the default operations is over at the first poll that fails or brings
the channel an event which completes it, and nothing else ends it. -/
theorem waitForComplete_iff {os : SecureOs σ} {dev : IpcDev} {table : Ops → TrustyIpcOps (DevEnv σ)}
    {X : Component} {w : World (DevEnv σ)} (sync : table .sync = syncIpcOps)
    (spares : ∀ o, (table o).Spares X) (ops : (w.chans X).ops = .sync) :
    (∀ fuel r w', waitForComplete (trustyIpcDevice os dev) table fuel X w = some (r, w') ↔
      ∃ before last w₁, Polls (trustyIpcDevice os dev) table (w.setComplete X 0) before w₁ ∧
        (∀ o ∈ before, o.ends X = none) ∧
        PolledWith (trustyIpcDevice os dev) table w₁ last w' ∧ last.ends X = some r ∧
        before.length < fuel) ∧
      ∀ rc w₁ w₂, PolledWith (trustyIpcDevice os dev) table w₁ (.failed rc) w₂ → rc < 0 := by
  constructor
  · intro fuel r w'
    exact waitLoop_iff (trustyIpcDevice_discreet os dev) spares sync (by rw [setComplete_ops, ops])
      (by simp [World.setComplete])
  · intro rc w₁ w₂ polled
    cases polled with
    | failed get => exact getEvent_error_neg get

/-- The answer to a command, with its header. -/
def reply (opcode handle : Nat) (payload : List UInt8) : Nat → UInt8 := fun i =>
  (leBytes 2 (opcode ||| qlTipcDevResp) ++ [0, 0] ++ leBytes 4 0 ++ leBytes 4 handle ++
    leBytes 4 payload.length ++ payload).getD i 0

/-- A secure OS that grants this handle, has some events, and accepts whatever else comes. -/
def eventOs (handle : Nat) : SecureOs (List IpcEvent) where
  exec smc events :=
    let opcode := smc.page.load cmdOpcode 2
    if opcode = qlTipcDevGetEvent then
      let e := events.headD ⟨0, 0, 0⟩
      (0, reply opcode 0
        (leBytes 4 e.event.toNat ++ leBytes 4 e.handle.toNat ++ leBytes 8 e.cookie.toNat),
        events.tail)
    else (0, reply opcode handle [0], events)

/-- A device over one page. -/
def onePage : IpcDev where
  bufSize := 4096
  bufId := 0
  aligned := rfl
  positive := Nat.zero_lt_succ 4095

def noRpmb : RpmbDevice ε where
  storageSend _ _ _ _ _ _ w := (trustyErrGeneric, w)

def eventDevice (handle : Nat) : Device (DevEnv (List IpcEvent)) :=
  trustyIpcDevice (eventOs handle) onePage

def eventOps (handle : Nat) : Ops → TrustyIpcOps (DevEnv (List IpcEvent)) :=
  opsTable .bits64 (eventDevice handle) noRpmb

theorem eventOps_spares (handle : Nat) (X : Component) (o : Ops) :
    (eventOps handle o).Spares X :=
  opsTable_spares (trustyIpcDevice_discreet _ onePage) (fun _ _ _ _ _ _ _ => .refl _) X o

def eventWorld (events : List IpcEvent) : World (DevEnv (List IpcEvent)) where
  mem := ⟨fun _ _ => 0, []⟩
  chans := fun _ => ⟨5, 0, .sync⟩
  initialized := fun _ => false
  env := ⟨⟨fun _ _ => 0, []⟩, [], events⟩

/-- A message for another channel passes; a connection that is hung up already is reported. -/
theorem readyAndHup_returns : ∃ before last w₁ w',
    Polls (eventDevice 5) (eventOps 5) ((eventWorld [⟨8, 5, 2⟩, ⟨5, 5, 1⟩]).setComplete .avb 0)
      before w₁ ∧ (∀ o ∈ before, o.ends .avb = none) ∧
    PolledWith (eventDevice 5) (eventOps 5) w₁ last w' ∧ last.ends .avb = some 1 ∧
      before.length < 2 := by
  obtain ⟨w', run⟩ : ∃ w', waitForComplete (eventDevice 5) (eventOps 5) 2 .avb
      (eventWorld [⟨8, 5, 2⟩, ⟨5, 5, 1⟩]) = some (1, w') := ⟨_, rfl⟩
  obtain ⟨before, last, w₁, described⟩ :=
    ((waitForComplete_iff rfl (eventOps_spares 5 .avb) rfl).1 2 1 w').mp run
  exact ⟨before, last, w₁, w', described⟩

section Unblocked

variable {dev : Device ε} {table : Ops → TrustyIpcOps ε} {X : Component}

end Unblocked

end ExternalTrusty
