import ExternalTrusty.RpmbProxy

namespace ExternalTrusty

open CMemory

variable {ε σ : Type}

def ipcHandlePollReady : UInt32 := 0x1
def ipcHandlePollError : UInt32 := 0x2
def ipcHandlePollHup : UInt32 := 0x4
def ipcHandlePollMsg : UInt32 := 0x8
def ipcHandlePollSendUnblocked : UInt32 := 0x10

/-- The functions of `ipc_dev.c` that `ipc.c` calls. -/
structure Device (ε : Type) where
  connect : CString → UInt64 → World ε → Int × World ε
  close : UInt32 → World ε → Int × World ε
  hasEvent : UInt32 → World ε → Bool × World ε
  getEvent : UInt32 → World ε → Except Int IpcEvent × World ε
  send : UInt32 → List Iovec → World ε → Int × World ε
  recv : UInt32 → List Iovec → World ε → Int × World ε
  idle : World ε → World ε

/-- Waiting idly changes nothing that the program could see. -/
def trustyIpcDevice (os : SecureOs σ) (dev : IpcDev) : Device (DevEnv σ) where
  connect := trustyIpcDevConnect os dev
  close := trustyIpcDevClose os dev
  hasEvent := trustyIpcDevHasEvent os dev
  getEvent := trustyIpcDevGetEvent os dev
  send := trustyIpcDevSend os dev
  recv := trustyIpcDevRecv os dev
  idle := id

/-- The address of a component's channel, which it passes as the cookie. -/
def chanCookie : Component → UInt64
  | .avb => 1
  | .km => 2
  | .hwbcc => 3
  | .proxy => 4

def chanOfCookie (cookie : UInt64) : Option Component :=
  [Component.avb, .km, .hwbcc, .proxy].find? fun c => chanCookie c = cookie

def World.setHandle (w : World ε) (c : Component) (handle : UInt32) : World ε :=
  { w with chans := Function.update w.chans c { w.chans c with handle := handle } }

def World.setComplete (w : World ε) (c : Component) (complete : Int) : World ε :=
  { w with chans := Function.update w.chans c { w.chans c with complete := complete } }

@[simp]
theorem setHandle_ops (w : World ε) (c d : Component) (handle : UInt32) :
    ((w.setHandle c handle).chans d).ops = (w.chans d).ops := by
  by_cases hd : d = c
  · subst hd
    simp [World.setHandle]
  · simp [World.setHandle, Function.update_of_ne hd]

@[simp]
theorem setComplete_ops (w : World ε) (c d : Component) (complete : Int) :
    ((w.setComplete c complete).chans d).ops = (w.chans d).ops := by
  by_cases hd : d = c
  · subst hd
    simp [World.setComplete]
  · simp [World.setComplete, Function.update_of_ne hd]

@[simp]
theorem setComplete_handle (w : World ε) (c d : Component) (complete : Int) :
    ((w.setComplete c complete).chans d).handle = (w.chans d).handle := by
  by_cases hd : d = c
  · subst hd
    simp [World.setComplete]
  · simp [World.setComplete, Function.update_of_ne hd]

abbrev Callback (ε : Type) := Component → World ε → Option (Int × World ε)

/-- `struct trusty_ipc_ops`, any part of which may be null -/
structure TrustyIpcOps (ε : Type) where
  onRawEvent : Option (IpcEvent → Callback ε)
  onConnectComplete : Option (Callback ε)
  onSendUnblocked : Option (Callback ε)
  onMessage : Option (Callback ε)
  onDisconnect : Option (Callback ε)

def syncIpcOnConnectComplete : Callback ε := fun chan w =>
  some (trustyEventHandled, w.setComplete chan 1)

def syncIpcOnMessage : Callback ε := fun chan w =>
  some (trustyEventHandled, w.setComplete chan 1)

def syncIpcOnDisconnect : Callback ε := fun chan w =>
  some (trustyEventHandled, w.setComplete chan trustyErrChannelClosed)

def syncIpcOps : TrustyIpcOps ε where
  onRawEvent := none
  onConnectComplete := some syncIpcOnConnectComplete
  onSendUnblocked := none
  onMessage := some syncIpcOnMessage
  onDisconnect := some syncIpcOnDisconnect

def trustyIpcClose (dev : Device ε) (chan : Component) (w : World ε) : Int × World ε :=
  let (rc, w) := dev.close (w.chans chan).handle w
  (rc, w.setHandle chan 0)

/-- What a callback may do on a channel: it must not wait. -/
def callbackTransport (dev : Device ε) : Transport ε where
  connect _ _ _ := none
  close := trustyIpcClose dev
  send chan iovs wait w := if wait then none else some (dev.send (w.chans chan).handle iovs w)
  recv chan iovs wait w := if wait then none else some (dev.recv (w.chans chan).handle iovs w)

def proxyOps (target : Target) (dev : Device ε) (rpmb : RpmbDevice ε) : TrustyIpcOps ε where
  onRawEvent := none
  onConnectComplete := none
  onSendUnblocked := none
  onMessage := some (proxyOnMessage target (callbackTransport dev) rpmb)
  onDisconnect := some fun chan w => some (proxyOnDisconnect chan w)

def opsTable (target : Target) (dev : Device ε) (rpmb : RpmbDevice ε) : Ops → TrustyIpcOps ε
  | .sync => syncIpcOps
  | .proxy => proxyOps target dev rpmb

/-- A callback runs when its bit is set and it is there; it has handled the event when it
returns anything but zero. -/
def runCallback (event bit : UInt32) (callback : Option (Callback ε)) : Callback ε := fun chan w =>
  match callback with
  | some f => if event &&& bit ≠ 0 then f chan w else some (0, w)
  | none => some (0, w)

def trustyIpcPollForEvent (dev : Device ε) (ops : Ops → TrustyIpcOps ε) (w : World ε) :
    Option (Int × World ε) := do
  let (evt, w) := dev.getEvent 0 w
  match evt with
  | .error rc => some (rc, w)
  | .ok evt =>
    if evt.event = 0 then some (trustyEventNone, w)
    else
      let chan ← chanOfCookie evt.cookie
      let ops := fun w : World ε => ops (w.chans chan).ops
      let (rc, w) ←
        match (ops w).onRawEvent with
        | some f => f evt chan w
        | none => some (0, w)
      if rc ≠ 0 then some (rc, w)
      else if evt.event &&& ipcHandlePollError ≠ 0 then some (trustyErrGeneric, w)
      else
        let (rc, w) ←
          runCallback evt.event ipcHandlePollSendUnblocked (ops w).onSendUnblocked chan w
        if rc ≠ 0 then some (rc, w)
        else
          let (rc, w) ← runCallback evt.event ipcHandlePollReady (ops w).onConnectComplete chan w
          if rc ≠ 0 then some (rc, w)
          else
            let (rc, w) ← runCallback evt.event ipcHandlePollMsg (ops w).onMessage chan w
            if rc ≠ 0 then some (rc, w)
            else
              let (rc, w) ← runCallback evt.event ipcHandlePollHup (ops w).onDisconnect chan w
              if rc ≠ 0 then some (rc, w) else some (trustyErrNone, w)

/-- The loop of `wait_for_complete`. -/
def waitLoop (dev : Device ε) (ops : Ops → TrustyIpcOps ε) (chan : Component) :
    Nat → World ε → Option (Int × World ε)
  | 0, _ => none
  | fuel + 1, w => do
    let (rc, w) ← trustyIpcPollForEvent dev ops w
    if rc < 0 then some (rc, w)
    else if (w.chans chan).complete ≠ 0 then some ((w.chans chan).complete, w)
    else if rc = trustyEventNone then
      let (more, w) := dev.hasEvent 0 w
      waitLoop dev ops chan fuel (if more then w else dev.idle w)
    else waitLoop dev ops chan fuel w

def waitForComplete (dev : Device ε) (ops : Ops → TrustyIpcOps ε) (fuel : Nat)
    (chan : Component) (w : World ε) : Option (Int × World ε) :=
  waitLoop dev ops chan fuel (w.setComplete chan 0)

def trustyIpcConnect (dev : Device ε) (ops : Ops → TrustyIpcOps ε) (fuel : Nat)
    (chan : Component) (port : CString) (wait : Bool) (w : World ε) : Option (Int × World ε) := do
  let (rc, w) := dev.connect port (chanCookie chan) w
  if rc < 0 then some (rc, w)
  else
    let w := w.setHandle chan (UInt32.ofNat (rc % 2 ^ 32).toNat)
    if wait then
      let (rc, w) ← waitForComplete dev ops fuel chan w
      if rc < 0 then some (rc, (trustyIpcClose dev chan w).2) else some (rc, w)
    else some (rc, w)

/-- A blocked send is tried again after each wait. -/
def trustyIpcSend (dev : Device ε) (ops : Ops → TrustyIpcOps ε) :
    Nat → Component → List Iovec → Bool → World ε → Option (Int × World ε)
  | 0, _, _, _, _ => none
  | fuel + 1, chan, iovs, wait, w => do
    let (rc, w) := dev.send (w.chans chan).handle iovs w
    if rc = trustyErrSendBlocked ∧ wait then
      let (rc, w) ← waitForComplete dev ops fuel chan w
      if rc < 0 then some (rc, w) else trustyIpcSend dev ops fuel chan iovs wait w
    else some (rc, w)

def trustyIpcRecv (dev : Device ε) (ops : Ops → TrustyIpcOps ε) (fuel : Nat) (chan : Component)
    (iovs : List Iovec) (wait : Bool) (w : World ε) : Option (Int × World ε) := do
  if wait then
    let (rc, w) ← waitForComplete dev ops fuel chan w
    if rc < 0 then some (rc, w) else some (dev.recv (w.chans chan).handle iovs w)
  else some (dev.recv (w.chans chan).handle iovs w)

/-- The channels as the components use them. -/
def ipcTransport (dev : Device ε) (ops : Ops → TrustyIpcOps ε) (fuel : Nat) : Transport ε where
  connect chan port := trustyIpcConnect dev ops fuel chan port true
  close := trustyIpcClose dev
  send := trustyIpcSend dev ops fuel
  recv := trustyIpcRecv dev ops fuel

/-- The loop of `rpmb_storage_proxy_init`, which handles the events that are already there. -/
def proxyDrain (dev : Device ε) (ops : Ops → TrustyIpcOps ε) :
    Nat → World ε → Option (Int × World ε)
  | 0, _ => none
  | fuel + 1, w => do
    let (rc, w) ← trustyIpcPollForEvent dev ops w
    if rc < 0 then some (rc, w)
    else if (w.chans .proxy).handle = 0 then some (trustyErrChannelClosed, w)
    else if rc ≠ trustyEventNone then proxyDrain dev ops fuel w
    else some (trustyErrNone, w)

def rpmbStorageProxyInit (dev : Device ε) (ops : Ops → TrustyIpcOps ε) (fuel : Nat)
    (w : World ε) : Option (Int × World ε) := do
  let (rc, w) ← trustyIpcConnect dev ops fuel .proxy storageDiskProxyPort true
    (trustyIpcChanInit .proxy w)
  if rc < 0 then some (rc, w)
  else
    let w := { w with
      chans := Function.update w.chans .proxy { w.chans .proxy with ops := .proxy } }
    let (rc, w) ← proxyDrain dev ops fuel w
    if rc < 0 then some (rc, w) else some (trustyErrNone, w.setInitialized .proxy true)

def rpmbStorageProxyShutdown (dev : Device ε) (w : World ε) : World ε :=
  (trustyIpcClose dev .proxy w).2.setInitialized .proxy false

end ExternalTrusty
