import ExternalTrusty.VirtioDevice
import ExternalTrusty.ControlQueue
import ExternalTrusty.ControlScan
import ExternalTrusty.Verdict

namespace ExternalTrusty.Console

open CProgram TestRunner

/-! `virtio-console.c`, with the users of its ports: `test-runner-comm-port.c`,
`test-runner-storage.c` and `boot` of `test-runner.c` -/

/-- What `virtio_probe_console` finds: a device, or none, and then how long the text is that it
logs. -/
inductive Probe
  | found
  | missing (text : Nat)

/-- What `boot` does with the console, apart from its start. -/
inductive ConsoleUse
  | log (size : Nat)
  | exit
  | storage (relWriteSize writeSize readSize : UInt64)
  | leave

/-- What the driver asks for that is no operation of the device: accesses to the memory of a queue
and to the control messages, and what depends on others. -/
inductive ConsoleOut
  | queue (vq : Vq) (o : VqOp)
  | probe
  | cmsg (idx : Fin vqSize)
  | testRequested
  | trustyReady
  | use

def ConsoleOut.Res : ConsoleOut → Type
  | .queue _ o => o.Res
  | .probe => Probe
  | .cmsg _ => Cmsg
  | .testRequested => Bool
  | .trustyReady => Bool
  | .use => ConsoleUse

abbrev ConsoleOp := VirtioOp ⊕ ConsoleOut
abbrev ConsoleRes := Beside VirtioOp.Res ConsoleOut.Res
abbrev ConsoleProg := Prog ConsoleOp ConsoleRes

def virtio (o : VirtioOp) : ConsoleProg o.Res := call (Sum.inl o)

/-- An access to a queue, of which only the kick is one to the device. -/
def queueOp (vq : Vq) : (o : VqOp) → ConsoleProg o.Res
  | .kick => virtio (.vqKick vq)
  | .setAddr i addr => call (Sum.inr (ConsoleOut.queue vq (.setAddr i addr)))
  | .setLen i len => call (Sum.inr (ConsoleOut.queue vq (.setLen i len)))
  | .flags i => call (Sum.inr (ConsoleOut.queue vq (.flags i)))
  | .availIdx => call (Sum.inr (ConsoleOut.queue vq .availIdx))
  | .setAvailRing slot i => call (Sum.inr (ConsoleOut.queue vq (.setAvailRing slot i)))
  | .setAvailIdx idx => call (Sum.inr (ConsoleOut.queue vq (.setAvailIdx idx)))
  | .usedIdx => call (Sum.inr (ConsoleOut.queue vq .usedIdx))
  | .usedLen slot => call (Sum.inr (ConsoleOut.queue vq (.usedLen slot)))
  | .oldUsedIdx => call (Sum.inr (ConsoleOut.queue vq .oldUsedIdx))
  | .setOldUsedIdx idx => call (Sum.inr (ConsoleOut.queue vq (.setOldUsedIdx idx)))
  | .event e => call (Sum.inr (ConsoleOut.queue vq (.event e)))

def onQueue {α : Type} (vq : Vq) (p : VqProg α) : ConsoleProg α := p.expand (queueOp vq)

/-- Where the buffers are, and how long the text of the assertion in a line is. -/
structure ConsoleTexts where
  msgBuf : UInt64
  controlMsg : UInt64
  cmsgBuf : UInt64
  cmdline : UInt64
  storage : UInt64
  assertion : Nat → Nat

section Report

variable (b : ConsoleTexts)

/-- `log_buf`: a message for every 62 bytes. -/
def logBuf (size : Nat) : ConsoleProg Unit := do
  let _ ← whileDo (fun remain => remain ≠ 0) (fun remain => do
    let copied := min (testrunner0BufSize - sizeofMsg) remain
    let _ ← onQueue .logOutput (sendVq b.msgBuf 64)
    return remain - copied) size
  return ()

def hostExit : ConsoleProg Unit := do
  let _ ← onQueue .logOutput (sendVq b.msgBuf 64)
  return ()

def abortMsg (size : Nat) : ConsoleProg Unit := do
  logBuf b size
  hostExit b

/-- `assert`, which tells the host and goes on. -/
def assertThat (ok : Bool) (line : Nat) : ConsoleProg Unit :=
  onlyIf (ok = false) (abortMsg b (b.assertion line))

end Report

/-- `console->ports`, with the memory behind it. -/
abbrev Ports := Nat → Port

def Ports.on (ports : Ports) (id : Nat) (f : Port → Port) : Ports :=
  Function.update ports id (f (ports id))

/-- `VIRTIO_CONSOLE_F_MULTIPORT` -/
def desiredFeatures : UInt64 := 2

def virtioConsoleCtrlRx : UInt16 := 2
def virtioConsoleCtrlTx : UInt16 := 3
def virtioConsoleRxOffset : UInt16 := 0
def virtioConsoleTxOffset : UInt16 := 1

/-- The layout is in0, out0, control_in, control_out, in1, out1, in2, out2, and so on. -/
def virtioConsoleQ (portId : Nat) : UInt16 :=
  UInt16.ofNat (portId * 2 + if portId ≥ 1 then 2 else 0)

section Console

variable (b : ConsoleTexts)

def sendControlMsg : ConsoleProg Unit := do
  let _ ← onQueue .cmdOutput (sendVq b.controlMsg 8)
  return ()

def controlSetup : ConsoleProg Unit := do
  virtio (.vqInit .cmdInput)
  virtio (.vqInit .cmdOutput)
  virtio (.vqAttach .cmdInput virtioConsoleCtrlRx)
  virtio (.vqAttach .cmdOutput virtioConsoleCtrlTx)
  onQueue .cmdInput (ExternalTrusty.controlSetup b.cmsgBuf)

def portOpen (ports : Ports) (portId : Nat) : ConsoleProg Ports := do
  sendControlMsg b
  return ports.on portId fun p => { p with guestConnected := true }

def virtioConsoleConnectPort (ports : Ports) (portId : Nat) (vqIn vqOut : Vq) :
    ConsoleProg Ports := do
  virtio (.vqAttach vqIn (virtioConsoleQ portId + virtioConsoleRxOffset))
  virtio (.vqAttach vqOut (virtioConsoleQ portId + virtioConsoleTxOffset))
  portOpen b ports portId

def portReady (ports : Ports) (portId : Nat) : ConsoleProg Unit := do
  assertThat b (ports portId).hostConnected 125
  sendControlMsg b

def releaseControlMsg (idx : Fin vqSize) : ConsoleProg Unit :=
  onQueue .cmdInput (ExternalTrusty.releaseControlMsg b.cmsgBuf idx)

/-- One message of the host. Its buffer is read again after it was released. -/
def handleControlMsg (ports : Ports) (bufSize : Nat) (idx : Fin vqSize) : ConsoleProg Ports := do
  let msg : Cmsg ← call (Sum.inr (ConsoleOut.cmsg idx))
  let id := (headerId msg.bytes).toNat
  let event := headerEvent msg.bytes
  if event = VirtioConsoleEvent.deviceAdd.code then
    let ports := ports.on id fun p => { p with hostConnected := true }
    let ports := ports.on id fun p => p.setName 0 0
    releaseControlMsg b idx
    let msg : Cmsg ← call (Sum.inr (ConsoleOut.cmsg idx))
    portReady b ports (headerId msg.bytes).toNat
    return ports
  else if event = VirtioConsoleEvent.deviceRemove.code then
    let ports := ports.on id fun p => { p with hostConnected := false }
    releaseControlMsg b idx
    return ports
  else if event = VirtioConsoleEvent.portName.code then
    let bufSize := nameBytes bufSize
    let ports := ports.on id fun p => p.copyName (msg.bytes.drop 8) bufSize
    let ports := ports.on id fun p => p.setName bufSize 0
    releaseControlMsg b idx
    return ports
  else
    releaseControlMsg b idx
    return ports

/-- What a message of the host does to the ports, when it has `bufSize` bytes. -/
def portsAfter (ports : Ports) (msg : Cmsg) (bufSize : Nat) : Ports :=
  let id := (headerId msg.bytes).toNat
  let event := headerEvent msg.bytes
  if event = VirtioConsoleEvent.deviceAdd.code then
    (ports.on id fun p => { p with hostConnected := true }).on id fun p => p.setName 0 0
  else if event = VirtioConsoleEvent.deviceRemove.code then
    ports.on id fun p => { p with hostConnected := false }
  else if event = VirtioConsoleEvent.portName.code then
    (ports.on id fun p => p.copyName (msg.bytes.drop 8) (nameBytes bufSize)).on id fun p =>
      p.setName (nameBytes bufSize) 0
  else ports

theorem handleControlMsg_ports {ports ports' : Ports} {bufSize : Nat} {idx : Fin vqSize}
    {msg : Cmsg} {t : List (Event ConsoleOp ConsoleRes)}
    (run : (handleControlMsg b ports bufSize idx).Runs (⟨.inr (.cmsg idx), msg⟩ :: t) ports') :
    ports' = portsAfter ports msg bufSize := by
  obtain ⟨msg', t', heq, run⟩ := run
  obtain ⟨hmsg, rfl⟩ := List.cons.inj heq
  cases hmsg
  simp only [Prog.bind] at run
  simp only [portsAfter]
  by_cases hadd : headerEvent msg.bytes = VirtioConsoleEvent.deviceAdd.code
  · rw [if_pos hadd] at run ⊢
    obtain ⟨_, _, _, _, _, _, _, _, run⟩ := Prog.runs_bind.mp run
    obtain ⟨_, _, _, _, _, hready⟩ := Prog.runs_bind.mp run
    obtain ⟨_, _, _, _, _, _, rfl⟩ := Prog.runs_bind.mp hready
    rfl
  rw [if_neg hadd] at run ⊢
  by_cases hremove : headerEvent msg.bytes = VirtioConsoleEvent.deviceRemove.code
  · rw [if_pos hremove] at run ⊢
    obtain ⟨_, _, _, _, _, _, rfl⟩ := Prog.runs_bind.mp run
    rfl
  rw [if_neg hremove] at run ⊢
  by_cases hname : headerEvent msg.bytes = VirtioConsoleEvent.portName.code
  · rw [if_pos hname] at run ⊢
    obtain ⟨_, _, _, _, _, _, rfl⟩ := Prog.runs_bind.mp run
    rfl
  · rw [if_neg hname] at run ⊢
    obtain ⟨_, _, _, _, _, _, rfl⟩ := Prog.runs_bind.mp run
    rfl

/-- The ports are what they are in the scan of messages that are all there. -/
theorem controlMsg_ports (w : ScanWorld) (idx : Fin vqSize) (m : HostMessage) :
    (controlMsg w idx m).ports = portsAfter w.ports ((w.slots idx).put m) m.msg.length := by
  unfold controlMsg portsAfter
  have hslot : (w.setSlot idx ((w.slots idx).put m)).slots idx = (w.slots idx).put m :=
    Function.update_self ..
  simp only [hslot]
  split
  next =>
    rw [(portReady_frame ..).1]
    rfl
  split
  next => rfl
  split
  next => rfl
  next => rfl

def resetPorts (ports : Ports) : Ports :=
  (List.range maxPorts).foldl (fun ports i =>
    ports.on i fun p =>
      Port.setName { p with hostConnected := false, guestConnected := false } 0 0) ports

def controlScan (ports : Ports) : ConsoleProg Ports := do
  sendControlMsg b
  forever (resetPorts ports) fun ports => do
    match ← onQueue .cmdInput (getControlMsg b.cmsgBuf) with
    | none => return .inr ports
    | some (_, bufSize, idx) => do
      let ports ← handleControlMsg b ports bufSize.toNat idx
      return .inl ports

def initVirtioConsole (ports : Ports) : ConsoleProg (Option Ports) := do
  let probe : Probe ← call (Sum.inr ConsoleOut.probe)
  match probe with
  | .missing text => do
    logBuf b text
    return none
  | .found => do
    virtio .resetDevice
    virtio (.orStatus virtioStatusAcknowledge)
    virtio (.orStatus virtioStatusDriver)
    let features : UInt64 ← virtio .getFeatures
    assertThat b (features &&& desiredFeatures == desiredFeatures) 202
    virtio (.setFeatures desiredFeatures)
    virtio (.orStatus virtioStatusFeaturesOk)
    let status : UInt32 ← virtio .getStatus
    assertThat b (status &&& virtioStatusFeaturesOk != 0) 211
    virtio (.setGuestPageSize TestRunner.pageSize)
    controlSetup b
    virtio (.orStatus virtioStatusDriverOk)
    let ports ← controlScan b ports
    return some ports

/-- `strcmp`, of strings with their terminator -/
def strcmp : List UInt8 → List UInt8 → Int
  | c :: cs, d :: ds =>
    if c ≠ d then (c.toNat : Int) - d.toNat else if c = 0 then 0 else strcmp cs ds
  | _, _ => 0

/-- `"testrunner0"` -/
def testrunnerMsgDevname : List UInt8 :=
  [0x74, 0x65, 0x73, 0x74, 0x72, 0x75, 0x6e, 0x6e, 0x65, 0x72, 0x30, 0]

/-- `"rpmb0"` -/
def rpmbDevname : List UInt8 := [0x72, 0x70, 0x6d, 0x62, 0x30, 0]

/-- The first port of this name -/
def scanPorts (devname : List UInt8) (ports : Ports) : Option Nat :=
  (List.range maxPorts).find? fun i => strcmp devname (ports i).name == 0

def testrunnerMsgScan (ports : Ports) : Option Nat :=
  (scanPorts testrunnerMsgDevname ports).filter fun i => (ports i).hostConnected

def initLog (ports : Ports) : ConsoleProg (Option Ports) :=
  match testrunnerMsgScan ports with
  | none => return none
  | some portId => do
    virtio (.vqInit .logInput)
    virtio (.vqInit .logOutput)
    let ports ← virtioConsoleConnectPort b ports portId .logInput .logOutput
    return some ports

/-- `host_get_cmdline`, after `init_log` -/
def hostGetCmdline : ConsoleProg Unit := do
  let _ ← onQueue .logInput (recvVq b.cmdline 256)
  return ()

def rpmbScan (ports : Ports) : ConsoleProg (Option Nat) :=
  match scanPorts rpmbDevname ports with
  | none => return none
  | some i => do
    assertThat b (ports i).hostConnected 44
    return some i

def initVirtioRpmb (ports : Ports) : ConsoleProg (Option Ports) := do
  match ← rpmbScan b ports with
  | none => return none
  | some rpmbId => do
    virtio (.vqInit .rpmbInput)
    virtio (.vqInit .rpmbOutput)
    let ports ← virtioConsoleConnectPort b ports rpmbId .rpmbInput .rpmbOutput
    return some ports

/-- A transfer of `rpmb_storage_send`, which goes on unless the transfer failed. -/
def storageStep (ret : ConsoleProg Int) (len : UInt64) (line : Nat) (next : ConsoleProg Int) :
    ConsoleProg Int := do
  let ret ← ret
  if ret < 0 then return -1
  else
    assertThat b (UInt64.ofInt ret == len) line
    next

/-- `rpmb_storage_send`, as far as the port goes -/
def rpmbStorageSend (relWriteSize writeSize readSize : UInt64) : ConsoleProg Int := do
  assertThat b (relWriteSize % 512 == 0) 85
  assertThat b (writeSize % 512 == 0) 86
  let send := fun len => onQueue .rpmbOutput (sendVq b.storage len)
  storageStep b (send 2) 2 92 <|
    storageStep b (send 2) 2 98 <|
    storageStep b (send relWriteSize) relWriteSize 104 <|
    storageStep b (send writeSize) writeSize 110 <|
    storageStep b (onQueue .rpmbInput (recvVq b.storage readSize)) readSize 116 <|
    return 0

/-- `boot`, on the first CPU, as far as the console goes. Once Trusty is up, messages are logged and
storage requests are served in any order. -/
def bootConsole (ports : Ports) : ConsoleProg Unit := do
  match ← initVirtioConsole b ports with
  | none => return ()
  | some ports => do
    match ← initLog b ports with
    | none => return ()
    | some ports => do
      hostGetCmdline b
      let requested : Bool ← call (Sum.inr ConsoleOut.testRequested)
      let ready : Bool ← call (Sum.inr ConsoleOut.trustyReady)
      if requested = false ∨ ready = false then return ()
      else
        let storage ← initVirtioRpmb b ports
        onlyIf (storage = none) (logBuf b 58)
        forever () fun _ => do
          let use : ConsoleUse ← call (Sum.inr ConsoleOut.use)
          match use with
          | .log size => do
            logBuf b size
            return .inl ()
          | .exit => do
            hostExit b
            return .inl ()
          | .storage relWriteSize writeSize readSize => do
            if storage = none then return .inl ()
            else
              let _ ← rpmbStorageSend b relWriteSize writeSize readSize
              return .inl ()
          | .leave => return .inr ()

end Console

end ExternalTrusty.Console
