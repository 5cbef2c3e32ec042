import ExternalTrusty.Bytes
import ExternalTrusty.Chains
import ExternalTrusty.VirtqView

namespace ExternalTrusty

open CMemory CProgram

/-- `enum virtio_console_event` -/
inductive VirtioConsoleEvent
  | deviceReady
  | deviceAdd
  | deviceRemove
  | portReady
  | consolePort
  | resize
  | portOpen
  | portName
  deriving DecidableEq

def VirtioConsoleEvent.code : VirtioConsoleEvent → UInt16
  | .deviceReady => 0
  | .deviceAdd => 1
  | .deviceRemove => 2
  | .portReady => 3
  | .consolePort => 4
  | .resize => 5
  | .portOpen => 6
  | .portName => 7

def maxPorts : Nat := 16
def maxPortNameSize : Nat := 64

/-- `struct port` -/
structure Port where
  hostConnected : Bool
  guestConnected : Bool
  name : List UInt8
  size : name.length = maxPortNameSize
  deriving DecidableEq

/-- A byte of the name is set. -/
def Port.setName (p : Port) (j : Nat) (b : UInt8) : Port :=
  { p with
    name := p.name.set j b
    size := by rw [List.length_set, p.size] }

/-- The name's first bytes are copied from `src`. -/
def Port.copyName (p : Port) (src : List UInt8) (n : Fin maxPortNameSize) : Port :=
  { p with
    name := overlay (src.take n) p.name
    size := by
      rw [overlay_length, p.size, List.length_take]
      have inside := n.isLt
      omega }

/-- A buffer of the control queue, with room for the header and for the longest name. -/
structure Cmsg where
  bytes : List UInt8
  size : bytes.length = 72
  deriving DecidableEq

def headerId (bytes : List UInt8) : UInt32 := UInt32.ofNat (leNat (bytes.take 4))

def headerEvent (bytes : List UInt8) : UInt16 := UInt16.ofNat (leNat ((bytes.drop 4).take 2))

/-- A message of the host, and what its buffer holds once it was released. From then on the buffer
is the device's again, which may have written anything to it. -/
structure HostMessage where
  msg : List UInt8
  header : 8 ≤ msg.length
  room : msg.length ≤ 72
  later : Cmsg
  deriving DecidableEq

/-- The device writes a message over the old contents of a buffer. -/
def Cmsg.put (c : Cmsg) (m : HostMessage) : Cmsg where
  bytes := overlay m.msg c.bytes
  size := by
    rw [overlay_length, c.size]
    exact Nat.max_eq_right m.room

/-- `struct console_control`, as the driver sends it -/
structure ConsoleControl where
  id : UInt32
  event : UInt16
  value : UInt16
  deriving DecidableEq

/-- The console and its control queues. An index past the end of `console->ports` is one of the
memory behind the table; `touched` has every index at which the table was read or written. -/
structure ScanWorld where
  ports : Nat → Port
  slots : Fin vqSize → Cmsg
  sent : List ConsoleControl
  aborted : Bool
  touched : List Nat

namespace ScanWorld

def onPort (w : ScanWorld) (id : Nat) (f : Port → Port) : ScanWorld :=
  { w with
    ports := Function.update w.ports id (f (w.ports id))
    touched := w.touched ++ [id] }

/-- A read of a port's state. -/
def touch (w : ScanWorld) (id : Nat) : ScanWorld := { w with touched := w.touched ++ [id] }

def sendControlMsg (w : ScanWorld) (msg : ConsoleControl) : ScanWorld :=
  { w with sent := w.sent ++ [msg] }

def setSlot (w : ScanWorld) (idx : Fin vqSize) (c : Cmsg) : ScanWorld :=
  { w with slots := Function.update w.slots idx c }

def releaseControlMsg (w : ScanWorld) (idx : Fin vqSize) (m : HostMessage) : ScanWorld :=
  w.setSlot idx m.later

/-- `assert`, whose `abort_msg` tells the host and returns -/
def check (w : ScanWorld) (ok : Bool) : ScanWorld := if ok then w else { w with aborted := true }

end ScanWorld

def portReady (w : ScanWorld) (portId : Nat) : ScanWorld :=
  let w := w.touch portId
  let w := w.check (w.ports portId).hostConnected
  w.sendControlMsg ⟨UInt32.ofNat portId, VirtioConsoleEvent.portReady.code, 1⟩

/-- How many bytes are copied to a name, of a message of `bufSize`. -/
def nameBytes (bufSize : Nat) : Fin maxPortNameSize :=
  ⟨min bufSize (maxPortNameSize - 1), Nat.lt_of_le_of_lt (Nat.min_le_right _ _) (by decide)⟩

/-- One turn of the loop of `control_scan`, with the message in the buffer `idx`. Whatever is read
from `msg` is read from the buffer, also after its release. -/
def controlMsg (w : ScanWorld) (idx : Fin vqSize) (m : HostMessage) : ScanWorld :=
  let w := w.setSlot idx ((w.slots idx).put m)
  let msg := (w.slots idx).bytes
  let portId := (headerId msg).toNat
  let event := headerEvent msg
  if event = VirtioConsoleEvent.deviceAdd.code then
    let w := w.onPort portId fun p => { p with hostConnected := true }
    let w := w.onPort portId fun p => p.setName 0 0
    let w := w.releaseControlMsg idx m
    portReady w (headerId (w.slots idx).bytes).toNat
  else if event = VirtioConsoleEvent.deviceRemove.code then
    let w := w.onPort portId fun p => { p with hostConnected := false }
    w.releaseControlMsg idx m
  else if event = VirtioConsoleEvent.portName.code then
    let bufSize := nameBytes m.msg.length
    let w := w.onPort portId fun p => p.copyName (msg.drop 8) bufSize
    let w := w.onPort portId fun p => p.setName bufSize 0
    w.releaseControlMsg idx m
  else w.releaseControlMsg idx m

/-- The loop of `control_scan`: the `k`-th message is in the buffer of its place in the ring. -/
def controlLoop (w : ScanWorld) (k : Nat) : List HostMessage → ScanWorld
  | [] => w
  | m :: ms => controlLoop (controlMsg w (slotOf k) m) (k + 1) ms

def resetPort (w : ScanWorld) (i : Nat) : ScanWorld :=
  let w := w.onPort i fun p => { p with hostConnected := false }
  let w := w.onPort i fun p => { p with guestConnected := false }
  w.onPort i fun p => p.setName 0 0

/-- `control_scan`, up to its loop -/
def scanStart (ports : Nat → Port) (slots : Fin vqSize → Cmsg) : ScanWorld :=
  let w : ScanWorld := ⟨ports, slots, [], false, []⟩
  let w := (List.range maxPorts).foldl resetPort w
  w.sendControlMsg ⟨0, VirtioConsoleEvent.deviceReady.code, 1⟩

/-- `control_scan`, when these are the messages that `get_control_msg` returns before it returns
`NULL`. -/
def controlScan (ports : Nat → Port) (slots : Fin vqSize → Cmsg) (ms : List HostMessage) :
    ScanWorld :=
  controlLoop (scanStart ports slots) 0 ms

section Frames

variable (w : ScanWorld) (id : Nat) (f g : Port → Port) (ok : Bool)

@[simp] theorem check_ports : (w.check ok).ports = w.ports := by cases ok <;> rfl

@[simp] theorem check_touched : (w.check ok).touched = w.touched := by cases ok <;> rfl

@[simp] theorem check_slots : (w.check ok).slots = w.slots := by cases ok <;> rfl

theorem portReady_frame : (portReady w id).ports = w.ports ∧
    (portReady w id).touched = w.touched ++ [id] ∧ (portReady w id).slots = w.slots :=
  ⟨check_ports .., check_touched .., check_slots ..⟩

/-- Two changes of one port are one. -/
theorem onPort_onPort : ((w.onPort id f).onPort id g).ports =
    Function.update w.ports id (g (f (w.ports id))) := by
  show Function.update (Function.update w.ports id (f (w.ports id))) id
    (g (Function.update w.ports id (f (w.ports id)) id)) = _
  rw [Function.update_idem, Function.update_self]

end Frames

namespace HostMessage

def id (m : HostMessage) : UInt32 := headerId m.msg

def event (m : HostMessage) : UInt16 := headerEvent m.msg

/-- The messages that say something of a port. -/
def Names (m : HostMessage) : Prop :=
  m.event = VirtioConsoleEvent.deviceAdd.code ∨ m.event = VirtioConsoleEvent.deviceRemove.code ∨
    m.event = VirtioConsoleEvent.portName.code

instance (m : HostMessage) : Decidable m.Names := inferInstanceAs (Decidable (_ ∨ _ ∨ _))

/-- Whether the message connects port `i`, or disconnects it. -/
def toggles (i : Nat) (m : HostMessage) : Option Bool :=
  if m.id.toNat ≠ i then none
  else if m.event = VirtioConsoleEvent.deviceAdd.code then some true
  else if m.event = VirtioConsoleEvent.deviceRemove.code then some false
  else none

/-- The indices of the ports that a turn of the loop reads or writes. -/
def touches (m : HostMessage) : List Nat :=
  if m.event = VirtioConsoleEvent.deviceAdd.code then
    [m.id.toNat, m.id.toNat, (headerId m.later.bytes).toNat]
  else if m.event = VirtioConsoleEvent.deviceRemove.code then [m.id.toNat]
  else if m.event = VirtioConsoleEvent.portName.code then [m.id.toNat, m.id.toNat]
  else []

/-- The message names a port of the table, and a `DEVICE_ADD` still does when its buffer is read
for the last time, after the release. -/
def InTable (m : HostMessage) : Prop :=
  (m.Names → m.id.toNat < maxPorts) ∧
    (m.event = VirtioConsoleEvent.deviceAdd.code → (headerId m.later.bytes).toNat < maxPorts)

instance (m : HostMessage) : Decidable m.InTable := inferInstanceAs (Decidable (_ ∧ _))

end HostMessage

/-- The header is read from the message, whatever was in the buffer before. -/
theorem put_header (c : Cmsg) (m : HostMessage) :
    headerId (c.put m).bytes = m.id ∧ headerEvent (c.put m).bytes = m.event := by
  have hlen := m.header
  have hid : (overlay m.msg c.bytes).take 4 = m.msg.take 4 :=
    List.take_append_of_le_length (by omega)
  have hevent : ((overlay m.msg c.bytes).drop 4).take 2 = (m.msg.drop 4).take 2 := by
    rw [overlay, List.drop_append_of_le_length (by omega)]
    exact List.take_append_of_le_length (by rw [List.length_drop]; omega)
  constructor
  · exact congrArg (fun bs => UInt32.ofNat (leNat bs)) hid
  · exact congrArg (fun bs => UInt16.ofNat (leNat bs)) hevent

/-- What a message does to the port that it names. -/
def HostMessage.changes (m : HostMessage) (c : Cmsg) (p : Port) : Port :=
  if m.event = VirtioConsoleEvent.deviceAdd.code then
    Port.setName { p with hostConnected := true } 0 0
  else if m.event = VirtioConsoleEvent.deviceRemove.code then { p with hostConnected := false }
  else if m.event = VirtioConsoleEvent.portName.code then
    (p.copyName ((c.put m).bytes.drop 8) (nameBytes m.msg.length)).setName
      (nameBytes m.msg.length) 0
  else p

/-- A turn of the loop. -/
theorem controlMsg_spec (w : ScanWorld) (idx : Fin vqSize) (m : HostMessage) :
    (controlMsg w idx m).ports = Function.update w.ports m.id.toNat
        (m.changes (w.slots idx) (w.ports m.id.toNat)) ∧
      (controlMsg w idx m).touched = w.touched ++ m.touches ∧
      (controlMsg w idx m).slots = Function.update w.slots idx m.later := by
  obtain ⟨hid, hevent⟩ := put_header (w.slots idx) m
  have hslot : (w.setSlot idx ((w.slots idx).put m)).slots idx = (w.slots idx).put m :=
    Function.update_self ..
  have hlater : ∀ v : ScanWorld, (v.releaseControlMsg idx m).slots idx = m.later := fun v =>
    Function.update_self ..
  unfold controlMsg HostMessage.changes HostMessage.touches
  simp only [hslot, hid, hevent]
  split_ifs with hadd hremove hname
  · let got := w.setSlot idx ((w.slots idx).put m)
    let connect : Port → Port := fun p => { p with hostConnected := true }
    let unname : Port → Port := fun p => p.setName 0 0
    obtain ⟨hports, htouched, hslots⟩ := portReady_frame
      (((got.onPort m.id.toNat connect).onPort m.id.toNat unname).releaseControlMsg idx m)
      (headerId m.later.bytes).toNat
    rw [hlater, hports, htouched, hslots]
    refine ⟨onPort_onPort got m.id.toNat connect unname, ?_, Function.update_idem ..⟩
    show w.touched ++ [m.id.toNat] ++ [m.id.toNat] ++ [_] = _
    simp only [List.append_assoc, List.cons_append, List.nil_append]
  · exact ⟨rfl, rfl, Function.update_idem ..⟩
  · let got := w.setSlot idx ((w.slots idx).put m)
    refine ⟨onPort_onPort got m.id.toNat
      (fun p => p.copyName (((w.slots idx).put m).bytes.drop 8) (nameBytes m.msg.length))
      (fun p => p.setName (nameBytes m.msg.length) 0), ?_, Function.update_idem ..⟩
    show w.touched ++ [m.id.toNat] ++ [m.id.toNat] = _
    rw [List.append_assoc]
    rfl
  · refine ⟨?_, (List.append_nil _).symm, Function.update_idem ..⟩
    rw [Function.update_eq_self]
    rfl

/-- The last `DEVICE_ADD` or `DEVICE_REMOVE` for port `i`. -/
def lastToggle (i : Nat) (ms : List HostMessage) : Option Bool := lastSet (HostMessage.toggles i) ms

section Steps

variable (w : ScanWorld) (idx : Fin vqSize) (m : HostMessage)

theorem controlMsg_connected (i : Nat) : ((controlMsg w idx m).ports i).hostConnected =
    (m.toggles i).getD (w.ports i).hostConnected := by
  rw [(controlMsg_spec w idx m).1]
  unfold HostMessage.toggles
  by_cases hport : m.id.toNat = i
  · subst hport
    rw [Function.update_self, if_neg (not_not.mpr rfl)]
    unfold HostMessage.changes
    split_ifs
    · rfl
    · rfl
    · rfl
    · rfl
  · rw [Function.update_of_ne (Ne.symm hport), if_pos hport]
    rfl

/-- A message that names no port changes none. -/
theorem controlMsg_unnamed (h : ¬m.Names) : (controlMsg w idx m).ports = w.ports := by
  obtain ⟨hadd, hremove, hname⟩ : m.event ≠ _ ∧ m.event ≠ _ ∧ m.event ≠ _ := by
    simpa only [HostMessage.Names, not_or] using h
  rw [(controlMsg_spec w idx m).1]
  unfold HostMessage.changes
  rw [if_neg hadd, if_neg hremove, if_neg hname, Function.update_eq_self]

end Steps

theorem mem_touches_lt {m : HostMessage} : (∀ i ∈ m.touches, i < maxPorts) ↔ m.InTable := by
  unfold HostMessage.InTable HostMessage.Names HostMessage.touches
  split_ifs with hadd hremove hname
  · simp [hadd]
  · have hother : ¬VirtioConsoleEvent.deviceRemove.code = VirtioConsoleEvent.deviceAdd.code := by
      decide
    simp [hremove, hother]
  · have hother : ¬VirtioConsoleEvent.portName.code = VirtioConsoleEvent.deviceAdd.code := by
      decide
    simp [hname, hother]
  · simp [hadd, hremove, hname]

/-! The loop, over a run. -/

section Runs

variable (w : ScanWorld) (k : Nat) (ms : List HostMessage)

theorem controlLoop_append (ms' : List HostMessage) : controlLoop w k (ms ++ ms') =
    controlLoop (controlLoop w k ms) (k + ms.length) ms' := by
  induction ms generalizing w k with
  | nil => rfl
  | cons m ms ih =>
    rw [List.cons_append, controlLoop, ih, controlLoop, List.length_cons, Nat.add_assoc,
      Nat.add_comm 1]

theorem controlLoop_touched :
    (controlLoop w k ms).touched = w.touched ++ ms.flatMap HostMessage.touches := by
  induction ms generalizing w k with
  | nil => exact (List.append_nil _).symm
  | cons m ms ih =>
    rw [controlLoop, ih, (controlMsg_spec w (slotOf k) m).2.1, List.flatMap_cons,
      List.append_assoc]

theorem controlLoop_connected (i : Nat) : ((controlLoop w k ms).ports i).hostConnected =
    (lastToggle i ms).getD (w.ports i).hostConnected := by
  induction ms generalizing w k with
  | nil => rfl
  | cons m ms ih =>
    rw [controlLoop, ih, controlMsg_connected]
    exact (lastSet_cons ..).symm

end Runs

theorem resetPort_spec (w : ScanWorld) (n : Nat) :
    ((resetPort w n).ports n).hostConnected = false ∧
      (∀ i, i ≠ n → (resetPort w n).ports i = w.ports i) ∧
      (resetPort w n).touched = w.touched ++ [n, n, n] := by
  unfold resetPort
  refine ⟨?_, ?_, ?_⟩
  · simp [ScanWorld.onPort, Port.setName]
  · intro i hi
    simp [ScanWorld.onPort, Function.update_of_ne hi]
  · simp [ScanWorld.onPort]

theorem resetPorts_spec (w : ScanWorld) (n : Nat) :
    (∀ i < n, (((List.range n).foldl resetPort w).ports i).hostConnected = false) ∧
      (∀ i, n ≤ i → ((List.range n).foldl resetPort w).ports i = w.ports i) ∧
      ∃ new, ((List.range n).foldl resetPort w).touched = w.touched ++ new ∧ ∀ i ∈ new, i < n := by
  induction n with
  | zero => exact ⟨nofun, fun _ _ => rfl, [], (List.append_nil _).symm, List.forall_mem_nil _⟩
  | succ n ih =>
    obtain ⟨hreset, hbehind, new, htouched, hnew⟩ := ih
    rw [List.range_succ, List.foldl_append, List.foldl_cons, List.foldl_nil]
    obtain ⟨hlast, hother, hlog⟩ := resetPort_spec ((List.range n).foldl resetPort w) n
    refine ⟨?_, ?_, new ++ [n, n, n], ?_, ?_⟩
    · intro i hi
      rcases Nat.lt_succ_iff_lt_or_eq.mp hi with hbefore | rfl
      · rw [hother i (Nat.ne_of_lt hbefore)]
        exact hreset i hbefore
      · exact hlast
    · intro i hi
      rw [hother i (by omega)]
      exact hbehind i (by omega)
    · rw [hlog, htouched, List.append_assoc]
    · intro i hi
      rcases List.mem_append.mp hi with hbefore | hhere
      · exact Nat.lt_succ_of_lt (hnew i hbefore)
      · have hsame : i = n := by simpa using hhere
        rw [hsame]
        exact Nat.lt_succ_self n

theorem scanStart_spec (ports : Nat → Port) (slots : Fin vqSize → Cmsg) :
    (∀ i < maxPorts, ((scanStart ports slots).ports i).hostConnected = false) ∧
      ∀ i ∈ (scanStart ports slots).touched, i < maxPorts := by
  obtain ⟨hreset, _, new, htouched, hnew⟩ :=
    resetPorts_spec ⟨ports, slots, [], false, []⟩ maxPorts
  refine ⟨hreset, ?_⟩
  intro i hi
  change i ∈ ((List.range maxPorts).foldl resetPort ⟨ports, slots, [], false, []⟩).touched at hi
  rw [htouched] at hi
  exact hnew i hi

/-- After these messages, the state of the ports is what the host has said of them, and no other
memory was used. -/
structure ScanKept (ports : Nat → Port) (slots : Fin vqSize → Cmsg) (ms : List HostMessage) :
    Prop where
  inside : ∀ i ∈ (controlScan ports slots ms).touched, i < maxPorts
  connected : ∀ i < maxPorts, ((controlScan ports slots ms).ports i).hostConnected = true ↔
    lastToggle i ms = some true
  others : ∀ before m after, ms = before ++ m :: after → maxPorts ≤ m.id.toNat →
    (controlScan ports slots (before ++ [m])).ports = (controlScan ports slots before).ports

theorem controlScan_kept_iff (ports : Nat → Port) (slots : Fin vqSize → Cmsg)
    (ms : List HostMessage) : ScanKept ports slots ms ↔ ∀ m ∈ ms, m.InTable := by
  obtain ⟨hreset, hstart⟩ := scanStart_spec ports slots
  constructor
  · intro h m hm
    refine mem_touches_lt.mp fun i hi => h.inside i ?_
    rw [controlScan, controlLoop_touched]
    exact List.mem_append_right _ (List.mem_flatMap.mpr ⟨m, hm, hi⟩)
  · intro h
    refine ⟨?_, ?_, ?_⟩
    · intro i hi
      rw [controlScan, controlLoop_touched] at hi
      rcases List.mem_append.mp hi with hi | hi
      · exact hstart i hi
      · obtain ⟨m, hm, hi⟩ := List.mem_flatMap.mp hi
        exact mem_touches_lt.mpr (h m hm) i hi
    · intro i hi
      rw [controlScan, controlLoop_connected, hreset i hi]
      cases lastToggle i ms with
      | none => simp
      | some b => simp
    · rintro before m after rfl hfar
      have hunnamed : ¬m.Names := fun hnames =>
        absurd ((h m (by simp)).1 hnames) (Nat.not_lt.mpr hfar)
      rw [controlScan, controlLoop_append]
      exact controlMsg_unnamed _ _ _ hunnamed

def blankPort : Port := ⟨false, false, List.replicate 64 0, rfl⟩

def blankCmsg : Cmsg := ⟨List.replicate 72 0, rfl⟩

/-- A `DEVICE_ADD` for the port after the last one. -/
def nextPortAdded : HostMessage := ⟨[16, 0, 0, 0, 1, 0, 0, 0], by decide, by decide, blankCmsg⟩

theorem nextPort_touched : ¬ScanKept (fun _ => blankPort) (fun _ => blankCmsg) [nextPortAdded] := by
  intro h
  have htouched : 16 ∈ (controlScan (fun _ => blankPort) (fun _ => blankCmsg)
      [nextPortAdded]).touched := by
    rw [controlScan, controlLoop_touched]
    exact List.mem_append_right _ (by decide)
  exact absurd (h.inside 16 htouched) (by decide)

end ExternalTrusty
