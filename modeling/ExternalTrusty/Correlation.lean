import ExternalTrusty.ClientCalls
import ExternalTrusty.SparedMemory
import ExternalTrusty.AvbResponse
import ExternalTrusty.Observed

namespace ExternalTrusty

open CMemory

variable {ε : Type}

/-- Between these worlds one request was sent on the handle, and at least one message was received,
each of them part of the answer to that request. -/
def Service.Correlated {s : Surroundings ε} (sv : Service s) (h : UInt32) (w w' : World ε) : Prop :=
  (sv.box h w').asked = (sv.box h w).asked + 1 ∧
    ∃ new, new ≠ [] ∧ (sv.box h w').received = (sv.box h w).received ++ new ∧
      ∀ x ∈ new, x.1 = (sv.box h w).asked

/-- Once the call's request is sent, nothing disturbs the waits for the answer, and the message
with which the call stops reading is the last one. -/
def Service.Fine {s : Surroundings ε} (sv : Service s) (target : Target)
    (handles : Component → UInt32) (wait : Nat) (call : ClientCall) (w w' : World ε) : Prop :=
  ∀ rc w₁, call.ask (ipcTransport s.dev (s.ops target) wait) w = some (rc, w₁) → 0 ≤ rc →
    Calm call.chan (handles call.chan) (s.callsSince w₁ w') ∧
      call.Whole w₁.mem (sv.frames (handles call.chan) w₁)

/-- Calls on connected channels, with polls and the program's own stores in between. -/
inductive ClientRun (s : Surroundings ε) (target : Target) (on : Component → Prop)
    (fine : Nat → ClientCall → World ε → World ε → Prop) (start : World ε) : World ε → Prop
  | here : ClientRun s target on fine start start
  | stores {w : World ε} (before : ClientRun s target on fine start w) (m : Mem Obj) :
    ClientRun s target on fine start (w.setMem m)
  | poll {w w' : World ε} {rc : Int} (before : ClientRun s target on fine start w)
    (run : trustyIpcPollForEvent s.dev (s.ops target) w = some (rc, w')) :
    ClientRun s target on fine start w'
  | call {w w' : World ε} {rc : Int} {call : ClientCall} {wait fuel : Nat}
    (before : ClientRun s target on fine start w) (hc : on call.chan)
    (run : call.run (ipcTransport s.dev (s.ops target) wait) fuel w = some (rc, w'))
    (ok : fine wait call w w') : ClientRun s target on fine start w'

/-- Connected channels with nothing left to receive. -/
structure Idle {s : Surroundings ε} (sv : Service s) (on : Component → Prop)
    (handles : Component → UInt32) (w : World ε) : Prop where
  connected : Connected on handles w
  clients : ∀ c, on c → sv.clients (handles c)
  waiting : ∀ c, on c → (sv.box (handles c) w).waiting = []

section Runs

variable {s : Surroundings ε} {sv : Service s} {on : Component → Prop}
  {handles : Component → UInt32} {target : Target} {wait fuel : Nat} {call : ClientCall}
  {w w' start : World ε} {rc : Int}

theorem Idle.setMem (h : Idle sv on handles w) (m : Mem Obj) :
    Idle sv on handles (w.setMem m) := ⟨h.connected.setMem m, h.clients, h.waiting⟩

theorem Idle.poll (h : Idle sv on handles w)
    (run : trustyIpcPollForEvent s.dev (s.ops target) w = some (rc, w')) :
    Idle sv on handles w' := by
  obtain ⟨calls, while₁, _⟩ := h.connected.poll (s.poll_done run)
  refine ⟨while₁.connected, h.clients, fun c hc => ?_⟩
  rw [while₁.box sv hc trivial]
  exact h.waiting c hc

/-- A call on an idle channel only reads from the answer to its own request, and leaves the channel
idle when it went on fine. -/
theorem Idle.run (h : Idle sv on handles w) (hc : on call.chan)
    (run : call.run (ipcTransport s.dev (s.ops target) wait) fuel w = some (rc, w')) :
    (0 ≤ rc → sv.Correlated (handles call.chan) w w') ∧
      (sv.Fine target handles wait call w w' → Idle sv on handles w') := by
  rw [call.run_eq] at run
  obtain ⟨⟨rc₁, w₁⟩, asked, run⟩ := Option.bind_eq_some_iff.mp run
  obtain ⟨calls₁, while₁, outcome⟩ := ask_meanwhile sv hc h.connected asked
  -- the other channels are left alone all along
  have others : ∀ {w₂ calls}, Meanwhile s on handles (fun d => d ≠ call.chan) w w₂ calls →
      (sv.box (handles call.chan) w₂).waiting = [] → Idle sv on handles w₂ := by
    intro w₂ calls while₂ empty
    refine ⟨while₂.connected, h.clients, fun c hc => ?_⟩
    by_cases same : c = call.chan
    · rw [same]
      exact empty
    · rw [while₂.box sv hc same]
      exact h.waiting c hc
  simp only at run
  split at run
  next negative =>
    cases run
    refine ⟨fun positive => absurd negative (not_lt.mpr positive), fun _ => ?_⟩
    rcases outcome with ⟨_, box₁⟩ | ⟨positive, _⟩
    · apply others while₁
      rw [box₁]
      exact h.waiting _ hc
    · exact absurd negative (not_lt.mpr positive)
  next positive =>
    obtain ⟨calls₂, new, reading, reads, left⟩ :=
      read_reading hc (h.clients _ hc) while₁.connected run
    rcases outcome with ⟨negative, _⟩ | ⟨sent, answer, box₁⟩
    · exact absurd negative positive
    · have took := reading.took
      rw [box₁, Mailbox.ask, h.waiting _ hc, List.nil_append] at took
      refine ⟨fun fine => ⟨took.asked, new, reads fine, took.received, fun x mem => ?_⟩, ?_⟩
      · have mem' : x ∈ answer.map (Prod.mk (sv.box (handles call.chan) w).asked) := by
          have waiting : answer.map (Prod.mk (sv.box (handles call.chan) w).asked) =
            new ++ (sv.box (handles call.chan) w').waiting := took.waiting
          rw [waiting]
          exact List.mem_append_left _ mem
        obtain ⟨_, _, rfl⟩ := List.mem_map.mp mem'
        rfl
      · intro fine
        obtain ⟨calm, whole⟩ := fine rc₁ w₁ asked sent
        rw [s.callsSince_eq reading.meanwhile.log] at calm
        have empty := left calm whole
        exact others (while₁.trans reading.meanwhile) (List.map_eq_nil_iff.mp empty)

theorem ClientRun.idle (h : Idle sv on handles start)
    (run : ClientRun s target on (sv.Fine target handles) start w) : Idle sv on handles w := by
  induction run with
  | here => exact h
  | stores before m ih => exact ih.setMem m
  | poll before run ih => exact ih.poll run
  | call before hc run ok ih => exact (ih.run hc run).2 ok

/-- The call that reads a rollback index. -/
def readSlot : ClientCall :=
  .avbDoTipc readRollbackIndex (some avbReq) 12 (some avbResp) (some avbRespSize)

/-- The call has stores around it. -/
theorem trustyReadRollbackIndex_run {t : Transport ε} {slot : UInt32} {value : Ptr Obj}
    (run : trustyReadRollbackIndex t slot value w = some (rc, w')) (fuel : Nat) :
    ∃ w₁, readSlot.run t fuel (setRollbackReq w slot 0) = some (rc, w₁) ∧
      w' = w₁.setMem (w₁.mem.store value 8 (w₁.mem.load avbResp 8)) := by
  obtain ⟨⟨rc₁, w₁⟩, called, run⟩ := Option.bind_eq_some_iff.mp run
  obtain ⟨rfl, rfl⟩ := Prod.mk.inj (Option.some.inj run)
  exact ⟨w₁, called, rfl⟩

/-- What an AVB call that succeeds leaves in its buffer is the payload of the message it read. -/
theorem avbRead_payload (hc : on .avb) (client : sv.clients (handles .avb))
    (h : Connected on handles w) {cmd : Nat} {req : Option (Ptr Obj)} {reqSize : UInt32}
    {resp : Ptr Obj} (hmsg : resp.block ≠ .avbMsg) (hsize : resp.block ≠ .avbRespSize)
    (run : ClientCall.read (ipcTransport s.dev (s.ops target) wait) fuel
      (.avbDoTipc cmd req reqSize (some resp) (some avbRespSize)) w = some (rc, w'))
    (fine : 0 ≤ rc) :
    ∃ calls x, Reading sv on handles .avb w w' calls [x] ∧
      (8 + w.mem.load avbRespSize 4 ≤ x.2.bytes.length →
        w'.mem.read resp (w.mem.load avbRespSize 4) =
          (x.2.bytes.drop 8).take (w.mem.load avbRespSize 4)) := by
  obtain ⟨⟨rc₁, w₁⟩, response, run⟩ := Option.bind_eq_some_iff.mp run
  obtain ⟨rc₀, received, fails⟩ := avbReadResponse_recv response
  obtain ⟨calls, new, reading, ⟨negative, _⟩ | ⟨x, m, rfl, delivered⟩⟩ :=
    trustyIpcRecv_meanwhile hc client h received
  · simp only [if_pos (fails negative)] at run
    cases run
    exact absurd (fails negative) (not_lt.mpr fine)
  · simp only at run
    split at run
    next negative =>
      cases run
      exact absurd negative (not_lt.mpr fine)
    next =>
      have room : (UInt32.ofNat (w.mem.load avbRespSize 4)).toNat = w.mem.load avbRespSize 4 := by
        have bound := Mem.load_lt w.mem avbRespSize 4
        rw [UInt32.toNat_ofNat', Nat.mod_eq_of_lt (by omega)]
      have scattered : w₁.mem = scatter m (segs (twoIovs avbMsg 8 (some resp)
          (UInt32.ofNat (w.mem.load avbRespSize 4)).toUInt64)) x.2.bytes :=
        congrArg Prod.snd delivered
      have payload : 8 + w.mem.load avbRespSize 4 ≤ x.2.bytes.length →
          w₁.mem.read resp (w.mem.load avbRespSize 4) =
            (x.2.bytes.drop 8).take (w.mem.load avbRespSize 4) := by
        intro long
        have read := @avbPayload_scatter m resp (UInt32.ofNat (w.mem.load avbRespSize 4))
          x.2.bytes hmsg
        rw [← scattered, room] at read
        rw [read, overlay_full (by simp; omega)]
      have finished := Option.some.inj run
      rcases avbFinish_stores (some avbRespSize) rc₁ w₁ with same | ⟨p, n, hp, same⟩
      · rw [finished] at same
        cases same
        exact ⟨calls, x, reading, payload⟩
      · rw [finished] at same
        cases same
        cases hp
        refine ⟨calls, x, reading.setMem _, fun long => ?_⟩
        rw [← payload long]
        exact Mem.read_write_apart _ (Or.inl (Ne.symm hsize))

/-- The room for the value is still as it was when the request is sent. -/
theorem readSlot_room (spares : s.Spares .avbRespSize) {slot : UInt32}
    (run : readSlot.ask (ipcTransport s.dev (s.ops target) wait) (setRollbackReq w slot 0) =
      some (rc, w')) : w'.mem.load avbRespSize 4 = 8 := by
  have apart : ¬ProxyObj .avbRespSize := by
    intro proxy
    rcases proxy with same | same | same
    · cases same
    · cases same
    · cases same
  have set : (setRollbackReq w slot 0).mem.load avbRespSize 4 = 8 :=
    Mem.load_store_self _ _ (by decide)
  have kept : w'.mem.bytes .avbRespSize = (setRollbackReq w slot 0).mem.bytes .avbRespSize := by
    have stored : (((setRollbackReq w slot 0).mem.store avbMsg 4 readRollbackIndex).store
        avbMsgResult 4 0).bytes .avbRespSize = (setRollbackReq w slot 0).mem.bytes .avbRespSize :=
      (store_spares (by decide) 4 0).trans (store_spares (by decide) 4 readRollbackIndex)
    simp only [readSlot, ClientCall.ask] at run
    split at run
    next =>
      cases run
      exact stored
    next => exact (spares.trustyIpcSend apart run).trans stored
  rw [← set]
  exact load_spared kept 4

/-- A rollback index that is read successfully on an idle channel is the one in the answer to the
read's own request, when that has one. -/
theorem Idle.readRollbackIndex (spares : s.Spares .avbRespSize) (h : Idle sv on handles w)
    (hc : on .avb) {slot : UInt32} {value : Ptr Obj}
    (run : trustyReadRollbackIndex (ipcTransport s.dev (s.ops target) wait) slot value w =
      some (trustyErrNone, w')) :
    ∃ x, (sv.box (handles .avb) w').received = (sv.box (handles .avb) w).received ++ [x] ∧
      x.1 = (sv.box (handles .avb) w).asked ∧ (16 ≤ x.2.bytes.length →
        w'.mem.load value 8 = leNat ((x.2.bytes.drop 8).take 8)) := by
  obtain ⟨w₂, called, rfl⟩ := trustyReadRollbackIndex_run run 0
  have hc' : on readSlot.chan := hc
  obtain ⟨_, new, _, received, own⟩ := ((h.setMem _).run hc' called).1 (by decide)
  rw [readSlot.run_eq] at called
  obtain ⟨⟨rc₁, w₁⟩, asked, called⟩ := Option.bind_eq_some_iff.mp called
  obtain ⟨_, while₁, outcome⟩ := ask_meanwhile sv hc' (h.connected.setMem _) asked
  have before : (sv.box (handles .avb) w₁).received = (sv.box (handles .avb) w).received := by
    rcases outcome with ⟨_, same⟩ | ⟨_, answer, same⟩
    · exact (congrArg Mailbox.received same :)
    · exact (congrArg Mailbox.received same :)
  simp only at called
  split at called
  next negative =>
    cases called
    exact absurd negative (by decide)
  next =>
    obtain ⟨calls, x, reading, payload⟩ := avbRead_payload hc (h.clients _ hc) while₁.connected
      (by decide) (by decide) called (by decide)
    have one : (sv.box (handles .avb) w₂).received =
        (sv.box (handles .avb) w).received ++ [x] := by
      rw [reading.took.received, before]
    have same : new = [x] := List.append_cancel_left (received.symm.trans one)
    refine ⟨x, one, own x (by simp [same]), fun long => ?_⟩
    rw [readSlot_room spares asked] at payload
    have bound : w₂.mem.load avbResp 8 < 256 ^ 8 := Mem.load_lt w₂.mem avbResp 8
    show (w₂.mem.store value 8 (w₂.mem.load avbResp 8)).load value 8 = _
    rw [Mem.load_store_self _ _ bound, Mem.load, payload (by omega)]

end Runs

/-- As long as calls go on fine, every call that succeeds has read the answer to its own request.
In particular, a rollback index that is read is the one that the service returned for the slot. -/
theorem answers_correlated {s : Surroundings ε} {sv : Service s} {on : Component → Prop}
    {handles : Component → UInt32} {target : Target} {start w : World ε}
    (idle : Idle sv on handles start)
    (before : ClientRun s target on (sv.Fine target handles) start w) :
    (∀ call : ClientCall, on call.chan → ∀ wait fuel w',
      call.run (ipcTransport s.dev (s.ops target) wait) fuel w = some (trustyErrNone, w') →
      sv.Correlated (handles call.chan) w w') ∧
    (on .avb → s.Spares .avbRespSize → ∀ wait slot value w',
      trustyReadRollbackIndex (ipcTransport s.dev (s.ops target) wait) slot value w =
        some (trustyErrNone, w') →
      ∃ x, (sv.box (handles .avb) w').received = (sv.box (handles .avb) w).received ++ [x] ∧
        x.1 = (sv.box (handles .avb) w).asked ∧ (16 ≤ x.2.bytes.length →
          w'.mem.load value 8 = leNat ((x.2.bytes.drop 8).take 8))) := by
  have idle := before.idle idle
  refine ⟨?_, ?_⟩
  · intro call hc wait fuel w' run
    exact (idle.run hc run).1 (by decide)
  · intro hc spares wait slot value w' run
    exact idle.readRollbackIndex spares hc run

/-- The device hands out the messages of these answers. -/
def mailDevice (answer : List OsCall → List Frame) : Device DevScript :=
  { scriptDevice with
    recv := fun handle iovs w =>
      let waiting := (mailbox answer handle w.env.calls).waiting
      let r := deliver iovs w.mem ((waiting.head?.map fun x => Delivery.frame x.2).getD .closed)
      (r.1, (w.setMem r.2).withScript (w.env.did (.recv handle r.1))) }

def mailSurroundings (answer : List OsCall → List Frame) : Surroundings DevScript :=
  { scriptSurroundings with
    dev := mailDevice answer
    recv := fun _ _ _ => ⟨rfl, rfl, rfl⟩
    recvInt := fun _ iovs w => deliver_lt iovs w.mem _ }

def mailService (answer : List OsCall → List Frame) : Service (mailSurroundings answer) where
  clients _ := True
  answer := answer
  recv handle iovs w _ received := by
    change Received (deliver iovs w.mem _).1 at received
    change ∃ k f rest, (mailbox answer handle w.env.calls).waiting = (k, f) :: rest ∧
      deliver iovs w.mem (((mailbox answer handle w.env.calls).waiting.head?.map
        fun x => Delivery.frame x.2).getD .closed) = deliver iovs w.mem (.frame f)
    cases waiting : (mailbox answer handle w.env.calls).waiting with
    | nil =>
      rw [waiting] at received
      have closed : ¬Received trustyErrChannelClosed := by decide
      exact absurd received closed
    | cons x rest => exact ⟨x.1, x.2, rest, rfl, rfl⟩

theorem mailSurroundings_spares (answer : List OsCall → List Frame) (b : Obj) :
    (mailSurroundings answer).Spares b where
  close _ _ := rfl
  hasEvent _ _ := rfl
  getEvent _ _ := rfl
  send _ _ _ := rfl
  recv handle iovs w apart := by
    show (deliver iovs w.mem _).2.bytes b = w.mem.bytes b
    have others : ∀ v ∈ segs iovs, v.base.block ≠ b := by
      intro v mem
      obtain ⟨u, hu, rfl⟩ := List.mem_map.mp mem
      exact apart u hu
    cases (mailbox answer handle w.env.calls).waiting with
    | nil => rfl
    | cons x rest => exact scatter_spares others x.2.bytes
  idle _ := rfl
  storageSend _ _ _ _ _ _ _ _ := rfl

/-- The service answers the last request with a value that is 11 times its slot. -/
def slotAnswer (log : List OsCall) : List Frame :=
  match log.getLast? with
  | some (.send _ _ msg) =>
    [⟨[1, 0, 0, 0, 0, 0, 0, 0, 11 * msg.getD 16 0, 0, 0, 0, 0, 0, 0, 0], by simp⟩]
  | _ => []

/-- How the channel of the AVB service is used with these answers. -/
def slotTransport : Transport DevScript :=
  ipcTransport (mailSurroundings slotAnswer).dev ((mailSurroundings slotAnswer).ops .bits64) 2

/-- The channel of the AVB service is connected with handle 5. -/
def avbWorld (events : List (Except Int IpcEvent)) : World DevScript where
  mem := ⟨fun _ _ => 0, []⟩
  chans := Function.update (fun _ => ⟨0, 0, .sync⟩) .avb ⟨5, 0, .sync⟩
  initialized := fun _ => true
  env := ⟨[], events, [], [], []⟩

theorem avbWorld_idle (answer : List OsCall → List Frame) (events : List (Except Int IpcEvent)) :
    Idle (mailService answer) (· = .avb) (fun _ => 5) (avbWorld events) where
  connected := {
    handle := fun c hc => by
      subst hc
      rfl
    sync := fun c hc => by
      subst hc
      rfl
    proxies := fun c proxy => by
      have sync : ((avbWorld events).chans c).ops = .sync := by cases c <;> rfl
      rw [sync] at proxy
      cases proxy
    nonzero := fun _ _ => by decide
    apart := fun c d hc hd => by
      subst hc
      have zero : ((avbWorld events).chans d).handle = 0 := by
        simp [avbWorld, Function.update_of_ne hd]
      rw [zero]
      decide }
  clients _ _ := trivial
  waiting _ _ := rfl

/-- The first poll fails, and then the service's message is there. -/
def lateAnswer : World DevScript := avbWorld [.error trustyErrSecosErr, .ok ⟨8, 5, 1⟩]

/-- Reading slot 2 after a read of slot 1 failed, the value of slot 1 is returned. -/
theorem lateAnswer_mistaken : Idle (mailService slotAnswer) (· = .avb) (fun _ => 5) lateAnswer ∧
    ∃ w₁ w₂, ClientRun (mailSurroundings slotAnswer) .bits64 (· = .avb) (fun _ _ _ _ => True)
      lateAnswer w₁ ∧
    trustyReadRollbackIndex slotTransport 1 ⟨.caller 0, 0⟩ lateAnswer =
        some (trustyErrSecosErr, w₁) ∧
    trustyReadRollbackIndex slotTransport 2 ⟨.caller 0, 0⟩ w₁ =
        some (trustyErrNone, w₂) ∧
    w₂.mem.load ⟨.caller 0, 0⟩ 8 = 11 ∧ ¬(mailService slotAnswer).Correlated 5 w₁ w₂ := by
  refine ⟨avbWorld_idle slotAnswer _, ?_⟩
  obtain ⟨w₁, w₂, first, second, value, asked, before, after⟩ : ∃ w₁ w₂,
      trustyReadRollbackIndex slotTransport 1 ⟨.caller 0, 0⟩ lateAnswer =
          some (trustyErrSecosErr, w₁) ∧
      trustyReadRollbackIndex slotTransport 2 ⟨.caller 0, 0⟩ w₁ =
          some (trustyErrNone, w₂) ∧
      w₂.mem.load ⟨.caller 0, 0⟩ 8 = 11 ∧ ((mailService slotAnswer).box 5 w₁).asked = 1 ∧
      ((mailService slotAnswer).box 5 w₁).received = [] ∧
      ((mailService slotAnswer).box 5 w₂).received.map Prod.fst = [0] :=
    ⟨_, _, rfl, rfl, rfl, rfl, rfl, rfl⟩
  refine ⟨w₁, w₂, ?_, first, second, value, ?_⟩
  · obtain ⟨w, called, rfl⟩ := trustyReadRollbackIndex_run first 0
    have during : ClientRun (mailSurroundings slotAnswer) .bits64 (· = .avb)
        (fun _ _ _ _ => True) lateAnswer w := .call (.stores .here _) rfl called trivial
    exact during.stores _
  · intro ⟨_, new, nonempty, received, tagged⟩
    rw [before, List.nil_append] at received
    rw [received] at after
    cases new with
    | nil => exact nonempty rfl
    | cons x rest =>
      have own := tagged x List.mem_cons_self
      have first := (List.cons.inj after).1
      omega

/-- The channel's message is there when it is polled for, twice. -/
def promptAnswers : World DevScript := avbWorld [.ok ⟨8, 5, 1⟩, .ok ⟨8, 5, 1⟩]

theorem promptAnswers_correlated : ∃ w w₁ w' x,
    readSlot.run slotTransport 0 (setRollbackReq w 2 0) = some (trustyErrNone, w₁) ∧
      (mailService slotAnswer).Correlated 5 (setRollbackReq w 2 0) w₁ ∧
    trustyReadRollbackIndex slotTransport 2 ⟨.caller 0, 0⟩ w = some (trustyErrNone, w') ∧
      ((mailService slotAnswer).box 5 w').received =
        ((mailService slotAnswer).box 5 w).received ++ [x] ∧
      x.1 = ((mailService slotAnswer).box 5 w).asked ∧ (16 ≤ x.2.bytes.length →
        w'.mem.load ⟨.caller 0, 0⟩ 8 = leNat ((x.2.bytes.drop 8).take 8)) := by
  obtain ⟨w₁, w₂, w₃, asked, first, calls, left, second⟩ : ∃ w₁ w₂ w₃,
      readSlot.ask slotTransport (setRollbackReq promptAnswers 1 0) = some (trustyErrNone, w₁) ∧
      trustyReadRollbackIndex slotTransport 1 ⟨.caller 0, 0⟩ promptAnswers =
        some (trustyErrNone, w₂) ∧
      (mailSurroundings slotAnswer).callsSince w₁ w₂ = [.event (.ok ⟨8, 5, 1⟩), .recv 5 16] ∧
      ((mailService slotAnswer).frames 5 w₁).tail = [] ∧
      trustyReadRollbackIndex slotTransport 2 ⟨.caller 0, 0⟩ w₂ = some (trustyErrNone, w₃) :=
    ⟨_, _, _, rfl, rfl, rfl, rfl, rfl⟩
  obtain ⟨w₄, called₁, rfl⟩ := trustyReadRollbackIndex_run first 0
  obtain ⟨w₅, called₂, _⟩ := trustyReadRollbackIndex_run second 0
  have fine : (mailService slotAnswer).Fine .bits64 (fun _ => 5) 2 readSlot
      (setRollbackReq promptAnswers 1 0) w₄ := by
    intro rc w asked' _
    have same : w = w₁ :=
      (congrArg Prod.snd (Option.some.inj (asked.symm.trans asked'))).symm
    subst same
    refine ⟨?_, left⟩
    show ∀ x ∈ (mailSurroundings slotAnswer).callsSince w w₄, ¬x.Disturbs .avb 5
    change (mailSurroundings slotAnswer).callsSince w w₄ = _ at calls
    rw [calls, List.forall_mem_cons, List.forall_mem_singleton]
    refine ⟨?_, ?_⟩
    · intro disturbs
      rcases disturbs with error | ⟨_, hangs, _⟩
      · exact error rfl
      · exact hangs.2.2 rfl
    · rw [OsCall.Disturbs, if_pos rfl, not_not]
      exact Or.inl (by decide)
  have before : ClientRun (mailSurroundings slotAnswer) .bits64 (· = .avb)
      ((mailService slotAnswer).Fine .bits64 fun _ => 5) (setRollbackReq promptAnswers 1 0) w₄ :=
    .call .here rfl called₁ fine
  have idle : Idle (mailService slotAnswer) (· = .avb) (fun _ => 5)
      (setRollbackReq promptAnswers 1 0) := (avbWorld_idle slotAnswer _).setMem _
  have own := (answers_correlated idle ((before.stores _).stores _)).1 readSlot rfl 2 0 w₅ called₂
  obtain ⟨x, received, mine, stored⟩ := (answers_correlated idle (before.stores _)).2 rfl
    (mailSurroundings_spares slotAnswer _) 2 2 ⟨.caller 0, 0⟩ w₃ second
  exact ⟨_, w₅, w₃, x, called₂, own, second, received, mine, stored⟩

end ExternalTrusty
