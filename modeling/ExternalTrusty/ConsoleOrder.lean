import ExternalTrusty.ConsoleDriver

namespace ExternalTrusty.Console

open CProgram TestRunner

/-- An operation that comes in order. A report that goes out before the log's queues are attached
is let through: it makes the device unknown. -/
def Legal (d : Virtio) (o : VirtioOp) : Prop :=
  d.blind ∨ (d.Able o ∧ d.Orderly o) ∨ (o = .vqKick .logOutput ∧ d.queueId .logOutput = none)

theorem Legal.able {d : Virtio} {o : VirtioOp} (h : Legal d o) : d.blind ∨ d.Able o := by
  rcases h with h | h | ⟨rfl, _⟩
  · exact Or.inl h
  · exact Or.inr h.1
  · exact Or.inr trivial

/-- The device is set up so far, as long as it is known. -/
def At (s : Setup) (d : Virtio) : Prop := d.blind ∨ d.toSetup = s

section Rules

variable (keep : Virtio.Keep) {α β : Type}

/-- The device as the console's operations leave it, and whether all of them were legal. -/
def record (m : Virtio × Prop) (e : Event ConsoleOp ConsoleRes) : Virtio × Prop :=
  ((Virtio.layer keep).beside.next m.1 e, m.2 ∧ Sum.elim (Legal m.1) (fun _ => True) e.1)

/-- Whatever the answers, every operation of `p` is legal when it starts from a device that is set
up as `s`, and it leaves one that is set up as `post` says. -/
def Goes (s : Setup) (p : ConsoleProg α) (post : α → Setup → Prop) : Prop :=
  ∀ (d : Virtio) (sofar : Prop), At s d → sofar →
    Tracks (record keep) (fun m => m.2) (d, sofar) p fun a m => m.2 ∧ ∃ s', post a s' ∧ At s' m.1

variable {keep} {s : Setup} {post : α → Setup → Prop}

theorem Goes.ret {a : α} (h : post a s) : Goes keep s (.ret a) post :=
  fun _ _ at_ hsofar => .ret hsofar ⟨hsofar, s, h, at_⟩

theorem Goes.bind {p : ConsoleProg α} {f : α → ConsoleProg β} {post' : β → Setup → Prop}
    (hp : Goes keep s p post) (hf : ∀ a s', post a s' → Goes keep s' (f a) post') :
    Goes keep s (p.bind f) post' := by
  intro d sofar at_ hsofar
  refine (hp d sofar at_ hsofar).bind ?_
  rintro a ⟨d', sofar'⟩ ⟨hsofar', s', hpost, at'⟩
  exact hf a s' hpost d' sofar' at' hsofar'

theorem Goes.mono {p : ConsoleProg α} {post' : α → Setup → Prop} (hp : Goes keep s p post)
    (hpost : ∀ a s', post a s' → post' a s') : Goes keep s p post' := by
  intro d sofar at_ hsofar
  refine (hp d sofar at_ hsofar).conseq ?_
  rintro a m ⟨hsofar', s', h, at'⟩
  exact ⟨hsofar', s', hpost a s' h, at'⟩

/-- An operation of the device, in its order. -/
theorem Goes.virtio {o : VirtioOp} (able : s.Able o) (orderly : s.Orderly o) :
    Goes keep s (virtio o) fun _ s' => s' = s.step o := by
  intro d sofar at_ hsofar
  have hlegal : Legal d o := by
    rcases at_ with h | rfl
    · exact Or.inl h
    · exact Or.inr (Or.inl ⟨able, orderly⟩)
  refine (Tracks.call hsofar fun r => ⟨hsofar, hlegal⟩).conseq ?_
  rintro r m rfl
  refine ⟨⟨hsofar, hlegal⟩, _, rfl, ?_⟩
  rcases at_ with h | rfl
  · exact Or.inl (Virtio.next_blind h ⟨o, r⟩)
  · exact Or.inr (Virtio.next_toSetup keep d ⟨o, r⟩)

/-- The operations that leave a set-up as it is: all that are not for the device, kicks of attached
queues, and reports. -/
def Quiet (s : Setup) : ConsoleOp → Prop
  | .inl (.vqKick vq) =>
    (s.asked = 15 ∧ (s.queueId vq).isSome) ∨ (vq = .logOutput ∧ s.queueId vq = none)
  | .inl _ => False
  | .inr _ => True

theorem Goes.quiet {p : ConsoleProg α} (h : p.Uses (Quiet s)) :
    Goes keep s p fun _ s' => s' = s := by
  intro d sofar at_ hsofar
  refine (Tracks.invariant (fun m : Virtio × Prop => m.2 ∧ At s m.1) h ?_ ?_
    ⟨hsofar, at_⟩).conseq ?_
  · rintro ⟨d, sofar⟩ ⟨o, r⟩ hquiet ⟨hsofar, at_⟩
    cases o with
    | inr o => exact ⟨⟨hsofar, trivial⟩, at_⟩
    | inl o =>
      cases o with
      | vqKick vq =>
        rcases at_ with hblind | rfl
        · exact ⟨⟨hsofar, Or.inl hblind⟩, Or.inl (Virtio.next_blind hblind _)⟩
        rcases hquiet with ⟨hasked, hsome⟩ | ⟨rfl, hnone⟩
        · exact ⟨⟨hsofar, Or.inr (Or.inl ⟨trivial, hasked, hsome⟩)⟩,
            Or.inr (Virtio.next_toSetup keep d ⟨.vqKick vq, r⟩)⟩
        · exact ⟨⟨hsofar, Or.inr (Or.inr ⟨rfl, hnone⟩)⟩,
            Or.inr (Virtio.next_toSetup keep d ⟨.vqKick .logOutput, r⟩)⟩
      | _ => exact hquiet.elim
  · exact fun m hm => hm.1
  · rintro a m ⟨hsofar, at'⟩
    exact ⟨hsofar, s, rfl, at'⟩

end Rules

section Quiet

variable {b : ConsoleTexts} {s : Setup} {α : Type}

abbrev Kicks (s : Setup) (vq : Vq) : Prop := Quiet s (.inl (.vqKick vq))

theorem uses_queueOp {vq : Vq} {o : VqOp} (h : o = .kick → Kicks s vq) :
    (queueOp vq o).Uses (Quiet s) := by
  cases o with
  | kick => exact .call (h rfl)
  | _ => exact .call trivial

theorem uses_onQueue {vq : Vq} (h : Kicks s vq) (p : VqProg α) :
    (onQueue vq p).Uses (Quiet s) :=
  p.uses_any.expand fun _ _ => uses_queueOp fun _ => h

/-- Buffers may be made available before the device is up. -/
theorem uses_controlSetup (vq : Vq) (base : UInt64) :
    (onQueue vq (ExternalTrusty.controlSetup base)).Uses (Quiet s) := by
  have hset : ∀ (i : Fin vqSize) (data len : UInt64), (vqSetBufW i data len).Uses (· ≠ .kick) := by
    intro i data len
    refine .bind (.call nofun) fun _ => .bind (.call nofun) fun _ => .bind (.call nofun) ?_
    intro found
    split
    · trivial
    · exact .forever fun _ => trivial
  have havail : ∀ i : Fin vqSize, (vqMakeAvail i).Uses (· ≠ .kick) := fun i =>
    .bind (.call nofun) fun _ => .bind (.call nofun) fun _ => .bind (.call nofun) fun _ =>
      .call nofun
  have hsetup : (ExternalTrusty.controlSetup base).Uses (· ≠ .kick) := by
    refine .forever ?_
    intro idx
    split
    · exact (hset _ _ _).bind fun _ => (havail _).bind fun _ => trivial
    · trivial
  exact hsetup.expand fun o ho => uses_queueOp fun hkick => absurd hkick ho

theorem uses_logBuf (h : Kicks s .logOutput) (size : Nat) : (logBuf b size).Uses (Quiet s) := by
  refine .bind (.whileDo ?_) fun _ => trivial
  intro remain
  exact (uses_onQueue h _).bind fun _ => trivial

theorem uses_hostExit (h : Kicks s .logOutput) : (hostExit b).Uses (Quiet s) :=
  (uses_onQueue h _).bind fun _ => trivial

theorem uses_assertThat (h : Kicks s .logOutput) (ok : Bool) (line : Nat) :
    (assertThat b ok line).Uses (Quiet s) :=
  .onlyIf ((uses_logBuf h _).bind fun _ => uses_hostExit h)

theorem uses_sendControlMsg (h : Kicks s .cmdOutput) : (sendControlMsg b).Uses (Quiet s) :=
  (uses_onQueue h _).bind fun _ => trivial

theorem uses_handleControlMsg (hin : Kicks s .cmdInput) (hout : Kicks s .cmdOutput)
    (hlog : Kicks s .logOutput) (ports : Ports) (bufSize : Nat) (idx : Fin vqSize) :
    (handleControlMsg b ports bufSize idx).Uses (Quiet s) := by
  have hrelease : (releaseControlMsg b idx).Uses (Quiet s) := uses_onQueue hin _
  refine (Prog.Uses.call trivial).bind ?_
  intro msg
  dsimp only
  split
  · refine hrelease.bind fun _ => (Prog.Uses.call trivial).bind ?_
    intro msg
    exact ((uses_assertThat hlog _ _).bind fun _ => uses_sendControlMsg hout).bind fun _ => trivial
  split
  · exact hrelease.bind fun _ => trivial
  split
  · exact hrelease.bind fun _ => trivial
  · exact hrelease.bind fun _ => trivial

theorem uses_controlScan (hin : Kicks s .cmdInput) (hout : Kicks s .cmdOutput)
    (hlog : Kicks s .logOutput) (ports : Ports) : (controlScan b ports).Uses (Quiet s) := by
  refine (uses_sendControlMsg hout).bind fun _ => .forever ?_
  intro ports
  refine (uses_onQueue hin _).bind ?_
  rintro (_ | ⟨_, bufSize, idx⟩)
  · trivial
  · exact (uses_handleControlMsg hin hout hlog _ _ _).bind fun _ => trivial

theorem uses_storageStep (hlog : Kicks s .logOutput) {ret : ConsoleProg Int} {len : UInt64}
    {line : Nat} {next : ConsoleProg Int} (hret : ret.Uses (Quiet s))
    (hnext : next.Uses (Quiet s)) : (storageStep b ret len line next).Uses (Quiet s) := by
  refine hret.bind ?_
  intro r
  split
  · trivial
  · exact (uses_assertThat hlog _ _).bind fun _ => hnext

theorem uses_rpmbStorageSend (hin : Kicks s .rpmbInput) (hout : Kicks s .rpmbOutput)
    (hlog : Kicks s .logOutput) (relWriteSize writeSize readSize : UInt64) :
    (rpmbStorageSend b relWriteSize writeSize readSize).Uses (Quiet s) := by
  have hsend : ∀ len, (onQueue .rpmbOutput (sendVq b.storage len)).Uses (Quiet s) :=
    fun len => uses_onQueue hout _
  refine (uses_assertThat hlog _ _).bind fun _ => (uses_assertThat hlog _ _).bind fun _ => ?_
  refine uses_storageStep hlog (hsend 2) ?_
  refine uses_storageStep hlog (hsend 2) ?_
  refine uses_storageStep hlog (hsend relWriteSize) ?_
  refine uses_storageStep hlog (hsend writeSize) ?_
  exact uses_storageStep hlog (uses_onQueue hin _) trivial

end Quiet

section QueueNumbers

theorem virtioConsoleQ_toNat {portId : Nat} (h : portId < maxPorts) :
    (virtioConsoleQ portId).toNat = portId * 2 + if portId ≥ 1 then 2 else 0 := by
  have h16 : portId < 16 := h
  rw [virtioConsoleQ, UInt16.toNat_ofNat']
  split <;> omega

theorem rxQueue_toNat {portId : Nat} (h : portId < maxPorts) :
    (virtioConsoleQ portId + virtioConsoleRxOffset).toNat =
      portId * 2 + if portId ≥ 1 then 2 else 0 := by
  rw [show virtioConsoleQ portId + virtioConsoleRxOffset = virtioConsoleQ portId from
    UInt16.add_zero _, virtioConsoleQ_toNat h]

theorem txQueue_toNat {portId : Nat} (h : portId < maxPorts) :
    (virtioConsoleQ portId + virtioConsoleTxOffset).toNat =
      portId * 2 + (if portId ≥ 1 then 2 else 0) + 1 := by
  have h16 : portId < 16 := h
  have hone : virtioConsoleTxOffset.toNat = 1 := rfl
  rw [UInt16.toNat_add, virtioConsoleQ_toNat h, hone]
  split <;> omega

end QueueNumbers

/-- A device that is up, with the console's control queues and those of some ports. -/
structure Up (portIds : List Nat) (s : Setup) : Prop where
  asked : s.asked = 15
  page : s.pageSize = TestRunner.pageSize
  cmdInput : (s.queueId .cmdInput).isSome
  cmdOutput : (s.queueId .cmdOutput).isSome
  free : ∀ portId < maxPorts, portId ∉ portIds →
    s.rings (virtioConsoleQ portId + virtioConsoleRxOffset) = none ∧
      s.rings (virtioConsoleQ portId + virtioConsoleTxOffset) = none

theorem Up.kicks {portIds : List Nat} {s : Setup} (h : Up portIds s) {vq : Vq}
    (hsome : (s.queueId vq).isSome) : Kicks s vq := Or.inl ⟨h.asked, hsome⟩

section Boot

variable {keep : Virtio.Keep} {b : ConsoleTexts} {s : Setup}

theorem reports_of_none (h : s.queueId .logOutput = none) : Kicks s .logOutput := Or.inr ⟨rfl, h⟩

/-- The number of a port's queue is that of no other. -/
theorem queue_ne {p q : Nat} (hp : p < maxPorts) (hq : q < maxPorts) (hne : p ≠ q) :
    virtioConsoleQ p + virtioConsoleRxOffset ≠ virtioConsoleQ q + virtioConsoleRxOffset ∧
    virtioConsoleQ p + virtioConsoleRxOffset ≠ virtioConsoleQ q + virtioConsoleTxOffset ∧
    virtioConsoleQ p + virtioConsoleTxOffset ≠ virtioConsoleQ q + virtioConsoleRxOffset ∧
    virtioConsoleQ p + virtioConsoleTxOffset ≠ virtioConsoleQ q + virtioConsoleTxOffset := by
  simp only [Ne, ← UInt16.toNat_inj, rxQueue_toNat hp, rxQueue_toNat hq, txQueue_toNat hp,
    txQueue_toNat hq]
  split <;> split <;> omega

/-- The numbers of a port's queues are two, and none of the control queues'. -/
theorem queue_not_control {p : Nat} (hp : p < maxPorts) :
    virtioConsoleQ p + virtioConsoleRxOffset ≠ virtioConsoleCtrlRx ∧
    virtioConsoleQ p + virtioConsoleRxOffset ≠ virtioConsoleCtrlTx ∧
    virtioConsoleQ p + virtioConsoleTxOffset ≠ virtioConsoleCtrlRx ∧
    virtioConsoleQ p + virtioConsoleTxOffset ≠ virtioConsoleCtrlTx ∧
    virtioConsoleQ p + virtioConsoleTxOffset ≠ virtioConsoleQ p + virtioConsoleRxOffset := by
  have hrx : virtioConsoleCtrlRx.toNat = 2 := rfl
  have htx : virtioConsoleCtrlTx.toNat = 3 := rfl
  simp only [Ne, ← UInt16.toNat_inj, rxQueue_toNat hp, txQueue_toNat hp, hrx, htx]
  split <;> omega

/-- A device of which these status bits are asked for, and that has no queue. -/
structure Bare (asked : UInt32) (s : Setup) : Prop where
  asked : s.asked = asked
  queueId : ∀ vq, s.queueId vq = none
  rings : ∀ idx, s.rings idx = none

namespace Bare

variable {asked : UInt32}

theorem ask (h : Bare asked s) {flags asked' : UInt32} (hasked : asked ||| flags = asked') :
    Bare asked' (s.step (.orStatus flags)) :=
  ⟨by rw [← hasked, ← h.asked]; rfl, h.queueId, h.rings⟩

theorem goes_ask (h : Bare asked s) {flags asked' : UInt32} (hlow : flags.toUInt8 ≠ 0)
    (hasked : asked ||| flags = asked') (orderly : s.Orderly (.orStatus flags)) :
    Goes keep s (virtio (.orStatus flags)) fun _ s' =>
      Bare asked' s' ∧ s'.guest = s.guest ∧ s'.pageSize = s.pageSize := by
  refine (Goes.virtio (o := .orStatus flags) hlow orderly).mono ?_
  rintro _ _ rfl
  exact ⟨h.ask hasked, rfl, rfl⟩

theorem goes_assertThat (h : Bare asked s) (ok : Bool) (line : Nat) :
    Goes keep s (assertThat b ok line) fun _ s' => s' = s :=
  .quiet (uses_assertThat (reports_of_none (h.queueId _)) ok line)

end Bare

/-- The control queues are attached, and the device is up. -/
theorem goes_controlSetup (h : Bare 11 s) (hpage : s.pageSize = TestRunner.pageSize) :
    Goes keep s (controlSetup b) fun _ s' =>
      s'.asked = 11 ∧ Up [] (s'.step (.orStatus virtioStatusDriverOk)) ∧
        ∀ vq, vq ≠ .cmdInput → vq ≠ .cmdOutput → s'.queueId vq = none := by
  refine .bind (.virtio trivial (h.queueId .cmdInput)) ?_
  rintro _ _ rfl
  refine .bind (.virtio trivial (h.queueId .cmdOutput)) ?_
  rintro _ _ rfl
  refine .bind (.virtio ⟨rfl, hpage⟩ ⟨Or.inl h.asked, h.rings _, h.queueId _⟩) ?_
  rintro _ _ rfl
  refine .bind (.virtio (o := .vqAttach .cmdOutput virtioConsoleCtrlTx) ⟨rfl, hpage⟩
    ⟨Or.inl h.asked, ?_, ?_⟩) ?_
  · simp [Setup.step, h.rings, virtioConsoleCtrlTx, virtioConsoleCtrlRx]
  · simp [Setup.step, h.queueId]
  rintro _ _ rfl
  refine (Goes.quiet (uses_controlSetup .cmdInput b.cmsgBuf)).mono ?_
  rintro _ _ rfl
  refine ⟨h.asked, ⟨?_, hpage, ?_, ?_, ?_⟩, ?_⟩
  · show s.asked ||| virtioStatusDriverOk = 15
    rw [h.asked]
    decide
  · simp [Setup.step]
  · simp [Setup.step]
  · intro portId hlt _
    obtain ⟨h₁, h₂, h₃, h₄, _⟩ := queue_not_control hlt
    simp [Setup.step, h.rings, Function.update_of_ne, h₁, h₂, h₃, h₄]
  · intro vq hin hout
    simp [Setup.step, h.queueId, Function.update_of_ne, hin, hout]

/-- The console comes up in order. -/
theorem goes_initVirtioConsole (fresh : ∀ vq, s.queueId vq = none) (ports : Ports) :
    Goes keep s (initVirtioConsole b ports) fun found s' => found ≠ none →
      Up [] s' ∧ ∀ vq, vq ≠ .cmdInput → vq ≠ .cmdOutput → s'.queueId vq = none := by
  have hmiddle : (desiredFeatures >>> 16) &&& 0xFFFF = 0 := by decide
  have hwanted : desiredFeatures ≠ 0 := by decide
  have hlow : virtioStatusDriverOk.toUInt8 ≠ 0 := by decide
  refine .bind (.quiet (.call trivial)) ?_
  rintro probe s rfl
  cases probe with
  | missing text =>
    refine .bind (.quiet (uses_logBuf (reports_of_none (fresh _)) _)) ?_
    rintro _ s rfl
    exact .ret fun h => absurd rfl h
  | found =>
    refine .bind (.virtio trivial fresh) ?_
    rintro _ _ rfl
    have bare : Bare 0 (s.step .resetDevice) := ⟨rfl, fresh, fun _ => rfl⟩
    refine .bind (bare.goes_ask (by decide) rfl (Or.inl ⟨rfl, bare.asked⟩)) ?_
    rintro _ s₂ ⟨bare₂, -, -⟩
    refine .bind (bare₂.goes_ask (by decide) rfl (Or.inr (Or.inl ⟨rfl, bare₂.asked⟩))) ?_
    rintro _ s₃ ⟨bare₃, -, -⟩
    refine .bind (.virtio trivial trivial) ?_
    rintro features s₃ rfl
    refine .bind (bare₃.goes_assertThat _ _) ?_
    rintro _ s₃ rfl
    refine .bind (.virtio (o := .setFeatures desiredFeatures) hmiddle bare₃.asked) ?_
    rintro _ _ rfl
    have bare₄ : Bare 3 (s₃.step (.setFeatures desiredFeatures)) :=
      ⟨bare₃.asked, bare₃.queueId, bare₃.rings⟩
    refine .bind (bare₄.goes_ask (by decide) rfl
      (Or.inr (Or.inr (Or.inl ⟨rfl, bare₄.asked, hwanted⟩)))) ?_
    rintro _ s₅ ⟨bare₅, -, -⟩
    refine .bind (.virtio trivial trivial) ?_
    rintro status s₅ rfl
    refine .bind (bare₅.goes_assertThat _ _) ?_
    rintro _ s₅ rfl
    refine .bind (.virtio (o := .setGuestPageSize TestRunner.pageSize) bare₅.rings bare₅.asked) ?_
    rintro _ _ rfl
    have bare₆ : Bare 11 (s₅.step (.setGuestPageSize TestRunner.pageSize)) :=
      ⟨bare₅.asked, bare₅.queueId, bare₅.rings⟩
    refine .bind (goes_controlSetup bare₆ rfl) ?_
    rintro _ s₇ ⟨hasked, hup, hnone⟩
    refine .bind (.virtio (o := .orStatus virtioStatusDriverOk) hlow
      (Or.inr (Or.inr (Or.inr ⟨rfl, hasked⟩)))) ?_
    rintro _ _ rfl
    refine .bind (.quiet (uses_controlScan (hup.kicks hup.cmdInput) (hup.kicks hup.cmdOutput)
      (reports_of_none (hnone _ (by decide) (by decide))) _)) ?_
    rintro ports' _ rfl
    exact .ret fun _ => ⟨hup, hnone⟩

/-- The two queues of one more port are attached. -/
theorem goes_connectPort {portIds : List Nat} (up : Up portIds s) {portId : Nat}
    (hlt : portId < maxPorts) (hnew : portId ∉ portIds) {vqIn vqOut : Vq} (hne : vqOut ≠ vqIn)
    (hin : s.ready vqIn ∧ s.queueId vqIn = none) (hout : s.ready vqOut ∧ s.queueId vqOut = none)
    (ports : Ports) :
    Goes keep s (virtioConsoleConnectPort b ports portId vqIn vqOut) fun ports' s' =>
      (∀ i, (ports' i).name = (ports i).name) ∧ Up (portId :: portIds) s' ∧
        (s'.queueId vqIn).isSome ∧ (s'.queueId vqOut).isSome ∧
        ∀ vq, vq ≠ vqIn → vq ≠ vqOut → s'.queueId vq = s.queueId vq := by
  obtain ⟨hrx, htx⟩ := up.free portId hlt hnew
  obtain ⟨_, _, _, _, hown⟩ := queue_not_control hlt
  refine .bind (.virtio (o := .vqAttach vqIn (virtioConsoleQ portId + virtioConsoleRxOffset))
    ⟨hin.1, up.page⟩ ⟨Or.inr up.asked, hrx, hin.2⟩) ?_
  rintro _ _ rfl
  refine .bind (.virtio (o := .vqAttach vqOut (virtioConsoleQ portId + virtioConsoleTxOffset))
    ⟨hout.1, up.page⟩ ⟨Or.inr up.asked, ?_, ?_⟩) ?_
  · simp [Setup.step, Function.update_of_ne, hown, htx]
  · simp [Setup.step, Function.update_of_ne, hne, hout.2]
  rintro _ _ rfl
  have up' : Up (portId :: portIds) ((s.step (.vqAttach vqIn (virtioConsoleQ portId +
      virtioConsoleRxOffset))).step (.vqAttach vqOut (virtioConsoleQ portId +
      virtioConsoleTxOffset))) := by
    refine ⟨up.asked, up.page, ?_, ?_, ?_⟩
    · by_cases h₁ : Vq.cmdInput = vqOut
      · simp [Setup.step, h₁]
      by_cases h₂ : Vq.cmdInput = vqIn
      · simp [Setup.step, h₂, hne.symm, Function.update_of_ne]
      · simpa [Setup.step, Function.update_of_ne, h₁, h₂] using up.cmdInput
    · by_cases h₁ : Vq.cmdOutput = vqOut
      · simp [Setup.step, h₁]
      by_cases h₂ : Vq.cmdOutput = vqIn
      · simp [Setup.step, h₂, hne.symm, Function.update_of_ne]
      · simpa [Setup.step, Function.update_of_ne, h₁, h₂] using up.cmdOutput
    · intro q hq hnot
      have hqp : q ≠ portId := fun h => hnot (by simp [h])
      obtain ⟨h₁, h₂, h₃, h₄⟩ := queue_ne hq hlt hqp
      obtain ⟨f₁, f₂⟩ := up.free q hq fun h => hnot (List.mem_cons_of_mem _ h)
      simp [Setup.step, Function.update_of_ne, h₁, h₂, h₃, h₄, f₁, f₂]
  refine .bind (.quiet (uses_sendControlMsg (up'.kicks up'.cmdOutput))) ?_
  rintro _ _ rfl
  refine .ret ⟨?_, up', ?_, ?_, ?_⟩
  · intro i
    by_cases hi : i = portId
    · subst hi
      simp [Ports.on]
    · simp [Ports.on, Function.update_of_ne hi]
  · simp [Setup.step, Function.update_of_ne, hne.symm]
  · simp [Setup.step]
  · intro vq h₁ h₂
    simp [Setup.step, Function.update_of_ne, h₁, h₂]

theorem scanPorts_some {devname : List UInt8} {ports : Ports} {portId : Nat}
    (h : scanPorts devname ports = some portId) :
    portId < maxPorts ∧ strcmp devname (ports portId).name = 0 :=
  ⟨List.mem_range.mp (List.mem_of_find?_eq_some h), by simpa using List.find?_some h⟩

/-- No port has both the name of the log's port and that of the storage's. -/
theorem names_differ {p : Port} (h : strcmp testrunnerMsgDevname p.name = 0) :
    strcmp rpmbDevname p.name ≠ 0 := by
  cases hname : p.name with
  | nil => exact absurd (hname ▸ p.size) (by decide)
  | cons c rest =>
    intro hrpmb
    rw [hname] at h
    by_cases hc : c = 0x74
    · subst hc
      exact absurd hrpmb (by simp [strcmp, rpmbDevname])
    · have hsub : ((0x74 : UInt8).toNat : Int) - c.toNat = 0 := by
        simpa [strcmp, testrunnerMsgDevname, Ne.symm hc] using h
      have hsame : c.toNat = (0x74 : UInt8).toNat := by omega
      exact hc (UInt8.toNat_inj.mp hsame)

/-- Either port's queues, which were not in use, are initialised and then attached. -/
theorem goes_openPort {portIds : List Nat} (up : Up portIds s) {portId : Nat}
    (hlt : portId < maxPorts) (hnew : portId ∉ portIds) {vqIn vqOut : Vq} (hne : vqOut ≠ vqIn)
    (hin : s.queueId vqIn = none) (hout : s.queueId vqOut = none) (ports : Ports) :
    Goes keep s (do
      virtio (.vqInit vqIn)
      virtio (.vqInit vqOut)
      let ports ← virtioConsoleConnectPort b ports portId vqIn vqOut
      return some ports) fun found s' => ∃ ports', found = some ports' ∧
        (∀ i, (ports' i).name = (ports i).name) ∧ Up (portId :: portIds) s' ∧
        (s'.queueId vqIn).isSome ∧ (s'.queueId vqOut).isSome ∧
        ∀ vq, vq ≠ vqIn → vq ≠ vqOut → s'.queueId vq = s.queueId vq := by
  refine .bind (.virtio (o := .vqInit vqIn) trivial hin) ?_
  rintro _ _ rfl
  refine .bind (.virtio (o := .vqInit vqOut) trivial hout) ?_
  rintro _ _ rfl
  have up' : Up portIds ((s.step (.vqInit vqIn)).step (.vqInit vqOut)) :=
    ⟨up.asked, up.page, up.cmdInput, up.cmdOutput, up.free⟩
  refine .bind (goes_connectPort up' hlt hnew hne ⟨?_, hin⟩ ⟨?_, hout⟩ ports) ?_
  · simp [Setup.step, Function.update_of_ne, hne.symm]
  · simp [Setup.step]
  rintro ports' s' ⟨hnames, hup, h₁, h₂, hrest⟩
  exact .ret ⟨ports', rfl, hnames, hup, h₁, h₂, hrest⟩

theorem goes_initLog (up : Up [] s)
    (hnone : ∀ vq, vq ≠ .cmdInput → vq ≠ .cmdOutput → s.queueId vq = none) (ports : Ports) :
    Goes keep s (initLog b ports) fun found s' => ∀ ports', found = some ports' →
      ∃ portId, strcmp testrunnerMsgDevname (ports' portId).name = 0 ∧ Up [portId] s' ∧
        (s'.queueId .logInput).isSome ∧ (s'.queueId .logOutput).isSome ∧
        s'.queueId .rpmbInput = none ∧ s'.queueId .rpmbOutput = none := by
  unfold initLog
  split
  · exact .ret nofun
  next portId hscan =>
    have hfound := scanPorts_some (Option.filter_eq_some_iff.mp hscan).1
    refine (goes_openPort up hfound.1 (by simp) (by decide) (hnone _ (by decide) (by decide))
      (hnone _ (by decide) (by decide)) ports).mono ?_
    rintro _ s' ⟨ports', rfl, hnames, hup, h₁, h₂, hrest⟩ _ heq
    cases heq
    refine ⟨portId, by rw [hnames, hfound.2], hup, h₁, h₂, ?_, ?_⟩
    · rw [hrest _ (by decide) (by decide), hnone _ (by decide) (by decide)]
    · rw [hrest _ (by decide) (by decide), hnone _ (by decide) (by decide)]

theorem goes_initVirtioRpmb {logPort : Nat} {ports : Ports} (up : Up [logPort] s)
    (hlog : strcmp testrunnerMsgDevname (ports logPort).name = 0)
    (hreport : (s.queueId .logOutput).isSome) (hin : s.queueId .rpmbInput = none)
    (hout : s.queueId .rpmbOutput = none) :
    Goes keep s (initVirtioRpmb b ports) fun found s' => s'.asked = 15 ∧
      (s'.queueId .logOutput).isSome ∧
        (found ≠ none → (s'.queueId .rpmbInput).isSome ∧ (s'.queueId .rpmbOutput).isSome) := by
  have hkick : Kicks s .logOutput := up.kicks hreport
  have hscan : Goes keep s (rpmbScan b ports) fun found s' =>
      s' = s ∧ ∀ i, found = some i → i < maxPorts ∧ strcmp rpmbDevname (ports i).name = 0 := by
    unfold rpmbScan
    split
    · exact .ret ⟨rfl, nofun⟩
    next i hi =>
      refine .bind (.quiet (uses_assertThat hkick _ _)) ?_
      rintro _ _ rfl
      refine .ret ⟨rfl, ?_⟩
      intro j hj
      cases hj
      exact scanPorts_some hi
  refine .bind hscan ?_
  rintro found _ ⟨rfl, hfound⟩
  cases found with
  | none => exact .ret ⟨up.asked, hreport, fun h => absurd rfl h⟩
  | some rpmbId =>
    obtain ⟨hlt, hname⟩ := hfound rpmbId rfl
    have hnew : rpmbId ∉ [logPort] := by
      intro h
      rw [List.mem_singleton.mp h] at hname
      exact names_differ hlog hname
    refine (goes_openPort up hlt hnew (by decide) hin hout ports).mono ?_
    rintro _ s' ⟨ports', rfl, _, hup, h₁, h₂, hrest⟩
    refine ⟨hup.asked, ?_, fun _ => ⟨h₁, h₂⟩⟩
    rw [hrest _ (by decide) (by decide)]
    exact hreport

/-- Every operation that `boot` asks of the console's device comes in order, whatever the device,
the host and Trusty answer. -/
theorem goes_bootConsole (fresh : ∀ vq, s.queueId vq = none) (ports : Ports) :
    Goes keep s (bootConsole b ports) fun _ _ => True := by
  refine .bind (goes_initVirtioConsole fresh ports) ?_
  rintro found s₁ hfound
  cases found with
  | none => exact .ret trivial
  | some ports =>
    obtain ⟨up, hnone⟩ := hfound nofun
    refine .bind (goes_initLog up hnone ports) ?_
    rintro found s₂ hlog
    cases found with
    | none => exact .ret trivial
    | some ports =>
      obtain ⟨logPort, hname, up, hin, hout, hrin, hrout⟩ := hlog ports rfl
      refine .bind (.quiet ((uses_onQueue (up.kicks hin) _).bind fun _ => trivial)) ?_
      rintro _ s₂ rfl
      refine .bind (.quiet (.call trivial)) ?_
      rintro requested s₂ rfl
      refine .bind (.quiet (.call trivial)) ?_
      rintro ready s₂ rfl
      split
      · exact .ret trivial
      refine .bind (goes_initVirtioRpmb up hname hout hrin hrout) ?_
      rintro storage s₃ ⟨hasked, hlogOut, hstorage⟩
      have hreport : Kicks s₃ .logOutput := Or.inl ⟨hasked, hlogOut⟩
      refine (Goes.quiet ?_).mono fun _ _ _ => trivial
      refine (Prog.Uses.onlyIf (uses_logBuf hreport _)).bind fun _ => .forever fun _ => ?_
      refine (Prog.Uses.call trivial).bind ?_
      rintro (size | _ | ⟨relWriteSize, writeSize, readSize⟩ | _)
      · exact (uses_logBuf hreport _).bind fun _ => trivial
      · exact (uses_hostExit hreport).bind fun _ => trivial
      · dsimp only
        split
        · trivial
        next hsome =>
          obtain ⟨h₁, h₂⟩ := hstorage hsome
          exact (uses_rpmbStorageSend (Or.inl ⟨hasked, h₁⟩) (Or.inl ⟨hasked, h₂⟩) hreport _ _
            _).bind fun _ => trivial
      · trivial

end Boot

end ExternalTrusty.Console
