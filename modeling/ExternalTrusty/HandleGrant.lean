import ExternalTrusty.WaitIsolation
import ExternalTrusty.CommandContained

namespace ExternalTrusty

open CMemory

variable {σ : Type}

/-- The secure OS answers the connect command with this handle. -/
structure Grants (os : SecureOs σ) (dev : IpcDev) (port : CString) (cookie : UInt64) (h : UInt32)
    (w : World (DevEnv σ)) : Prop where
  fits : port.chars.length + 1 ≤ dev.bufSize.toNat
  executed : (trustyDevExecIpc os dev (cmdSize (prepareConnect w.env.page port cookie))
    (w.withPage (prepareConnect w.env.page port cookie))).1 = 0
  answered : checkResponse (trustyDevExecIpc os dev
    (cmdSize (prepareConnect w.env.page port cookie))
    (w.withPage (prepareConnect w.env.page port cookie))).2.env.page qlTipcDevConnect =
      trustyErrNone
  handle : (trustyDevExecIpc os dev (cmdSize (prepareConnect w.env.page port cookie))
    (w.withPage (prepareConnect w.env.page port cookie))).2.env.page.load cmdHandle 4 = h.toNat

/-- The command that gives a handle back. -/
structure Smc.Disconnects (smc : Smc) (h : UInt32) : Prop where
  nr : smc.nr = smcScTrustyIpcHandleQlDevCmd
  opcode : smc.page.load cmdOpcode 2 = qlTipcDevDisconnect
  handle : smc.page.load cmdHandle 4 = h.toNat

/-- Since the first world, the handle was given back. -/
def Disconnected (h : UInt32) (w w' : World (DevEnv σ)) : Prop :=
  ∃ smc ∈ w'.env.smcs.drop w.env.smcs.length, smc.Disconnects h

/-- Calls into the secure OS are not undone. -/
def Grows (w w' : World (DevEnv σ)) : Prop := w.env.smcs <+: w'.env.smcs

/-- A connect that returns either holds the granted handle, or has given it back. -/
def HandleKept (h : UInt32) (X : Component) (w : World (DevEnv σ)) (rc : Int)
    (w' : World (DevEnv σ)) : Prop :=
  (0 ≤ rc → (w'.chans X).handle = h) ∧
    (rc < 0 → Disconnected h w w' ∧ (w'.chans X).handle = 0)

section Outcomes

variable {ε : Type} {dev : Device ε} {table : Ops → TrustyIpcOps ε} {fuel : Nat} {X : Component}
  {port : CString} {wait : Bool} {w w₁ w' : World ε} {rc₁ rc : Int}

theorem trustyIpcConnect_refused (refused : dev.connect port (chanCookie X) w = (rc₁, w₁))
    (negative : rc₁ < 0) :
    trustyIpcConnect dev table fuel X port wait w = some (rc₁, w₁) := by
  unfold trustyIpcConnect
  simp only [refused]
  exact if_pos negative

/-- After a grant, the connect returns at once or after the wait, and closes when that fails. -/
theorem trustyIpcConnect_granted (granted : dev.connect port (chanCookie X) w = (rc₁, w₁))
    (nonneg : ¬rc₁ < 0)
    (run : trustyIpcConnect dev table fuel X port wait w = some (rc, w')) :
    (¬rc < 0 ∧ w' = w₁.setHandle X (UInt32.ofNat (rc₁ % 2 ^ 32).toNat)) ∨
      ∃ w₂, waitForComplete dev table fuel X
        (w₁.setHandle X (UInt32.ofNat (rc₁ % 2 ^ 32).toNat)) = some (rc, w₂) ∧
          w' = if rc < 0 then (trustyIpcClose dev X w₂).2 else w₂ := by
  unfold trustyIpcConnect at run
  simp only [granted, if_neg nonneg] at run
  split at run
  next =>
    obtain ⟨⟨r, w₂⟩, waited, run⟩ := Option.bind_eq_some_iff.mp run
    right
    simp only at run
    split at run
    next negative =>
      obtain ⟨rfl, rfl⟩ := Prod.mk.inj (Option.some.inj run)
      exact ⟨w₂, waited, (if_pos negative).symm⟩
    next positive =>
      obtain ⟨rfl, rfl⟩ := Prod.mk.inj (Option.some.inj run)
      exact ⟨w₂, waited, (if_neg positive).symm⟩
  next =>
    obtain ⟨rfl, rfl⟩ := Prod.mk.inj (Option.some.inj run)
    exact Or.inl ⟨nonneg, rfl⟩

end Outcomes

section Connect

variable {os : SecureOs σ} {dev : IpcDev} {port : CString} {cookie : UInt64} {h : UInt32}
  {w : World (DevEnv σ)}

theorem Grants.connect (granted : Grants os dev port cookie h w) :
    ∃ w₁, trustyIpcDevConnect os dev port cookie w = (toInt h.toNat, w₁) ∧
      w₁.chans = w.chans ∧ ∃ smc, w₁.env.smcs = w.env.smcs ++ [smc] ∧
        smc.page = prepareConnect w.env.page port cookie := by
  have short : ¬port.chars.length + 1 >
      usize (usizeSub dev.bufSize.toNat sizeofCmdHdr + sizeofConnectReq) := by
    rw [portLen_rejected_iff dev _ port.fits]
    have := granted.fits
    omega
  unfold trustyIpcDevConnect
  rw [if_neg short]
  have answered : checkResponse _ _ = 0 := granted.answered
  simp only [granted.executed, answered, granted.handle, ne_eq, not_true, if_false]
  exact ⟨_, rfl, rfl, _, rfl, rfl⟩

theorem trustyIpcDevice_connect (os : SecureOs σ) (dev : IpcDev) :
    (trustyIpcDevice os dev).connect = trustyIpcDevConnect os dev := by
  simp only [trustyIpcDevice]

theorem prepareConnect_opcode (page : Mem Page) (port : CString) (cookie : UInt64) :
    (prepareConnect page port cookie).load cmdOpcode 2 = qlTipcDevConnect := by
  rw [prepareConnect, Mem.load_store_apart _ (by decide),
    Mem.load_write_apart _ (by simp [Apart, cmdOpcode, connectReqName]),
    Mem.load_store_apart _ (by decide), Mem.memset,
    Mem.load_write_apart _ (by simp [Apart, cmdOpcode, cmdPayload]), prepareHdr]
  exact Mem.load_store_self _ _ (by decide)

theorem close_disconnects (os : SecureOs σ) (dev : IpcDev) (h : UInt32) (w : World (DevEnv σ)) :
    ∃ smc, (trustyIpcDevClose os dev h w).2.env.smcs = w.env.smcs ++ [smc] ∧
      smc.Disconnects h := by
  refine ⟨_, trustyIpcDevClose_smcs os dev h w, rfl, ?_, ?_⟩
  · rw [prepareClose, Mem.load_store_apart _ (by decide)]
    exact Mem.load_store_self _ _ (by decide)
  · rw [prepareClose]
    exact Mem.load_store_self _ _ h.toNat_lt

theorem grows_append {w w' : World (DevEnv σ)} {smcs : List Smc}
    (h : w'.env.smcs = w.env.smcs ++ smcs) : Grows w w' := ⟨smcs, h.symm⟩

theorem trustyIpcDevice_grows (os : SecureOs σ) (dev : IpcDev) :
    (trustyIpcDevice os dev).Keeps Grows where
  refl _ := List.prefix_refl _
  trans := List.IsPrefix.trans
  close handle w := (trustyIpcDevClose_commanded os dev handle w).issued
  hasEvent handle w := (trustyIpcDevHasEvent_commanded os dev handle w).issued
  getEvent handle w := (trustyIpcDevGetEvent_commanded os dev handle w).issued
  send handle iovs w := (trustyIpcDevSend_commanded os dev handle iovs w).issued
  recv handle iovs w := (trustyIpcDevRecv_commanded os dev handle iovs w).issued
  idle _ := List.prefix_refl _

theorem disconnected_of_close {w w' : World (DevEnv σ)} (grows : Grows w w') (X : Component)
    (held : (w'.chans X).handle = h) :
    Disconnected h w (trustyIpcClose (trustyIpcDevice os dev) X w').2 := by
  obtain ⟨smc, issued, disconnects⟩ := close_disconnects os dev h w'
  obtain ⟨new, smcs⟩ := grows
  refine ⟨smc, ?_, disconnects⟩
  show smc ∈ (trustyIpcDevClose os dev (w'.chans X).handle w').2.env.smcs.drop _
  rw [held, issued, ← smcs, List.append_assoc, List.drop_left]
  exact List.mem_append_right _ List.mem_cons_self

section Wait

variable {table : Ops → TrustyIpcOps (DevEnv σ)} {X : Component}

/-- A wait keeps the handle, and what it does is on record. -/
theorem waitForComplete_keeps (sync : table .sync = syncIpcOps) (spares : ∀ o, (table o).Spares X)
    (records : ∀ o c, (table o).Keeps Grows c) {fuel : Nat} {r : Int} {w w' : World (DevEnv σ)}
    (ops : (w.chans X).ops = .sync)
    (run : waitForComplete (trustyIpcDevice os dev) table fuel X w = some (r, w')) :
    (w'.chans X).handle = (w.chans X).handle ∧ Grows w w' := by
  have hdev := trustyIpcDevice_discreet os dev
  have keeps := trustyIpcDevice_grows os dev
  have ops₀ : ((w.setComplete X 0).chans X).ops = .sync := by rw [setComplete_ops, ops]
  have waiting : ((w.setComplete X 0).chans X).complete = 0 := by simp [World.setComplete]
  obtain ⟨before, last, w₁, polls, still, polled, _⟩ :=
    (waitLoop_iff hdev spares sync ops₀ waiting).mp run
  obtain ⟨same, _⟩ := waitLoop_polls hdev spares sync polls still ops₀ waiting 0
  constructor
  · rw [polled.handle hdev spares sync (by rw [same, ops₀]), same, setComplete_handle]
  · have start : Grows w (w.setComplete X 0) := List.prefix_refl _
    exact start.trans ((polls.keeps keeps records).trans (polled.keeps keeps records))

end Wait

/-- The handle comes back from the `int` it was returned as. -/
theorem handle_of_toInt (h : UInt32) : UInt32.ofNat (toInt h.toNat % 2 ^ 32).toNat = h := by
  rw [toInt_emod, Int.toNat_natCast, Nat.mod_eq_of_lt h.toNat_lt, UInt32.ofNat_toNat]

/-- A granted handle is held or given back exactly when it is positive as an `int`: the others are
taken for errors. -/
theorem grantKept_iff {table : Ops → TrustyIpcOps (DevEnv σ)} {X : Component}
    (sync : table .sync = syncIpcOps) (spares : ∀ o, (table o).Spares X)
    (records : ∀ o c, (table o).Keeps Grows c) (ops : (w.chans X).ops = .sync)
    (granted : Grants os dev port (chanCookie X) h w) (wait : Bool) :
    (∀ fuel rc w', trustyIpcConnect (trustyIpcDevice os dev) table fuel X port wait w =
      some (rc, w') → HandleKept h X w rc w') ↔ h.toNat < 2 ^ 31 := by
  obtain ⟨w₁, connected, chans, smc, issued, page⟩ := granted.connect
  have device : (trustyIpcDevice os dev).connect port (chanCookie X) w = (toInt h.toNat, w₁) := by
    rw [trustyIpcDevice_connect, connected]
  constructor
  · intro kept
    by_contra large
    have negative : toInt h.toNat < 0 := toInt_neg (not_lt.mp large) h.toNat_lt
    have run := @trustyIpcConnect_refused _ _ table 0 _ _ wait _ _ _ device negative
    obtain ⟨smc', mem, disconnects⟩ := ((kept 0 _ w₁ run).2 negative).1
    rw [issued, List.drop_left, List.mem_singleton] at mem
    have opcode := disconnects.opcode
    rw [mem, page, prepareConnect_opcode] at opcode
    exact absurd opcode (by decide)
  · intro small fuel rc w' run
    have positive : ¬toInt h.toNat < 0 := by
      rw [toInt_of_lt small]
      omega
    have held : ((w₁.setHandle X h).chans X).handle = h := by simp [World.setHandle]
    have outcome := trustyIpcConnect_granted device positive run
    rw [handle_of_toInt] at outcome
    rcases outcome with ⟨nonneg, rfl⟩ | ⟨w₂, waited, rfl⟩
    · exact ⟨fun _ => held, fun negative => absurd negative nonneg⟩
    · have ops₁ : ((w₁.setHandle X h).chans X).ops = .sync := by
        rw [setHandle_ops, chans, ops]
      obtain ⟨handle, grows⟩ := waitForComplete_keeps sync spares records ops₁ waited
      have since : Grows w w₂ := (grows_append issued).trans grows
      split
      next negative =>
        refine ⟨fun nonneg => absurd negative (not_lt.mpr nonneg), fun _ => ⟨?_, ?_⟩⟩
        · exact disconnected_of_close since X (handle.trans held)
        · simp [trustyIpcClose, World.setHandle]
      next nonneg =>
        exact ⟨fun _ => handle.trans held, fun negative => absurd negative nonneg⟩

end Connect

/-- The program's callbacks do not undo calls into the secure OS either. -/
theorem opsTable_records {os : SecureOs σ} {dev : IpcDev} {rpmb : RpmbDevice (DevEnv σ)}
    {target : Target} (hrpmb : ∀ rel relSize wr wrSize buf size w,
      Grows w (rpmb.storageSend rel relSize wr wrSize buf size w).2) (o : Ops) (c : Component) :
    (opsTable target (trustyIpcDevice os dev) rpmb o).Keeps Grows c :=
  Keeps.opsTable ⟨trustyIpcDevice_grows os dev, fun _ _ => List.prefix_refl _, hrpmb⟩
    (fun _ => List.prefix_refl _) (fun _ _ => List.prefix_refl _) o

/-- The service's channel before it is connected. -/
def unconnected (events : List IpcEvent) : World (DevEnv (List IpcEvent)) :=
  (eventWorld events).setHandle .proxy 0

/-- Handle 2147483648 is taken for an error, and never given back. -/
theorem largeHandle_lost :
    Grants (eventOs 2147483648) onePage storageDiskProxyPort (chanCookie .proxy) 2147483648
      (unconnected []) ∧
    ∃ rc w', trustyIpcConnect (eventDevice 2147483648) (eventOps 2147483648) 1 .proxy
        storageDiskProxyPort true (unconnected []) = some (rc, w') ∧
      ¬HandleKept 2147483648 .proxy (unconnected []) rc w' := by
  refine ⟨⟨by decide, rfl, rfl, rfl⟩, ?_⟩
  obtain ⟨w', run, opcodes⟩ : ∃ w', trustyIpcConnect (eventDevice 2147483648)
      (eventOps 2147483648) 1 .proxy storageDiskProxyPort true (unconnected []) =
        some (-2147483648, w') ∧
      w'.env.smcs.map (fun smc => smc.page.load cmdOpcode 2) = [1] := ⟨_, rfl, rfl⟩
  refine ⟨_, w', run, fun kept => ?_⟩
  obtain ⟨smc, mem, disconnects⟩ := (kept.2 (by decide)).1
  have opcode := List.mem_map_of_mem (f := fun smc : Smc => smc.page.load cmdOpcode 2)
    (List.mem_of_mem_drop mem)
  rw [opcodes, List.mem_singleton, disconnects.opcode] at opcode
  exact absurd opcode (by decide)

/-- Handle 5 is granted, the connection is refused, and the handle given back. -/
theorem smallHandle_kept : ∃ rc w', trustyIpcConnect (eventDevice 5) (eventOps 5) 1 .proxy
      storageDiskProxyPort true (unconnected [⟨4, 5, 4⟩]) = some (rc, w') ∧
    HandleKept 5 .proxy (unconnected [⟨4, 5, 4⟩]) rc w' := by
  obtain ⟨w', run⟩ : ∃ w', trustyIpcConnect (eventDevice 5) (eventOps 5) 1 .proxy
      storageDiskProxyPort true (unconnected [⟨4, 5, 4⟩]) = some (trustyErrChannelClosed, w') :=
    ⟨_, rfl⟩
  have granted : Grants (eventOs 5) onePage storageDiskProxyPort (chanCookie .proxy) 5
      (unconnected [⟨4, 5, 4⟩]) := ⟨by decide, rfl, rfl, rfl⟩
  exact ⟨_, w', run, (grantKept_iff rfl (eventOps_spares 5 .proxy)
    (opsTable_records fun _ _ _ _ _ _ _ => List.prefix_refl _) rfl granted true).mpr (by decide)
    1 _ w' run⟩

end ExternalTrusty
