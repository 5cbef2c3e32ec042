import ExternalTrusty.Surroundings
import ExternalTrusty.Hwbcc

namespace ExternalTrusty

open CMemory

variable {ε : Type}

/-- The handles that the secure OS has open, with the components they were granted to. -/
abbrev HandleTable := List (UInt32 × Component)

/-- The result of a connect, as a handle. -/
def handleOf (rc : Int) : UInt32 := UInt32.ofNat (rc % 2 ^ 32).toNat

def HandleTable.grant (t : HandleTable) (cookie : UInt64) (handle : UInt32) : HandleTable :=
  match chanOfCookie cookie with
  | some c => t ++ [(handle, c)]
  | none => t

/-- The handle is closed, from either side. -/
def HandleTable.drop (t : HandleTable) (handle : UInt32) : HandleTable :=
  t.filter fun entry => entry.1 ≠ handle

def HandleTable.record (t : HandleTable) : OsCall → HandleTable
  | .connect cookie rc => if 0 ≤ rc ∧ handleOf rc ≠ 0 then t.grant cookie (handleOf rc) else t
  | .close handle => t.drop handle
  | .event (.ok e) => if e.event &&& ipcHandlePollHup ≠ 0 then t.drop e.handle else t
  | _ => t

def opened (calls : List OsCall) : HandleTable := calls.foldl HandleTable.record []

theorem opened_append (calls calls' : List OsCall) :
    opened (calls ++ calls') = calls'.foldl HandleTable.record (opened calls) :=
  List.foldl_append

theorem HandleTable.mem_drop {t : HandleTable} {handle h : UInt32} {c : Component} :
    (h, c) ∈ t.drop handle ↔ (h, c) ∈ t ∧ h ≠ handle := by
  unfold HandleTable.drop
  rw [List.mem_filter, decide_eq_true_eq]

def OsCall.IsConnect : OsCall → Prop
  | .connect _ _ => True
  | _ => False

/-- Only connecting opens handles. -/
theorem HandleTable.record_fewer {t : HandleTable} {call : OsCall} (h : ¬call.IsConnect)
    {x : UInt32 × Component} (mem : x ∈ t.record call) : x ∈ t := by
  cases call with
  | connect cookie rc => exact absurd trivial h
  | close handle => exact (HandleTable.mem_drop.mp mem).1
  | event evt =>
    cases evt with
    | error rc => exact mem
    | ok e =>
      change x ∈ (if e.event &&& ipcHandlePollHup ≠ 0 then t.drop e.handle else t) at mem
      split at mem
      next => exact (HandleTable.mem_drop.mp mem).1
      next => exact mem
  | send handle rc => exact mem
  | recv handle rc => exact mem

theorem HandleTable.foldl_fewer {calls : List OsCall} (h : ∀ call ∈ calls, ¬call.IsConnect)
    {t : HandleTable} {x : UInt32 × Component} (mem : x ∈ calls.foldl HandleTable.record t) :
    x ∈ t := by
  induction calls generalizing t with
  | nil => exact mem
  | cons call calls ih =>
    obtain ⟨hcall, hcalls⟩ := List.forall_mem_cons.mp h
    exact HandleTable.record_fewer hcall (ih hcalls mem)

/-- A hangup that is reported for the proxy's channel is about the handle that is open for it. -/
def HangupsCurrent (calls : List OsCall) : Prop :=
  ∀ before e after, calls = before ++ .event (.ok e) :: after → e.HangsUp →
    chanOfCookie e.cookie = some .proxy → ∀ h, (h, .proxy) ∈ opened before → h = e.handle

theorem HangupsCurrent.of_append {calls calls' : List OsCall}
    (h : HangupsCurrent (calls ++ calls')) : HangupsCurrent calls := by
  intro before e after eq
  apply h before e (after ++ calls')
  rw [eq, List.append_assoc, List.cons_append]

/-- While a component is set up: what is open is held, and belongs to this component or to one that
is initialized. -/
structure Keeping (s : Surroundings ε) (c : Component) (i : Component → Bool) (w : World ε) :
    Prop where
  initialized : w.initialized = i
  proxies : ∀ c', (w.chans c').ops = .proxy → c' = .proxy
  held : HangupsCurrent (s.log w.env) → ∀ h c', (h, c') ∈ opened (s.log w.env) →
    (w.chans c').handle = h ∧ (c' = c ∨ i c' = true)

section Keeping

variable {s : Surroundings ε} {c : Component} {i : Component → Bool} {w w' : World ε}

theorem Keeping.of_fewer {calls : List OsCall} (h : Keeping s c i w) (did : Did s.log w w' calls)
    (fewer : ∀ x ∈ calls.foldl HandleTable.record (opened (s.log w.env)),
      x ∈ opened (s.log w.env)) : Keeping s c i w' := by
  refine ⟨did.initialized.trans h.initialized, ?_, ?_⟩
  · intro c' proxy
    rw [did.chans] at proxy
    exact h.proxies c' proxy
  · intro current handle c' mem
    rw [did.log] at current mem
    rw [opened_append] at mem
    rw [did.chans]
    exact h.held current.of_append handle c' (fewer _ mem)

/-- Calls that open nothing, with the channels as they were. -/
theorem Keeping.of_did {calls : List OsCall} (h : Keeping s c i w) (did : Did s.log w w' calls)
    (closes : ∀ call ∈ calls, ¬call.IsConnect) : Keeping s c i w' :=
  h.of_fewer did fun _ mem => HandleTable.foldl_fewer closes mem

/-- The channel of `c'` is given up, when nothing is open for it any more. -/
theorem Keeping.setHandle {c' : Component} (h : Keeping s c i w)
    (gone : HangupsCurrent (s.log w.env) → ∀ handle, (handle, c') ∉ opened (s.log w.env))
    (handle : UInt32) : Keeping s c i (w.setHandle c' handle) := by
  refine ⟨h.initialized, ?_, ?_⟩
  · intro d proxy
    rw [setHandle_ops] at proxy
    exact h.proxies d proxy
  · intro current k d mem
    have other : d ≠ c' := by
      rintro rfl
      exact gone current k mem
    have chan : (w.setHandle c' handle).chans d = w.chans d := Function.update_of_ne other _ _
    rw [chan]
    exact h.held current k d mem

theorem Keeping.setComplete (h : Keeping s c i w) (c' : Component) (complete : Int) :
    Keeping s c i (w.setComplete c' complete) := by
  refine ⟨h.initialized, ?_, ?_⟩
  · intro d proxy
    rw [setComplete_ops] at proxy
    exact h.proxies d proxy
  · intro current k d mem
    rw [setComplete_handle]
    exact h.held current k d mem

/-- Disconnecting a channel's handle leaves nothing open for it. -/
theorem Keeping.closed {c' : Component} (h : Keeping s c i w) (calls : List OsCall)
    (did : Did s.log w w' (calls ++ [.close (w.chans c').handle]))
    (closes : ∀ call ∈ calls, ¬call.IsConnect) : Keeping s c i (w'.setHandle c' 0) := by
  apply Keeping.setHandle
  · apply h.of_did did
    exact List.forall_mem_append.mpr ⟨closes, List.forall_mem_singleton.mpr id⟩
  · intro current handle mem
    rw [did.log] at current
    rw [did.log, opened_append, List.foldl_append] at mem
    obtain ⟨mem, differs⟩ := HandleTable.mem_drop.mp mem
    have before := HandleTable.foldl_fewer closes mem
    exact differs (h.held current.of_append handle c' before).1.symm

theorem Keeping.poll {rc : Int} (done : s.PollDone w rc w') (h : Keeping s c i w) :
    Keeping s c i w' := by
  cases done with
  | failed did => exact h.of_did did (List.forall_mem_singleton.mpr id)
  | ignored did => exact h.of_did did (List.forall_mem_singleton.mpr id)
  | completed complete did =>
    exact (h.of_did did (List.forall_mem_singleton.mpr id)).setComplete _ complete
  | @message e d rc w₁ w' got chan proxy brings done =>
    have same : (w₁.chans d).handle = (w.chans d).handle := by rw [got.chans]
    cases done with
    | answered read sent did =>
      apply h.of_did (got.trans did)
      simp [OsCall.IsConnect]
    | unread negative failed did =>
      rw [same] at did
      exact h.closed [_, _] (got.trans did) (by simp [OsCall.IsConnect])
    | unanswered negative read did =>
      rw [same] at did
      exact h.closed [_, _, _] (got.trans did) (by simp [OsCall.IsConnect])
  | @hangup e d w₁ got chan proxy hangs =>
    apply Keeping.setHandle
    · exact h.of_did got (List.forall_mem_singleton.mpr id)
    · intro current handle mem
      rw [got.log] at current
      rw [got.log, opened_append] at mem
      change (handle, d) ∈ (opened (s.log w.env)).record (.event (.ok e)) at mem
      have hup : e.event &&& ipcHandlePollHup ≠ 0 := hangs.2.2
      rw [HandleTable.record, if_pos hup] at mem
      obtain ⟨mem, differs⟩ := HandleTable.mem_drop.mp mem
      obtain rfl := h.proxies d proxy
      exact differs (current _ e [] rfl hangs chan handle mem)

/-- The calls on channels, except connecting and closing, keep to this. -/
theorem Keeping.stable (s : Surroundings ε) (c : Component) (i : Component → Bool) :
    s.Stable (Keeping s c i) where
  quiet did h := h.of_did did nofun
  poll done h := h.poll done
  complete c' complete h := h.setComplete c' complete
  send did h := h.of_did did (List.forall_mem_singleton.mpr id)
  recv did h := h.of_did did (List.forall_mem_singleton.mpr id)

end Keeping

/-- What is kept by sending, by receiving, and by the program's own stores. -/
structure Transport.Keeps (t : Transport ε) (P : World ε → Prop) : Prop where
  send : ∀ {c iovs wait w rc w'}, t.send c iovs wait w = some (rc, w') → P w → P w'
  recv : ∀ {c iovs wait w rc w'}, t.recv c iovs wait w = some (rc, w') → P w → P w'
  mem : ∀ {w} m, P w → P (w.setMem m)

theorem Surroundings.Stable.keeps {s : Surroundings ε} {P : World ε → Prop} (hP : s.Stable P)
    (target : Target) (fuel : Nat) : (ipcTransport s.dev (s.ops target) fuel).Keeps P where
  send h hw := hP.trustyIpcSend h hw
  recv h hw := hP.trustyIpcRecv h hw
  mem m hw := hP.quiet (Did.setMem _ m) hw

namespace Transport.Keeps

variable {t : Transport ε} {P : World ε → Prop} {w w' : World ε} {rc : Int}

theorem avbReadResponse (ht : t.Keeps P) {msg : Ptr Obj} {cmd : Nat} {resp : Option (Ptr Obj)}
    {respLen : UInt32} (h : avbReadResponse t msg cmd resp respLen w = some (rc, w')) (hw : P w) :
    P w' := by
  obtain ⟨⟨rc₁, w₁⟩, received, h⟩ := Option.bind_eq_some_iff.mp h
  have hw₁ := ht.recv received hw
  simp only at h
  split at h
  next =>
    cases h
    exact hw₁
  next =>
    split at h
    next =>
      cases h
      exact hw₁
    next =>
      obtain ⟨_, rfl⟩ := Prod.mk.inj (Option.some.inj h)
      exact hw₁

theorem avbFinish (ht : t.Keeps P) (respSizeP : Option (Ptr Obj)) (rc : Int) (hw : P w) :
    P (avbFinish respSizeP rc w).2 := by
  have ends : ∀ w : World ε, P w → P (if w.mem.load avbMsgResult 4 ≠ avbErrorNone
      then (trustyErrGeneric, w) else (trustyErrNone, w)).2 := by
    intro w hw
    split
    next => exact hw
    next => exact hw
  unfold ExternalTrusty.avbFinish
  cases respSizeP with
  | none => exact ends w hw
  | some p =>
    by_cases differs : (rc % 2 ^ 32).toNat ≠ w.mem.load p 4
    · simp only [if_pos differs]
      exact ends _ (ht.mem _ hw)
    · simp only [if_neg differs]
      exact ends w hw

theorem avbDoTipc (ht : t.Keeps P) {cmd : Nat} {req resp respSizeP : Option (Ptr Obj)}
    {reqSize : UInt32} (h : avbDoTipc t cmd req reqSize resp respSizeP w = some (rc, w'))
    (hw : P w) : P w' := by
  have hw₀ := ht.mem ((w.mem.store avbMsg 4 cmd).store avbMsgResult 4 0) hw
  unfold ExternalTrusty.avbDoTipc at h
  simp only at h
  split at h
  next =>
    cases h
    exact hw₀
  next =>
    obtain ⟨⟨rc₁, w₁⟩, sent, h⟩ := Option.bind_eq_some_iff.mp h
    have hw₁ := ht.send sent hw₀
    simp only at h
    split at h
    next =>
      cases h
      exact hw₁
    next =>
      obtain ⟨⟨rc₂, w₂⟩, read, h⟩ := Option.bind_eq_some_iff.mp h
      have hw₂ := ht.avbReadResponse read hw₁
      simp only at h
      split at h
      next =>
        cases h
        exact hw₂
      next =>
        have hw₃ := ht.avbFinish respSizeP rc₂ hw₂
        rw [Option.some.inj h] at hw₃
        exact hw₃

theorem avbGetVersion (ht : t.Keeps P) {version : Nat}
    (h : avbGetVersion t w = some (rc, version, w')) (hw : P w) : P w' := by
  obtain ⟨⟨rc₁, w₁⟩, done, h⟩ := Option.bind_eq_some_iff.mp h
  cases h
  exact ht.avbDoTipc done (ht.mem _ hw)

theorem kmReadRawLoop (ht : t.Keeps P) {cmd maxRespLen fuel respLen : Nat} {resp : Ptr Obj}
    (h : kmReadRawLoop t cmd resp maxRespLen fuel respLen w = some (rc, w')) (hw : P w) :
    P w' := by
  induction fuel generalizing respLen w with
  | zero => cases h
  | succ fuel ih =>
    obtain ⟨⟨rc₁, w₁⟩, received, h⟩ := Option.bind_eq_some_iff.mp h
    have hw₁ := ht.recv received hw
    simp only at h
    split at h
    next =>
      cases h
      exact hw₁
    next =>
      split at h
      next =>
        obtain ⟨_, rfl⟩ := Prod.mk.inj (Option.some.inj h)
        exact hw₁
      next => exact ih h hw₁

theorem kmGetVersion (ht : t.Keeps P) {fuel : Nat} {version version' : Int}
    (h : kmGetVersion t fuel version w = some (rc, version', w')) (hw : P w) : P w' := by
  obtain ⟨⟨rc₁, w₁⟩, sent, h⟩ := Option.bind_eq_some_iff.mp h
  have hw₁ := ht.send sent (ht.mem _ hw)
  simp only at h
  split at h
  next =>
    cases h
    exact hw₁
  next =>
    obtain ⟨⟨rc₂, w₂⟩, read, h⟩ := Option.bind_eq_some_iff.mp h
    have hw₂ := ht.kmReadRawLoop read (ht.mem _ hw₁)
    simp only at h
    split at h
    next =>
      cases h
      exact hw₂
    next =>
      cases h
      exact hw₂

end Transport.Keeps

theorem chanOfCookie_chanCookie (c : Component) : chanOfCookie (chanCookie c) = some c := by
  cases c with
  | avb => rfl
  | km => rfl
  | hwbcc => rfl
  | proxy => rfl

theorem HandleTable.record_ne_zero {t : HandleTable} (h : ∀ x ∈ t, x.1 ≠ 0) (call : OsCall) :
    ∀ x ∈ t.record call, x.1 ≠ 0 := by
  by_cases connects : call.IsConnect
  · cases call with
    | connect cookie rc =>
      intro x mem
      change x ∈ (if 0 ≤ rc ∧ handleOf rc ≠ 0 then t.grant cookie (handleOf rc) else t) at mem
      split at mem
      next granted =>
        unfold HandleTable.grant at mem
        split at mem
        next =>
          rcases List.mem_append.mp mem with mem | mem
          · exact h x mem
          · rw [List.mem_singleton.mp mem]
            exact granted.2
        next => exact h x mem
      next => exact h x mem
    | close handle => cases connects
    | event evt => cases connects
    | send handle rc => cases connects
    | recv handle rc => cases connects
  · exact fun x mem => h x (HandleTable.record_fewer connects mem)

theorem opened_ne_zero (calls : List OsCall) : ∀ x ∈ opened calls, x.1 ≠ 0 := by
  have kept : ∀ (calls : List OsCall) (t : HandleTable), (∀ x ∈ t, x.1 ≠ 0) →
      ∀ x ∈ calls.foldl HandleTable.record t, x.1 ≠ 0 := by
    intro calls
    induction calls with
    | nil => exact fun t h => h
    | cons call calls ih => exact fun t h => ih _ (HandleTable.record_ne_zero h call)
  exact kept calls [] nofun

/-- Nothing is open for the component, as far as hangups can be trusted. -/
def NoneOpen (s : Surroundings ε) (c : Component) (w : World ε) : Prop :=
  HangupsCurrent (s.log w.env) → ∀ h, (h, c) ∉ opened (s.log w.env)

section Connect

variable {s : Surroundings ε} {c : Component} {i : Component → Bool} {w w' : World ε}

theorem Keeping.chanInit (h : Keeping s c i w) (clear : NoneOpen s c w) :
    Keeping s c i (trustyIpcChanInit c w) := by
  refine ⟨h.initialized, ?_, ?_⟩
  · intro d proxy
    by_cases hd : d = c
    · subst hd
      simp [trustyIpcChanInit] at proxy
    · apply h.proxies d
      simpa [trustyIpcChanInit, Function.update_of_ne hd] using proxy
  · intro current handle d mem
    have hd : d ≠ c := by
      rintro rfl
      exact clear current handle mem
    have chan : (trustyIpcChanInit c w).chans d = w.chans d := Function.update_of_ne hd _ _
    rw [chan]
    exact h.held current handle d mem

/-- The handle that is granted is put into the channel. -/
theorem Keeping.granted {rc : Int} (h : Keeping s c i w) (clear : NoneOpen s c w)
    (did : Did s.log w w' [.connect (chanCookie c) rc]) :
    Keeping s c i (w'.setHandle c (handleOf rc)) := by
  refine ⟨did.initialized.trans h.initialized, ?_, ?_⟩
  · intro d proxy
    apply h.proxies d
    by_cases hd : d = c
    · subst hd
      simpa [World.setHandle, did.chans] using proxy
    · simpa [World.setHandle, Function.update_of_ne hd, did.chans] using proxy
  · intro current handle d mem
    have log : s.log (w'.setHandle c (handleOf rc)).env =
        s.log w.env ++ [.connect (chanCookie c) rc] := did.log
    rw [log] at current mem
    rw [opened_append] at mem
    have before : (handle, d) ∈ opened (s.log w.env) ∨ (handle, d) = (handleOf rc, c) := by
      change (handle, d) ∈ (if 0 ≤ rc ∧ handleOf rc ≠ 0
        then (opened (s.log w.env)).grant (chanCookie c) (handleOf rc)
        else opened (s.log w.env)) at mem
      split at mem
      next =>
        rw [HandleTable.grant, chanOfCookie_chanCookie] at mem
        exact (List.mem_append.mp mem).imp_right List.mem_singleton.mp
      next => exact Or.inl mem
    rcases before with before | new
    · have hd : d ≠ c := by
        rintro rfl
        exact clear current.of_append handle before
      have chan : (w'.setHandle c (handleOf rc)).chans d = w.chans d :=
        (Function.update_of_ne hd _ _).trans (congrFun did.chans d)
      rw [chan]
      exact h.held current.of_append handle d before
    · cases new
      exact ⟨by simp [World.setHandle], Or.inl rfl⟩

/-- Closing the channel leaves nothing open for it. -/
theorem Keeping.noneOpen_closed (h : Keeping s c i w) :
    NoneOpen s c (trustyIpcClose s.dev c w).2 ∧ Keeping s c i (trustyIpcClose s.dev c w).2 := by
  have did := s.close (w.chans c).handle w
  constructor
  · intro current handle mem
    have log : s.log (trustyIpcClose s.dev c w).2.env =
        s.log w.env ++ [.close (w.chans c).handle] := did.log
    rw [log] at current mem
    rw [opened_append] at mem
    obtain ⟨mem, differs⟩ := HandleTable.mem_drop.mp mem
    exact differs (h.held current.of_append handle c mem).1.symm
  · exact h.closed [] did nofun

/-- Connecting and waiting for it: a handle in the channel, or none at all. -/
theorem Keeping.connect {target : Target} {fuel : Nat} {port : CString} {rc : Int}
    (h : Keeping s c i w) (clear : NoneOpen s c w)
    (run : trustyIpcConnect s.dev (s.ops target) fuel c port true w = some (rc, w')) :
    Keeping s c i w' ∧ (rc < 0 → NoneOpen s c w') := by
  have did := s.connect port (chanCookie c) w
  unfold trustyIpcConnect at run
  cases hconnect : s.dev.connect port (chanCookie c) w with
  | mk rc₀ w₀ =>
    rw [hconnect] at did
    simp only [hconnect] at run
    split at run
    next refused =>
      cases run
      have fewer : ∀ x ∈ [OsCall.connect (chanCookie c) rc].foldl HandleTable.record
          (opened (s.log w.env)), x ∈ opened (s.log w.env) := by
        intro x mem
        change x ∈ (if 0 ≤ rc ∧ handleOf rc ≠ 0 then _ else opened (s.log w.env)) at mem
        rw [if_neg fun granted => absurd granted.1 (not_le.mpr refused)] at mem
        exact mem
      refine ⟨h.of_fewer did fewer, fun _ current handle mem => ?_⟩
      rw [did.log] at current mem
      rw [opened_append] at mem
      exact clear current.of_append handle (fewer _ mem)
    next =>
      have connected := h.granted clear did
      obtain ⟨⟨rc₁, w₁⟩, waited, run⟩ := Option.bind_eq_some_iff.mp run
      have keeping := (Keeping.stable s c i).waitForComplete waited connected
      simp only at run
      split at run
      next =>
        cases run
        obtain ⟨none, closed⟩ := keeping.noneOpen_closed
        exact ⟨closed, fun _ => none⟩
      next success =>
        cases run
        exact ⟨keeping, fun negative => absurd negative success⟩

end Connect

end ExternalTrusty
