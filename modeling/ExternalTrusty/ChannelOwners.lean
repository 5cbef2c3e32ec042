import ExternalTrusty.Ownership
import ExternalTrusty.Observed

namespace ExternalTrusty

open CMemory

variable {ε : Type}

/-- What is open is held by the channel of a component that is initialized. -/
structure Owned (s : Surroundings ε) (w : World ε) : Prop where
  proxies : ∀ c, (w.chans c).ops = .proxy → c = .proxy
  held : HangupsCurrent (s.log w.env) → ∀ h c, (h, c) ∈ opened (s.log w.env) →
    (w.chans c).handle = h ∧ w.initialized c = true

/-- The initialization of each component. -/
def initCall (s : Surroundings ε) (target : Target) (fuel : Nat) :
    Component → World ε → Option (Int × World ε)
  | .avb => avbTipcInit (ipcTransport s.dev (s.ops target) fuel)
  | .km => kmTipcInit (ipcTransport s.dev (s.ops target) fuel) fuel
  | .hwbcc => hwbccTipcInit (ipcTransport s.dev (s.ops target) fuel)
  | .proxy => rpmbStorageProxyInit s.dev (s.ops target) fuel

def shutdownCall (s : Surroundings ε) (target : Target) (fuel : Nat) :
    Component → World ε → World ε
  | .avb => avbTipcShutdown (ipcTransport s.dev (s.ops target) fuel)
  | .km => kmTipcShutdown (ipcTransport s.dev (s.ops target) fuel)
  | .hwbcc => hwbccTipcShutdown (ipcTransport s.dev (s.ops target) fuel)
  | .proxy => rpmbStorageProxyShutdown s.dev

/-- What has to go well after connecting: the AVB service tells its version, and it is the one
expected; and no poll fails while the proxy's channel is open. -/
def InitFine (s : Surroundings ε) (target : Target) (fuel : Nat) : Component → World ε → Prop
  | .avb, w => ∀ rc w₁ rc₂ version w₂,
    trustyIpcConnect s.dev (s.ops target) fuel .avb avbPort true (trustyIpcChanInit .avb w) =
      some (rc, w₁) → 0 ≤ rc →
    avbGetVersion (ipcTransport s.dev (s.ops target) fuel) w₁ = some (rc₂, version, w₂) →
      rc₂ = 0 ∧ version = avbTipcVersion
  | .proxy, w => ∀ rc w₁ rc₂ w₂,
    trustyIpcConnect s.dev (s.ops target) fuel .proxy storageDiskProxyPort true
      (trustyIpcChanInit .proxy w) = some (rc, w₁) → 0 ≤ rc →
    proxyDrain s.dev (s.ops target) fuel { w₁ with
      chans := Function.update w₁.chans .proxy { w₁.chans .proxy with ops := .proxy } } =
        some (rc₂, w₂) → 0 ≤ rc₂ ∨ (w₂.chans .proxy).handle = 0
  | _, _ => True

section Calls

variable {s : Surroundings ε} {target : Target} {fuel : Nat} {c : Component} {w w' : World ε}
  {i : Component → Bool} {rc : Int}

theorem Owned.keeping (h : Owned s w) (c : Component) : Keeping s c w.initialized w :=
  ⟨rfl, h.proxies, fun current k d mem => ⟨(h.held current k d mem).1,
    Or.inr (h.held current k d mem).2⟩⟩

theorem Owned.noneOpen (h : Owned s w) (idle : w.initialized c = false) : NoneOpen s c w := by
  intro current k mem
  have open_init := (h.held current k c mem).2
  rw [idle] at open_init
  cases open_init

theorem Keeping.owned (h : Keeping s c i w) (settled : i c = true ∨ NoneOpen s c w) :
    Owned s w := by
  refine ⟨h.proxies, fun current k d mem => ?_⟩
  obtain ⟨handle, owner⟩ := h.held current k d mem
  refine ⟨handle, ?_⟩
  rw [h.initialized]
  rcases owner with rfl | owner
  · rcases settled with settled | none
    · exact settled
    · exact absurd mem (none current k)
  · exact owner

theorem Keeping.setInitialized (h : Keeping s c i w) (b : Bool) :
    Keeping s c (Function.update i c b) (w.setInitialized c b) := by
  refine ⟨?_, h.proxies, fun current k d mem => ?_⟩
  · show Function.update w.initialized c b = _
    rw [h.initialized]
  · obtain ⟨handle, owner⟩ := h.held current k d mem
    refine ⟨handle, ?_⟩
    by_cases hd : d = c
    · exact Or.inl hd
    · rw [Function.update_of_ne hd]
      exact owner

theorem hwbccTipcInit_owned (h : Owned s w) (idle : w.initialized .hwbcc = false)
    (run : hwbccTipcInit (ipcTransport s.dev (s.ops target) fuel) w = some (rc, w')) :
    Owned s w' := by
  obtain ⟨⟨rc₁, w₁⟩, connected, run⟩ := Option.bind_eq_some_iff.mp run
  have clear := h.noneOpen idle
  obtain ⟨keeping, none⟩ := ((h.keeping .hwbcc).chanInit clear).connect clear connected
  simp only at run
  split at run
  next negative =>
    cases run
    exact keeping.owned (Or.inr (none negative))
  next =>
    cases run
    exact (keeping.setInitialized true).owned (Or.inl (Function.update_self ..))

/-- The Keymaster client is initialized from the moment it is connected. -/
theorem kmTipcInit_owned (h : Owned s w) (idle : w.initialized .km = false)
    (run : kmTipcInit (ipcTransport s.dev (s.ops target) fuel) fuel w = some (rc, w')) :
    Owned s w' := by
  obtain ⟨⟨rc₁, w₁⟩, connected, run⟩ := Option.bind_eq_some_iff.mp run
  have clear := h.noneOpen idle
  obtain ⟨keeping, none⟩ := ((h.keeping .km).chanInit clear).connect clear connected
  simp only at run
  split at run
  next negative =>
    cases run
    exact keeping.owned (Or.inr (none negative))
  next =>
    obtain ⟨⟨rc₂, version, w₂⟩, told, run⟩ := Option.bind_eq_some_iff.mp run
    have kept := ((Keeping.stable s _ _).keeps target fuel).kmGetVersion told
      (keeping.setInitialized true)
    have owned := kept.owned (Or.inl (Function.update_self ..))
    simp only at run
    split at run
    next =>
      cases run
      exact owned
    next =>
      split at run
      next =>
        cases run
        exact owned
      next =>
        cases run
        exact owned

theorem avbTipcInit_owned (h : Owned s w) (idle : w.initialized .avb = false)
    (fine : InitFine s target fuel .avb w)
    (run : avbTipcInit (ipcTransport s.dev (s.ops target) fuel) w = some (rc, w')) :
    Owned s w' := by
  obtain ⟨⟨rc₁, w₁⟩, connected, run⟩ := Option.bind_eq_some_iff.mp run
  have clear := h.noneOpen idle
  obtain ⟨keeping, none⟩ := ((h.keeping .avb).chanInit clear).connect clear connected
  simp only at run
  split at run
  next negative =>
    cases run
    exact keeping.owned (Or.inr (none negative))
  next positive =>
    obtain ⟨⟨rc₂, version, w₂⟩, told, run⟩ := Option.bind_eq_some_iff.mp run
    have kept := ((Keeping.stable s _ _).keeps target fuel).avbGetVersion told keeping
    obtain ⟨ok, expected⟩ := fine rc₁ w₁ rc₂ version w₂ connected (not_lt.mp positive) told
    simp only at run
    rw [if_neg (not_not_intro ok), if_neg (not_not_intro expected)] at run
    cases run
    exact (kept.setInitialized true).owned (Or.inl (Function.update_self ..))

theorem proxyDrain_keeping (h : Keeping s c i w)
    (run : proxyDrain s.dev (s.ops target) fuel w = some (rc, w')) : Keeping s c i w' := by
  induction fuel generalizing w with
  | zero => cases run
  | succ fuel ih =>
    obtain ⟨⟨rc₁, w₁⟩, polled, run⟩ := Option.bind_eq_some_iff.mp run
    have kept := Keeping.poll (s.poll_done polled) h
    simp only at run
    split at run
    next =>
      cases run
      exact kept
    next =>
      split at run
      next =>
        cases run
        exact kept
      next =>
        split at run
        next => exact ih kept run
        next =>
          cases run
          exact kept

theorem Keeping.setOps (h : Keeping s .proxy i w) : Keeping s .proxy i { w with
    chans := Function.update w.chans .proxy { w.chans .proxy with ops := .proxy } } := by
  refine ⟨h.initialized, ?_, ?_⟩
  · intro d proxy
    by_cases hd : d = .proxy
    · exact hd
    · apply h.proxies d
      simpa [Function.update_of_ne hd] using proxy
  · intro current k d mem
    obtain ⟨handle, owner⟩ := h.held current k d mem
    refine ⟨?_, owner⟩
    by_cases hd : d = .proxy
    · subst hd
      simpa using handle
    · simpa [Function.update_of_ne hd] using handle

/-- A channel without a handle has nothing open. -/
theorem Keeping.noneOpen_of_zero (h : Keeping s c i w) (zero : (w.chans c).handle = 0) :
    NoneOpen s c w := by
  intro current k mem
  have handle := (h.held current k c mem).1
  rw [zero] at handle
  exact opened_ne_zero _ _ mem handle.symm

theorem rpmbStorageProxyInit_owned (h : Owned s w) (idle : w.initialized .proxy = false)
    (fine : InitFine s target fuel .proxy w)
    (run : rpmbStorageProxyInit s.dev (s.ops target) fuel w = some (rc, w')) : Owned s w' := by
  obtain ⟨⟨rc₁, w₁⟩, connected, run⟩ := Option.bind_eq_some_iff.mp run
  have clear := h.noneOpen idle
  obtain ⟨keeping, none⟩ := ((h.keeping .proxy).chanInit clear).connect clear connected
  simp only at run
  split at run
  next negative =>
    cases run
    exact keeping.owned (Or.inr (none negative))
  next positive =>
    obtain ⟨⟨rc₂, w₂⟩, drained, run⟩ := Option.bind_eq_some_iff.mp run
    have kept := proxyDrain_keeping keeping.setOps drained
    have outcome := fine rc₁ w₁ rc₂ w₂ connected (not_lt.mp positive) drained
    simp only at run
    split at run
    next negative =>
      cases run
      rcases outcome with done | zero
      · exact absurd negative (not_lt.mpr done)
      · exact kept.owned (Or.inr (kept.noneOpen_of_zero zero))
    next =>
      cases run
      exact (kept.setInitialized true).owned (Or.inl (Function.update_self ..))

theorem initCall_owned (h : Owned s w) (idle : w.initialized c = false)
    (fine : InitFine s target fuel c w) (run : initCall s target fuel c w = some (rc, w')) :
    Owned s w' := by
  cases c with
  | avb => exact avbTipcInit_owned h idle fine run
  | km => exact kmTipcInit_owned h idle run
  | hwbcc => exact hwbccTipcInit_owned h idle run
  | proxy => exact rpmbStorageProxyInit_owned h idle fine run

/-- Closing a component's channel and taking back its flag. -/
theorem Owned.closed (h : Owned s w) (c : Component) :
    Owned s ((trustyIpcClose s.dev c w).2.setInitialized c false) := by
  obtain ⟨none, keeping⟩ := (h.keeping c).noneOpen_closed
  exact (keeping.setInitialized false).owned (Or.inr none)

theorem shutdownCall_owned (h : Owned s w) : Owned s (shutdownCall s target fuel c w) := by
  have guarded : ∀ c, Owned s (if w.initialized c = false then w
      else (trustyIpcClose s.dev c w).2.setInitialized c false) := by
    intro c
    split
    next => exact h
    next => exact h.closed c
  cases c with
  | avb => exact guarded .avb
  | km => exact guarded .km
  | hwbcc => exact guarded .hwbcc
  | proxy => exact h.closed .proxy

end Calls

/-- Runs of the components' initializations, each only while its component is not initialized, and
of their shutdowns, in any order. The initializations are those that `fine` allows. -/
inductive OwnerRun (s : Surroundings ε) (target : Target) (fine : Nat → Component → World ε → Prop)
    (start : World ε) : World ε → Prop
  | here : OwnerRun s target fine start start
  | init {w w' : World ε} {rc : Int} (before : OwnerRun s target fine start w) (c : Component)
    (fuel : Nat) (idle : w.initialized c = false) (allowed : fine fuel c w)
    (run : initCall s target fuel c w = some (rc, w')) : OwnerRun s target fine start w'
  | shutdown {w : World ε} (before : OwnerRun s target fine start w) (c : Component) (fuel : Nat) :
    OwnerRun s target fine start (shutdownCall s target fuel c w)

/-- The program as it starts. -/
structure Fresh (s : Surroundings ε) (w : World ε) : Prop where
  log : s.log w.env = []
  sync : ∀ c, (w.chans c).ops = .sync

theorem Fresh.owned {s : Surroundings ε} {w : World ε} (h : Fresh s w) : Owned s w := by
  refine ⟨fun c proxy => ?_, fun _ k c mem => ?_⟩
  · rw [h.sync c] at proxy
    cases proxy
  · rw [h.log] at mem
    cases mem

theorem OwnerRun.owned {s : Surroundings ε} {target : Target} {w w' : World ε} (fresh : Fresh s w)
    (run : OwnerRun s target (fun fuel c w => InitFine s target fuel c w) w w') : Owned s w' := by
  induction run with
  | here => exact fresh.owned
  | init before c fuel idle allowed run ih => exact initCall_owned ih idle allowed run
  | shutdown before c fuel ih => exact shutdownCall_owned ih

/-- After each call of such a run no handle is open that is not held by an initialized component's
channel. -/
theorem channels_owned {s : Surroundings ε} {target : Target} {w w' : World ε} (fresh : Fresh s w)
    (run : OwnerRun s target (fun fuel c w => InitFine s target fuel c w) w w')
    (current : HangupsCurrent (s.log w'.env)) :
    ∀ h c, (h, c) ∈ opened (s.log w'.env) → (w'.chans c).handle = h ∧ w'.initialized c = true :=
  (run.owned fresh).held current

/-- Handle 5 is granted and ready, but the request for the version cannot be sent. -/
def versionUnsent : DevScript := ⟨[5], [.ok ⟨1, 5, 1⟩], [trustyErrSecosErr], [], []⟩

/-- Handle 6 is granted and ready, but the next poll fails. -/
def drainFails : DevScript := ⟨[6], [.ok ⟨1, 6, 4⟩, .error trustyErrSecosErr], [], [], []⟩

/-- The call reports a hangup. -/
def OsCall.hup : OsCall → Bool
  | .event (.ok e) => e.event &&& ipcHandlePollHup ≠ 0
  | _ => false

theorem hangupsCurrent_of_none {calls : List OsCall} (h : ∀ call ∈ calls, call.hup = false) :
    HangupsCurrent calls := by
  intro before e after eq hangs
  have quiet : (OsCall.event (.ok e)).hup = false := by
    apply h
    rw [eq]
    exact List.mem_append_right _ List.mem_cons_self
  have hup : e.event &&& ipcHandlePollHup ≠ 0 := hangs.2.2
  exact absurd hup (of_decide_eq_false quiet)

/-- Both ways a handle is left open by an initialization that failed. -/
theorem failed_init_leaks :
    (∃ w', OwnerRun scriptSurroundings .bits64 (fun _ _ _ => True) (scriptWorld versionUnsent) w' ∧
      HangupsCurrent w'.env.calls ∧ (5, Component.avb) ∈ opened w'.env.calls ∧
      w'.initialized .avb = false) ∧
    ∃ w', OwnerRun scriptSurroundings .bits64 (fun _ _ _ => True) (scriptWorld drainFails) w' ∧
      HangupsCurrent w'.env.calls ∧ (6, Component.proxy) ∈ opened w'.env.calls ∧
      w'.initialized .proxy = false := by
  constructor
  · obtain ⟨w', run, calls, idle⟩ : ∃ w', initCall scriptSurroundings .bits64 2 .avb
        (scriptWorld versionUnsent) = some (trustyErrGeneric, w') ∧
        w'.env.calls = [.connect 1 5, .event (.ok ⟨1, 5, 1⟩),
          .send 5 trustyErrSecosErr [4, 0, 0, 0, 0, 0, 0, 0]] ∧
        w'.initialized .avb = false := ⟨_, rfl, rfl, rfl⟩
    refine ⟨w', .init .here .avb 2 rfl trivial run, ?_, ?_, idle⟩
    · rw [calls]
      exact hangupsCurrent_of_none (by decide)
    · rw [calls]
      decide
  · obtain ⟨w', run, calls, idle⟩ : ∃ w', initCall scriptSurroundings .bits64 2 .proxy
        (scriptWorld drainFails) = some (trustyErrSecosErr, w') ∧
        w'.env.calls = [.connect 4 6, .event (.ok ⟨1, 6, 4⟩), .event (.error trustyErrSecosErr)] ∧
        w'.initialized .proxy = false := ⟨_, rfl, rfl, rfl⟩
    refine ⟨w', .init .here .proxy 2 rfl trivial run, ?_, ?_, idle⟩
    · rw [calls]
      exact hangupsCurrent_of_none (by decide)
    · rw [calls]
      decide

/-- Handle 7 is granted and ready, and nothing more happens. -/
def quietProxy : DevScript := ⟨[7], [.ok ⟨1, 7, 4⟩], [], [], []⟩

theorem quietProxy_owned : ∃ w' : World DevScript,
    w'.env.calls = [.connect 4 7, .event (.ok ⟨1, 7, 4⟩), .event (.ok ⟨0, 0, 0⟩)] ∧
    ∀ h c, (h, c) ∈ opened w'.env.calls →
      (w'.chans c).handle = h ∧ w'.initialized c = true := by
  obtain ⟨w', run, calls⟩ : ∃ w', initCall scriptSurroundings .bits64 2 .proxy
      (scriptWorld quietProxy) = some (trustyErrNone, w') ∧
      w'.env.calls = [.connect 4 7, .event (.ok ⟨1, 7, 4⟩), .event (.ok ⟨0, 0, 0⟩)] :=
    ⟨_, rfl, rfl⟩
  have fine : InitFine scriptSurroundings .bits64 2 .proxy (scriptWorld quietProxy) := by
    intro rc w₁ rc₂ w₂ connected _ drained
    cases connected
    cases drained
    exact Or.inl (by decide)
  refine ⟨w', calls, channels_owned (w := scriptWorld quietProxy)
    ⟨rfl, fun _ => rfl⟩ (.init .here .proxy 2 rfl fine run) ?_⟩
  show HangupsCurrent w'.env.calls
  rw [calls]
  exact hangupsCurrent_of_none (by decide)

end ExternalTrusty
