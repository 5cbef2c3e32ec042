import ExternalTrusty.Observed

namespace ExternalTrusty

open Surroundings

variable {ε : Type}

/-- What a callback does on a channel is within this relation. -/
def Callback.Keeps (f : Callback ε) (R : World ε → World ε → Prop) (c : Component) : Prop :=
  ∀ w rc w', f c w = some (rc, w') → R w w'

structure TrustyIpcOps.Keeps (ops : TrustyIpcOps ε) (R : World ε → World ε → Prop)
    (c : Component) : Prop where
  onRawEvent : ∀ f ∈ ops.onRawEvent, ∀ e, Callback.Keeps (f e) R c
  onConnectComplete : ∀ f ∈ ops.onConnectComplete, Callback.Keeps f R c
  onSendUnblocked : ∀ f ∈ ops.onSendUnblocked, Callback.Keeps f R c
  onMessage : ∀ f ∈ ops.onMessage, Callback.Keeps f R c
  onDisconnect : ∀ f ∈ ops.onDisconnect, Callback.Keeps f R c

def SameChan (X : Component) (w w' : World ε) : Prop := w'.chans X = w.chans X

theorem SameChan.refl {X : Component} (w : World ε) : SameChan X w w := rfl

theorem SameChan.trans {X : Component} {u v w : World ε} (h : SameChan X u v)
    (h' : SameChan X v w) : SameChan X u w := Eq.trans h' h

/-- The callbacks of other channels leave the channel `X` alone. -/
def TrustyIpcOps.Spares (ops : TrustyIpcOps ε) (X : Component) : Prop :=
  ∀ c, c ≠ X → ops.Keeps (SameChan X) c

/-- What the device does is within this relation, which composes. -/
structure Device.Keeps (dev : Device ε) (R : World ε → World ε → Prop) : Prop where
  refl : ∀ w, R w w
  trans : ∀ {u v w}, R u v → R v w → R u w
  close : ∀ handle w, R w (dev.close handle w).2
  hasEvent : ∀ handle w, R w (dev.hasEvent handle w).2
  getEvent : ∀ handle w, R w (dev.getEvent handle w).2
  send : ∀ handle iovs w, R w (dev.send handle iovs w).2
  recv : ∀ handle iovs w, R w (dev.recv handle iovs w).2
  idle : ∀ w, R w (dev.idle w)

theorem Device.Discreet.keeps {dev : Device ε} (hdev : dev.Discreet) (X : Component) :
    dev.Keeps (SameChan X) where
  refl := .refl
  trans := .trans
  close handle w := congrFun (hdev.close handle w).chans X
  hasEvent handle w := congrFun (hdev.hasEvent handle w).chans X
  getEvent handle w := congrFun (hdev.getEvent handle w).chans X
  send handle iovs w := congrFun (hdev.send handle iovs w).chans X
  recv handle iovs w := congrFun (hdev.recv handle iovs w).chans X
  idle w := congrFun (hdev.idle w).chans X

/-- The callback that is tried at some point of a dispatch, if it is there. -/
abbrev Hook (ε : Type) := World ε → Option (Callback ε)

/-- What is tried on an event of a channel, in order: an error leaves only the raw handler. -/
def hooks (table : Ops → TrustyIpcOps ε) (e : IpcEvent) (c : Component) : List (Hook ε) :=
  let ops := fun w : World ε => table (w.chans c).ops
  let guarded := fun (bit : UInt32) (callback : Hook ε) (w : World ε) =>
    if e.Has bit then callback w else none
  (fun w => (ops w).onRawEvent.map fun f => f e) ::
    if e.Has ipcHandlePollError then []
    else [
      guarded ipcHandlePollSendUnblocked fun w => (ops w).onSendUnblocked,
      guarded ipcHandlePollReady fun w => (ops w).onConnectComplete,
      guarded ipcHandlePollMsg fun w => (ops w).onMessage,
      guarded ipcHandlePollHup fun w => (ops w).onDisconnect]

/-- The callbacks that run, with their results: the first that is not zero is the last. -/
inductive Ran (c : Component) : List (Hook ε) → World ε → List Int → World ε → Prop
  | done {w : World ε} : Ran c [] w [] w
  | absent {hook : Hook ε} {rest : List (Hook ε)} {w w' : World ε} {results : List Int}
    (null : hook w = none) (ran : Ran c rest w results w') : Ran c (hook :: rest) w results w'
  | declined {hook : Hook ε} {rest : List (Hook ε)} {f : Callback ε} {w w₁ w' : World ε}
    {results : List Int} (there : hook w = some f) (run : f c w = some (0, w₁))
    (ran : Ran c rest w₁ results w') : Ran c (hook :: rest) w (0 :: results) w'
  | taken {hook : Hook ε} {rest : List (Hook ε)} {f : Callback ε} {w w' : World ε} {rc : Int}
    (there : hook w = some f) (run : f c w = some (rc, w')) (nonzero : rc ≠ 0) :
    Ran c (hook :: rest) w [rc] w'

/-- What a poll comes to: the event could not be had, there was none, or it was dispatched to the
callbacks of its channel, which ran with these results. -/
inductive PollOutcome
  | failed (rc : Int)
  | nothing
  | event (c : Component) (e : IpcEvent) (results : List Int)

/-- The result of the poll. -/
def PollOutcome.rc : PollOutcome → Int
  | failed rc => rc
  | nothing => trustyEventNone
  | event _ e results => (results.find? (· ≠ 0)).getD
      (if e.Has ipcHandlePollError then trustyErrGeneric else trustyErrNone)

/-- How a poll ends a wait for the channel `X`, if it does. -/
def PollOutcome.ends (X : Component) : PollOutcome → Option Int
  | failed rc => if rc < 0 then some rc else none
  | nothing => none
  | event c e results =>
    if c = X then
      if e.Has ipcHandlePollError then some trustyErrGeneric
      else if e.Has ipcHandlePollReady ∨ e.Has ipcHandlePollMsg then some 1
      else if e.Has ipcHandlePollHup then some trustyErrChannelClosed
      else none
    else if (event c e results).rc < 0 then some (event c e results).rc
    else none

inductive PolledWith (dev : Device ε) (table : Ops → TrustyIpcOps ε) (w : World ε) :
    PollOutcome → World ε → Prop
  | failed {rc : Int} {w' : World ε} (get : dev.getEvent 0 w = (.error rc, w')) :
    PolledWith dev table w (.failed rc) w'
  | nothing {e : IpcEvent} {w' : World ε} (get : dev.getEvent 0 w = (.ok e, w'))
    (zero : e.event = 0) : PolledWith dev table w .nothing w'
  | event {e : IpcEvent} {c : Component} {w₁ w' : World ε} {results : List Int}
    (get : dev.getEvent 0 w = (.ok e, w₁)) (nonzero : e.event ≠ 0)
    (chan : chanOfCookie e.cookie = some c) (ran : Ran c (hooks table e c) w₁ results w') :
    PolledWith dev table w (.event c e results) w'

/-- When there was no event, there may be one by now; else the device idles. -/
def settle (dev : Device ε) (rc : Int) (w : World ε) : World ε :=
  if rc = trustyEventNone then
    let (more, w) := dev.hasEvent 0 w
    if more then w else dev.idle w
  else w

/-- One poll after the other, with their outcomes. -/
inductive Polls (dev : Device ε) (table : Ops → TrustyIpcOps ε) :
    World ε → List PollOutcome → World ε → Prop
  | nil {w : World ε} : Polls dev table w [] w
  | cons {w w₁ w' : World ε} {o : PollOutcome} {rest : List PollOutcome}
    (poll : PolledWith dev table w o w₁) (polls : Polls dev table (settle dev o.rc w₁) rest w') :
    Polls dev table w (o :: rest) w'

/-- Hooks tried one after the other. -/
def tryHooks (c : Component) (last : Int) : List (Hook ε) → World ε → Option (Int × World ε)
  | [], w => some (last, w)
  | hook :: rest, w =>
    unlessHandled (match hook w with | some f => f c w | none => some (0, w))
      (tryHooks c last rest)

theorem runCallback_eq (e : IpcEvent) (bit : UInt32) (callback : Option (Callback ε))
    (c : Component) (w : World ε) : runCallback e.event bit callback c w =
      match if e.Has bit then callback else none with
      | some f => f c w
      | none => some (0, w) := by
  cases callback with
  | none =>
    rw [ite_self]
    rfl
  | some f =>
    by_cases set : e.Has bit
    · rw [if_pos set]
      exact runCallback_set set f c w
    · rw [if_neg set]
      exact runCallback_clear set f c w

theorem dispatch_eq_tryHooks (table : Ops → TrustyIpcOps ε) (e : IpcEvent) (c : Component)
    (w : World ε) : dispatch table e c w = tryHooks c
      (if e.Has ipcHandlePollError then trustyErrGeneric else trustyErrNone)
      (hooks table e c) w := by
  simp only [dispatch, runCallback_eq]
  by_cases error : e.Has ipcHandlePollError
  · have set : e.event &&& ipcHandlePollError ≠ 0 := error
    simp only [hooks, if_pos set, if_pos error, tryHooks]
    cases (table (w.chans c).ops).onRawEvent with
    | none => rfl
    | some f => rfl
  · have clear : ¬e.event &&& ipcHandlePollError ≠ 0 := error
    simp only [hooks, if_neg clear, if_neg error, tryHooks]
    cases (table (w.chans c).ops).onRawEvent with
    | none => rfl
    | some f => rfl

/-- The first result that is not zero decides. -/
theorem tryHooks_iff {c : Component} {last rc : Int} {hs : List (Hook ε)} {w w' : World ε} :
    tryHooks c last hs w = some (rc, w') ↔
      ∃ results, Ran c hs w results w' ∧ (results.find? (· ≠ 0)).getD last = rc := by
  induction hs generalizing w with
  | nil =>
    constructor
    · intro run
      cases run
      exact ⟨[], .done, rfl⟩
    · rintro ⟨results, ran, decided⟩
      cases ran
      rw [← decided]
      rfl
  | cons hook rest ih =>
    cases there : hook w with
    | none =>
      have skip : tryHooks c last (hook :: rest) w = tryHooks c last rest w := by
        rw [tryHooks, there]
        rfl
      rw [skip, ih]
      constructor
      · rintro ⟨results, ran, decided⟩
        exact ⟨results, .absent there ran, decided⟩
      · rintro ⟨results, ran, decided⟩
        cases ran with
        | absent _ ran => exact ⟨results, ran, decided⟩
        | declined some => rw [there] at some; cases some
        | taken some => rw [there] at some; cases some
    | some f =>
      have turn : tryHooks c last (hook :: rest) w = unlessHandled (f c w)
          (tryHooks c last rest) := by rw [tryHooks, there]
      rw [turn]
      constructor
      · intro run
        obtain ⟨⟨rc₁, w₁⟩, ran, run⟩ := Option.bind_eq_some_iff.mp run
        simp only at run
        split at run
        next nonzero =>
          cases run
          exact ⟨[rc], .taken there ran nonzero, by simp [nonzero]⟩
        next zero =>
          have zero := not_not.mp zero
          subst zero
          obtain ⟨results, ran', decided⟩ := ih.mp run
          exact ⟨0 :: results, .declined there ran ran', by simpa using decided⟩
      · rintro ⟨results, ran, decided⟩
        cases ran with
        | absent null => rw [there] at null; cases null
        | declined same run ran =>
          rw [there] at same
          cases same
          rw [run, unlessHandled_zero]
          exact ih.mpr ⟨_, ran, by simpa using decided⟩
        | taken same run nonzero =>
          rw [there] at same
          cases same
          rw [run]
          have result : _ = rc := decided
          simp only [ne_eq, nonzero, not_false_eq_true, decide_true, List.find?_cons_of_pos,
            Option.getD_some] at result
          subst result
          exact if_pos nonzero

/-- Polling has these outcomes, and no others. -/
theorem PolledWith.poll {dev : Device ε} {table : Ops → TrustyIpcOps ε} {o : PollOutcome}
    {w w' : World ε} (h : PolledWith dev table w o w') :
    trustyIpcPollForEvent dev table w = some (o.rc, w') := by
  rw [poll_eq]
  cases h with
  | failed get => rw [get]; rfl
  | nothing get zero => rw [get]; exact if_pos zero
  | event get nonzero chan ran =>
    rw [get]
    simp only [if_neg nonzero, chan, Option.bind_some]
    rw [dispatch_eq_tryHooks]
    exact tryHooks_iff.mpr ⟨_, ran, rfl⟩

theorem polledWith_of_poll {dev : Device ε} {table : Ops → TrustyIpcOps ε} {rc : Int}
    {w w' : World ε} (h : trustyIpcPollForEvent dev table w = some (rc, w')) :
    ∃ o, PolledWith dev table w o w' ∧ o.rc = rc := by
  rw [poll_eq] at h
  split at h
  next get =>
    cases h
    exact ⟨.failed rc, .failed get, rfl⟩
  next e w₁ get =>
    split at h
    next zero =>
      cases h
      exact ⟨.nothing, .nothing get zero, rfl⟩
    next nonzero =>
      obtain ⟨c, chan, h⟩ := Option.bind_eq_some_iff.mp h
      rw [dispatch_eq_tryHooks, tryHooks_iff] at h
      obtain ⟨results, ran, decided⟩ := h
      exact ⟨.event c e results, .event get nonzero chan ran, decided⟩

theorem hooks_keep {table : Ops → TrustyIpcOps ε} {R : World ε → World ε → Prop} {c : Component}
    {e : IpcEvent} (keeps : ∀ o, (table o).Keeps R c) : ∀ hook ∈ hooks table e c, ∀ w,
      ∀ f ∈ hook w, Callback.Keeps f R c := by
  have guarded : ∀ (bit : UInt32) (callback : Option (Callback ε)),
      (∀ f ∈ callback, Callback.Keeps f R c) →
      ∀ f ∈ (if e.Has bit then callback else none), Callback.Keeps f R c := by
    intro bit callback h f mem
    split at mem
    next => exact h f mem
    next => cases mem
  intro hook mem w f there
  rcases List.mem_cons.mp mem with rfl | mem
  · obtain ⟨g, raw, rfl⟩ := Option.map_eq_some_iff.mp there
    exact (keeps _).onRawEvent g raw e
  · split at mem
    next => cases mem
    next =>
      simp only [List.mem_cons, List.not_mem_nil, or_false] at mem
      rcases mem with rfl | rfl | rfl | rfl
      · exact guarded _ _ (keeps _).onSendUnblocked f there
      · exact guarded _ _ (keeps _).onConnectComplete f there
      · exact guarded _ _ (keeps _).onMessage f there
      · exact guarded _ _ (keeps _).onDisconnect f there

theorem Ran.keeps {R : World ε → World ε → Prop} (refl : ∀ w, R w w)
    (trans : ∀ {u v w}, R u v → R v w → R u w) {c : Component} {hs : List (Hook ε)}
    {w w' : World ε} {results : List Int} (h : Ran c hs w results w')
    (keeps : ∀ hook ∈ hs, ∀ w, ∀ f ∈ hook w, Callback.Keeps f R c) : R w w' := by
  induction h with
  | done => exact refl _
  | absent _ _ ih => exact ih fun hook mem => keeps hook (List.mem_cons_of_mem _ mem)
  | declined there run _ ih =>
    exact trans (keeps _ List.mem_cons_self _ _ there _ _ _ run)
      (ih fun hook mem => keeps hook (List.mem_cons_of_mem _ mem))
  | taken there run => exact keeps _ List.mem_cons_self _ _ there _ _ _ run

section Wait

variable {dev : Device ε} {table : Ops → TrustyIpcOps ε} {X : Component}

/-- An event of a channel with the default operations only depends on its bits. -/
theorem PolledWith.own {e : IpcEvent} {results : List Int} {w w' : World ε}
    (h : PolledWith dev table w (.event X e results) w') (hdev : dev.Discreet)
    (sync : table .sync = syncIpcOps) (ops : (w.chans X).ops = .sync) :
    ∃ w₁, SameChan X w w₁ ∧ (
      if e.Has ipcHandlePollError then (trustyErrGeneric, w₁)
      else if e.Has ipcHandlePollReady ∨ e.Has ipcHandlePollMsg then
        (trustyEventHandled, w₁.setComplete X 1)
      else if e.Has ipcHandlePollHup then
        (trustyEventHandled, w₁.setComplete X trustyErrChannelClosed)
      else (trustyErrNone, w₁)) = ((PollOutcome.event X e results).rc, w') := by
  have quiet := (hdev.getEvent 0 w).chans
  cases h with
  | @event _ _ w₁ _ _ get _ _ ran =>
    rw [get] at quiet
    have same : SameChan X w w₁ := congrFun quiet X
    have handled : dispatch table e X w₁ = some ((PollOutcome.event X e results).rc, w') := by
      rw [dispatch_eq_tryHooks]
      exact tryHooks_iff.mpr ⟨results, ran, rfl⟩
    rw [dispatch_syncOps (by rw [same, ops, sync])] at handled
    exact ⟨w₁, same, Option.some.inj handled⟩

/-- What is not an event of the channel leaves it alone. -/
theorem PolledWith.elsewhere {o : PollOutcome} {w w' : World ε} (h : PolledWith dev table w o w')
    (hdev : dev.Discreet) (spares : ∀ o, (table o).Spares X)
    (other : ∀ e results, o ≠ .event X e results) : SameChan X w w' := by
  have quiet := (hdev.getEvent 0 w).chans
  cases h with
  | failed get =>
    rw [get] at quiet
    exact congrFun quiet X
  | nothing get =>
    rw [get] at quiet
    exact congrFun quiet X
  | @event e c w₁ _ results get _ _ ran =>
    rw [get] at quiet
    have apart : c ≠ X := by
      rintro rfl
      exact other e results rfl
    exact SameChan.trans (congrFun quiet X)
      (Ran.keeps SameChan.refl SameChan.trans ran (hooks_keep fun o => spares o c apart))

theorem PollOutcome.ends_elsewhere {o : PollOutcome} (other : ∀ e results, o ≠ .event X e results) :
    o.ends X = if o.rc < 0 then some o.rc else none := by
  cases o with
  | failed rc => rfl
  | nothing => rfl
  | event c e results =>
    have apart : c ≠ X := by
      rintro rfl
      exact other e results rfl
    rw [PollOutcome.ends, if_neg apart]

theorem PollOutcome.own_or_elsewhere (X : Component) (o : PollOutcome) :
    (∃ e results, o = .event X e results) ∨ ∀ e results, o ≠ .event X e results := by
  by_cases own : ∃ e results, o = .event X e results
  · exact Or.inl own
  · exact Or.inr fun e results eq => own ⟨e, results, eq⟩

/-- While the channel waits, a poll fails, or goes by, or completes the channel. -/
theorem PolledWith.verdict {o : PollOutcome} {w w' : World ε} (h : PolledWith dev table w o w')
    (hdev : dev.Discreet) (spares : ∀ o, (table o).Spares X) (sync : table .sync = syncIpcOps)
    (ops : (w.chans X).ops = .sync) :
    (o.rc < 0 ∧ o.ends X = some o.rc) ∨
      (¬o.rc < 0 ∧ o.ends X = none ∧ SameChan X w w') ∨
      ¬o.rc < 0 ∧ ∃ r, o.ends X = some r ∧ r ≠ 0 ∧ (w'.chans X).complete = r := by
  rcases o.own_or_elsewhere X with ⟨e, results, rfl⟩ | other
  · obtain ⟨w₁, same, result⟩ := h.own hdev sync ops
    simp only [PollOutcome.ends, if_true]
    by_cases error : e.Has ipcHandlePollError
    · rw [if_pos error] at result ⊢
      obtain ⟨rc, after⟩ := Prod.mk.inj result
      rw [← rc]
      exact Or.inl ⟨by decide, rfl⟩
    · rw [if_neg error] at result ⊢
      by_cases message : e.Has ipcHandlePollReady ∨ e.Has ipcHandlePollMsg
      · rw [if_pos message] at result ⊢
        obtain ⟨rc, after⟩ := Prod.mk.inj result
        rw [← rc, ← after]
        exact Or.inr (Or.inr ⟨by decide, 1, rfl, by decide, by simp [World.setComplete]⟩)
      · rw [if_neg message] at result ⊢
        by_cases hup : e.Has ipcHandlePollHup
        · rw [if_pos hup] at result ⊢
          obtain ⟨rc, after⟩ := Prod.mk.inj result
          rw [← rc, ← after]
          exact Or.inr (Or.inr ⟨by decide, _, rfl, by decide, by simp [World.setComplete]⟩)
        · rw [if_neg hup] at result ⊢
          obtain ⟨rc, after⟩ := Prod.mk.inj result
          rw [← rc, ← after]
          exact Or.inr (Or.inl ⟨by decide, rfl, same⟩)
  · rw [PollOutcome.ends_elsewhere other]
    by_cases fails : o.rc < 0
    · exact Or.inl ⟨fails, if_pos fails⟩
    · exact Or.inr (Or.inl ⟨fails, if_neg fails, h.elsewhere hdev spares other⟩)

/-- No poll touches the handle of a channel with the default operations. -/
theorem PolledWith.handle {o : PollOutcome} {w w' : World ε} (h : PolledWith dev table w o w')
    (hdev : dev.Discreet) (spares : ∀ o, (table o).Spares X) (sync : table .sync = syncIpcOps)
    (ops : (w.chans X).ops = .sync) : (w'.chans X).handle = (w.chans X).handle := by
  rcases o.own_or_elsewhere X with ⟨e, results, rfl⟩ | other
  · obtain ⟨w₁, same, result⟩ := h.own hdev sync ops
    have after := congrArg Prod.snd result
    rw [← same, ← show _ = w' from after]
    split
    next => rfl
    next =>
      split
      next => exact setComplete_handle _ _ _ _
      next =>
        split
        next => exact setComplete_handle _ _ _ _
        next => rfl
  · rw [h.elsewhere hdev spares other]

/-- A poll keeps what the device and the callbacks keep. -/
theorem PolledWith.keeps {R : World ε → World ε → Prop} (keeps : dev.Keeps R)
    (callbacks : ∀ o c, (table o).Keeps R c) {o : PollOutcome} {w w' : World ε}
    (h : PolledWith dev table w o w') : R w w' := by
  have got := keeps.getEvent 0 w
  cases h with
  | failed get =>
    rw [get] at got
    exact got
  | nothing get =>
    rw [get] at got
    exact got
  | event get _ _ ran =>
    rw [get] at got
    exact keeps.trans got (Ran.keeps keeps.refl keeps.trans ran (hooks_keep fun o => callbacks o _))

theorem settle_keeps {R : World ε → World ε → Prop} (keeps : dev.Keeps R) (rc : Int)
    (w : World ε) : R w (settle dev rc w) := by
  have looked := keeps.hasEvent 0 w
  unfold settle
  split
  next =>
    simp only
    split
    next => exact looked
    next => exact keeps.trans looked (keeps.idle _)
  next => exact keeps.refl w

theorem Polls.keeps {R : World ε → World ε → Prop} (keeps : dev.Keeps R)
    (callbacks : ∀ o c, (table o).Keeps R c) {polls : List PollOutcome} {w w' : World ε}
    (h : Polls dev table w polls w') : R w w' := by
  induction h with
  | nil => exact keeps.refl _
  | cons poll _ ih =>
    exact keeps.trans (poll.keeps keeps callbacks) (keeps.trans (settle_keeps keeps _ _) ih)

/-- One turn of the wait. -/
theorem waitLoop_turn {o : PollOutcome} {fuel : Nat} {w w₁ : World ε}
    (h : PolledWith dev table w o w₁) (hdev : dev.Discreet) (spares : ∀ o, (table o).Spares X)
    (sync : table .sync = syncIpcOps) (ops : (w.chans X).ops = .sync)
    (waiting : (w.chans X).complete = 0) :
    waitLoop dev table X (fuel + 1) w = match o.ends X with
      | some r => some (r, w₁)
      | none => waitLoop dev table X fuel (settle dev o.rc w₁) := by
  rw [waitLoop, h.poll, Option.bind_eq_bind, Option.bind_some]
  rcases h.verdict hdev spares sync ops with
    ⟨fails, ends⟩ | ⟨fine, ends, same⟩ | ⟨fine, r, ends, nonzero, complete⟩
  · simp only [if_pos fails, ends]
  · have still : (w₁.chans X).complete = 0 := by rw [same, waiting]
    simp only [if_neg fine, ends, still, ne_eq, not_true, if_false, settle]
    split
    next => rfl
    next => rfl
  · simp only [if_neg fine, ends, complete, if_pos nonzero]

/-- A poll that does not end the wait leaves the channel as it is. -/
theorem PolledWith.goes_on {o : PollOutcome} {w w₁ : World ε} (h : PolledWith dev table w o w₁)
    (hdev : dev.Discreet) (spares : ∀ o, (table o).Spares X) (sync : table .sync = syncIpcOps)
    (ops : (w.chans X).ops = .sync) (on : o.ends X = none) :
    SameChan X w (settle dev o.rc w₁) := by
  rcases h.verdict hdev spares sync ops with ⟨_, ends⟩ | ⟨_, _, same⟩ | ⟨_, r, ends, _⟩
  · rw [on] at ends
    cases ends
  · exact same.trans (settle_keeps (hdev.keeps X) o.rc w₁)
  · rw [on] at ends
    cases ends

/-- Polls that do not end the wait are turns of it. -/
theorem waitLoop_polls (hdev : dev.Discreet) (spares : ∀ o, (table o).Spares X)
    (sync : table .sync = syncIpcOps) {before : List PollOutcome} {w w₁ : World ε}
    (polls : Polls dev table w before w₁) (still : ∀ o ∈ before, o.ends X = none)
    (ops : (w.chans X).ops = .sync) (waiting : (w.chans X).complete = 0) (fuel : Nat) :
    SameChan X w w₁ ∧
      waitLoop dev table X (before.length + fuel) w = waitLoop dev table X fuel w₁ := by
  induction polls with
  | nil => exact ⟨rfl, by rw [List.length_nil, Nat.zero_add]⟩
  | @cons w w₂ w₁ o rest poll polls ih =>
    obtain ⟨on, still⟩ := List.forall_mem_cons.mp still
    have same := poll.goes_on hdev spares sync ops on
    obtain ⟨chans, loops⟩ := ih still (by rw [same, ops]) (by rw [same, waiting])
    refine ⟨same.trans chans, ?_⟩
    rw [List.length_cons, Nat.add_right_comm,
      waitLoop_turn poll hdev spares sync ops waiting, on]
    exact loops

/-- The wait is over at the first poll that ends it. -/
theorem waitLoop_iff (hdev : dev.Discreet) (spares : ∀ o, (table o).Spares X)
    (sync : table .sync = syncIpcOps) {fuel : Nat} {r : Int} {w w' : World ε}
    (ops : (w.chans X).ops = .sync) (waiting : (w.chans X).complete = 0) :
    waitLoop dev table X fuel w = some (r, w') ↔ ∃ before last w₁,
      Polls dev table w before w₁ ∧ (∀ o ∈ before, o.ends X = none) ∧
        PolledWith dev table w₁ last w' ∧ last.ends X = some r ∧ before.length < fuel := by
  constructor
  · intro run
    induction fuel generalizing w with
    | zero => cases run
    | succ fuel ih =>
      obtain ⟨⟨rc, w₁⟩, poll, _⟩ := Option.bind_eq_some_iff.mp run
      obtain ⟨o, polled, rfl⟩ := polledWith_of_poll poll
      rw [waitLoop_turn polled hdev spares sync ops waiting] at run
      cases ends : o.ends X with
      | some r' =>
        rw [ends] at run
        cases run
        exact ⟨[], o, w, .nil, nofun, polled, ends, Nat.succ_pos _⟩
      | none =>
        rw [ends] at run
        have same := polled.goes_on hdev spares sync ops ends
        obtain ⟨before, last, w₂, polls, still, polled', ends', short⟩ :=
          ih (by rw [same, ops]) (by rw [same, waiting]) run
        exact ⟨o :: before, last, w₂, .cons polled polls, List.forall_mem_cons.mpr ⟨ends, still⟩,
          polled', ends', Nat.succ_lt_succ short⟩
  · rintro ⟨before, last, w₁, polls, still, polled, ends, short⟩
    obtain ⟨same, loops⟩ :=
      waitLoop_polls hdev spares sync polls still ops waiting (fuel - before.length - 1 + 1)
    rw [show fuel = before.length + (fuel - before.length - 1 + 1) by omega, loops,
      waitLoop_turn polled hdev spares sync (by rw [same, ops]) (by rw [same, waiting]), ends]

end Wait

end ExternalTrusty
