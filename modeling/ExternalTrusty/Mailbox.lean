import ExternalTrusty.Surroundings

namespace ExternalTrusty

open CMemory

variable {ε : Type}

/-- A receive has taken a message, also when that is too big for its buffers. -/
def Received (rc : Int) : Prop := 0 ≤ rc ∨ rc = trustyErrMsgTooBig

instance (rc : Int) : Decidable (Received rc) := inferInstanceAs (Decidable (_ ∨ _))

/-- The call sends or receives on handle `h`. -/
def OsCall.On (h : UInt32) : OsCall → Prop
  | .send k _ _ => k = h
  | .recv k _ => k = h
  | _ => False

/-- A service's end of a channel: how many requests it has taken, and the messages of its answers,
each with the number of the request, that wait to be received or were received. -/
structure Mailbox where
  asked : Nat
  waiting : List (Nat × Frame)
  received : List (Nat × Frame)

def Mailbox.ask (b : Mailbox) (answer : List Frame) : Mailbox :=
  ⟨b.asked + 1, b.waiting ++ answer.map (Prod.mk b.asked), b.received⟩

def Mailbox.take (b : Mailbox) : Mailbox :=
  ⟨b.asked, b.waiting.tail, b.received ++ b.waiting.take 1⟩

/-- A request that is sent without an error is answered at once, but the answer may stay behind any
number of receives that fail. -/
def Mailbox.record (answer : List OsCall → List Frame) (h : UInt32) (log : List OsCall)
    (b : Mailbox) : OsCall → Mailbox
  | .send k rc msg => if k = h ∧ 0 ≤ rc then b.ask (answer (log ++ [.send k rc msg])) else b
  | .recv k rc => if k = h ∧ Received rc then b.take else b
  | _ => b

def Mailbox.replay (answer : List OsCall → List Frame) (h : UInt32) :
    List OsCall → Mailbox → List OsCall → Mailbox
  | _, b, [] => b
  | log, b, call :: calls => replay answer h (log ++ [call]) (b.record answer h log call) calls

/-- The mailbox of a handle after these calls, when the service gives this answer to the request
that is the last call of a log. -/
def mailbox (answer : List OsCall → List Frame) (h : UInt32) (log : List OsCall) : Mailbox :=
  Mailbox.replay answer h [] ⟨0, [], []⟩ log

section Replay

variable {answer : List OsCall → List Frame} {h : UInt32}

theorem Mailbox.replay_append (log calls more : List OsCall) (b : Mailbox) :
    Mailbox.replay answer h log b (calls ++ more) =
      Mailbox.replay answer h (log ++ calls) (Mailbox.replay answer h log b calls) more := by
  induction calls generalizing log b with
  | nil => rw [List.append_nil, List.nil_append, Mailbox.replay]
  | cons call calls ih =>
    rw [List.cons_append, Mailbox.replay, ih, Mailbox.replay, List.append_assoc]
    rfl

theorem mailbox_append (log calls : List OsCall) :
    mailbox answer h (log ++ calls) = Mailbox.replay answer h log (mailbox answer h log) calls :=
  Mailbox.replay_append [] log calls _

theorem mailbox_concat (log : List OsCall) (call : OsCall) :
    mailbox answer h (log ++ [call]) = (mailbox answer h log).record answer h log call :=
  mailbox_append log [call]

theorem mailbox_off {log calls : List OsCall} (off : ∀ x ∈ calls, ¬x.On h) :
    mailbox answer h (log ++ calls) = mailbox answer h log := by
  induction calls generalizing log with
  | nil => rw [List.append_nil]
  | cons call calls ih =>
    obtain ⟨here, later⟩ := List.forall_mem_cons.mp off
    rw [List.append_cons, ih later, mailbox_concat]
    cases call with
    | connect => rfl
    | close => rfl
    | event => rfl
    | send => exact if_neg fun on => here on.1
    | recv => exact if_neg fun on => here on.1

end Replay

/-- These messages were received between two states of a mailbox, and nothing was asked. -/
structure Mailbox.Took (b b' : Mailbox) (new : List (Nat × Frame)) : Prop where
  asked : b'.asked = b.asked
  waiting : b.waiting = new ++ b'.waiting
  received : b'.received = b.received ++ new

theorem Mailbox.Took.refl (b : Mailbox) : b.Took b [] := ⟨rfl, rfl, (List.append_nil _).symm⟩

theorem Mailbox.Took.trans {b₁ b₂ b₃ : Mailbox} {new more : List (Nat × Frame)}
    (h : b₁.Took b₂ new) (h' : b₂.Took b₃ more) : b₁.Took b₃ (new ++ more) where
  asked := h'.asked.trans h.asked
  waiting := by rw [h.waiting, h'.waiting, List.append_assoc]
  received := by rw [h'.received, h.received, List.append_assoc]

/-- Services that answer each request they take once and in order, on the handles of their clients.
A receive that takes a message takes the one that has waited longest. -/
structure Service (s : Surroundings ε) where
  clients : UInt32 → Prop
  answer : List OsCall → List Frame
  recv : ∀ handle iovs w, clients handle → Received (s.dev.recv handle iovs w).1 →
    ∃ k f rest, (mailbox answer handle (s.log w.env)).waiting = (k, f) :: rest ∧
      ((s.dev.recv handle iovs w).1, (s.dev.recv handle iovs w).2.mem) =
        deliver iovs w.mem (.frame f)

def Service.box {s : Surroundings ε} (sv : Service s) (h : UInt32) (w : World ε) : Mailbox :=
  mailbox sv.answer h (s.log w.env)

/-- The channels in `on` are connected, each with a handle of its own. -/
structure Connected (on : Component → Prop) (handles : Component → UInt32) (w : World ε) :
    Prop where
  handle : ∀ c, on c → (w.chans c).handle = handles c
  sync : ∀ c, on c → (w.chans c).ops = .sync
  proxies : ∀ c, (w.chans c).ops = .proxy → c = .proxy
  nonzero : ∀ c, on c → handles c ≠ 0
  apart : ∀ c d, on c → d ≠ c → (w.chans d).handle ≠ handles c

/-- The channels stay connected while these calls are made, none of them on a spared channel. -/
structure Meanwhile (s : Surroundings ε) (on : Component → Prop) (handles : Component → UInt32)
    (spared : Component → Prop) (w w' : World ε) (calls : List OsCall) : Prop where
  log : s.log w'.env = s.log w.env ++ calls
  connected : Connected on handles w'
  off : ∀ d, on d → spared d → ∀ x ∈ calls, ¬x.On (handles d)

/-- What keeps a wait on channel `c`, with handle `h`, from ending with a message that is received:
an event that fails, a hangup, a storage request that cannot be read or answered, or a receive that
fails. -/
def OsCall.Disturbs (c : Component) (h : UInt32) : OsCall → Prop
  | .event (.error rc) => rc < 0
  | .event (.ok e) => e.Has ipcHandlePollError ∨
      chanOfCookie e.cookie = some c ∧ e.HangsUp ∧ ¬e.Has ipcHandlePollReady
  | .send k rc _ => k ≠ h ∧ rc < 0
  | .recv k rc => if k = h then ¬Received rc else rc < sizeofStorageMsg
  | _ => False

section Channels

variable {s : Surroundings ε} {on : Component → Prop} {handles : Component → UInt32}
  {spared : Component → Prop} {w w' w'' : World ε} {calls calls' : List OsCall}

theorem Connected.of_chans (h : Connected on handles w) (chans : w'.chans = w.chans) :
    Connected on handles w' := by
  refine ⟨?_, ?_, ?_, h.nonzero, ?_⟩
  · rw [chans]
    exact h.handle
  · rw [chans]
    exact h.sync
  · rw [chans]
    exact h.proxies
  · rw [chans]
    exact h.apart

theorem Connected.setComplete (h : Connected on handles w) (c : Component) (complete : Int) :
    Connected on handles (w.setComplete c complete) where
  handle d hd := (setComplete_handle ..).trans (h.handle d hd)
  sync d hd := (setComplete_ops ..).trans (h.sync d hd)
  proxies d proxy := h.proxies d ((setComplete_ops ..).symm.trans proxy)
  nonzero := h.nonzero
  apart d e hd he same := h.apart d e hd he ((setComplete_handle ..).symm.trans same)

/-- The proxy's channel may be lost at any time. -/
theorem Connected.proxyLost (h : Connected on handles w) (proxy : (w.chans .proxy).ops = .proxy) :
    Connected on handles (w.setHandle .proxy 0) := by
  have other : ∀ d, d ≠ .proxy → (w.setHandle .proxy 0).chans d = w.chans d := fun d hd =>
    Function.update_of_ne hd _ _
  have client : ∀ d, on d → d ≠ .proxy := by
    intro d hd same
    have sync := h.sync d hd
    rw [same, proxy] at sync
    cases sync
  refine ⟨?_, ?_, ?_, h.nonzero, ?_⟩
  · intro d hd
    rw [other d (client d hd)]
    exact h.handle d hd
  · intro d hd
    rw [other d (client d hd)]
    exact h.sync d hd
  · intro d ops
    rw [setHandle_ops] at ops
    exact h.proxies d ops
  · intro d e hd he
    by_cases same : e = .proxy
    · subst same
      have zero : ((w.setHandle .proxy 0).chans .proxy).handle = 0 := by simp [World.setHandle]
      rw [zero]
      exact (h.nonzero d hd).symm
    · rw [other e same]
      exact h.apart d e hd he

theorem Meanwhile.refl (h : Connected on handles w) : Meanwhile s on handles spared w w [] :=
  ⟨(List.append_nil _).symm, h, nofun⟩

theorem Meanwhile.trans (h : Meanwhile s on handles spared w w' calls)
    (h' : Meanwhile s on handles spared w' w'' calls') :
    Meanwhile s on handles spared w w'' (calls ++ calls') where
  log := by rw [h'.log, h.log, List.append_assoc]
  connected := h'.connected
  off d hd apart := List.forall_mem_append.mpr ⟨h.off d hd apart, h'.off d hd apart⟩

theorem Meanwhile.mono {fewer : Component → Prop} (h : Meanwhile s on handles spared w w' calls)
    (imp : ∀ d, fewer d → spared d) : Meanwhile s on handles fewer w w' calls :=
  ⟨h.log, h.connected, fun d hd apart => h.off d hd (imp d apart)⟩

theorem Meanwhile.of_did (h : Connected on handles w) (did : Did s.log w w' calls)
    (off : ∀ d, on d → spared d → ∀ x ∈ calls, ¬x.On (handles d)) :
    Meanwhile s on handles spared w w' calls :=
  ⟨did.log, h.of_chans did.chans, off⟩

theorem Meanwhile.box (sv : Service s) {d : Component}
    (h : Meanwhile s on handles spared w w' calls) (hd : on d) (apart : spared d) :
    sv.box (handles d) w' = sv.box (handles d) w := by
  unfold Service.box
  rw [h.log]
  exact mailbox_off (h.off d hd apart)

/-- What is done on channel `c` between two worlds: other connected channels are left alone, and
these messages are received. -/
structure Reading (sv : Service s) (on : Component → Prop) (handles : Component → UInt32)
    (c : Component) (w w' : World ε) (calls : List OsCall) (new : List (Nat × Frame)) : Prop where
  meanwhile : Meanwhile s on handles (fun d => d ≠ c) w w' calls
  took : (sv.box (handles c) w).Took (sv.box (handles c) w') new

theorem Reading.trans {sv : Service s} {c : Component} {new new' : List (Nat × Frame)}
    (h : Reading sv on handles c w w' calls new)
    (h' : Reading sv on handles c w' w'' calls' new') :
    Reading sv on handles c w w'' (calls ++ calls') (new ++ new') :=
  ⟨h.meanwhile.trans h'.meanwhile, h.took.trans h'.took⟩

/-- The program's own stores. -/
theorem Connected.setMem (h : Connected on handles w) (m : Mem Obj) :
    Connected on handles (w.setMem m) := h.of_chans rfl

/-- Nothing disturbs the waits on channel `c`. -/
def Calm (c : Component) (h : UInt32) (calls : List OsCall) : Prop :=
  ∀ x ∈ calls, ¬x.Disturbs c h

theorem calm_append {c : Component} {h : UInt32} :
    Calm c h (calls ++ calls') ↔ Calm c h calls ∧ Calm c h calls' := List.forall_mem_append

end Channels

section Waits

variable {s : Surroundings ε} {on : Component → Prop} {handles : Component → UInt32}
  {target : Target} {fuel : Nat} {c : Component} {w w' : World ε} {rc : Int} {iovs : List Iovec}

/-- A connected channel is not the proxy's. -/
theorem Connected.ne_proxy (h : Connected on handles w) (hc : on c)
    (proxy : (w.chans .proxy).ops = .proxy) : c ≠ .proxy := by
  intro same
  have sync := h.sync c hc
  rw [same, proxy] at sync
  cases sync

/-- A poll leaves the connected channels alone. It fails, or completes the wait on a channel with an
error, only when there is something to disturb that. -/
theorem Connected.poll (h : Connected on handles w) (done : s.PollDone w rc w') :
    ∃ calls, Meanwhile s on handles (fun _ => True) w w' calls ∧ ∀ c, on c →
      (rc < 0 → ∃ x ∈ calls, x.Disturbs c (handles c)) ∧
      ((w'.chans c).complete ≠ (w.chans c).complete → (w'.chans c).complete < 0 →
        ∃ x ∈ calls, x.Disturbs c (handles c)) := by
  have handled : ¬trustyEventHandled < 0 := by decide
  have eventOff : ∀ evt d, on d → True → ∀ x ∈ [OsCall.event evt], ¬x.On (handles d) :=
    fun evt d _ _ => List.forall_mem_singleton.mpr id
  have unchanged : ∀ {w₂ : World ε}, w₂.chans = w.chans → ∀ c,
      (w₂.chans c).complete = (w.chans c).complete := by
    intro w₂ chans c
    rw [chans]
  have lost : ∀ {w₂ : World ε}, w₂.chans = w.chans → (w.chans .proxy).ops = .proxy → ∀ c, on c →
      ((w₂.setHandle .proxy 0).chans c).complete = (w.chans c).complete := by
    intro w₂ chans proxy c hc
    rw [← chans]
    exact congrArg Chan.complete (Function.update_of_ne (h.ne_proxy hc proxy) _ _)
  cases done with
  | failed did =>
    refine ⟨_, .of_did h did (eventOff _), fun c hc => ⟨fun negative => ?_, fun changed => ?_⟩⟩
    · exact ⟨_, List.mem_cons_self, negative⟩
    · exact absurd (unchanged did.chans c) changed
  | ignored did fails =>
    refine ⟨_, .of_did h did (eventOff _), fun c hc => ⟨fun negative => ?_, fun changed => ?_⟩⟩
    · exact ⟨_, List.mem_cons_self, Or.inl (fails negative)⟩
    · exact absurd (unchanged did.chans c) changed
  | @completed e d w₁ complete did chan sync closes =>
    have while₁ := Meanwhile.of_did h did (eventOff _)
    refine ⟨_, ⟨while₁.log, while₁.connected.setComplete d complete, while₁.off⟩,
      fun c hc => ⟨fun negative => absurd negative handled, fun changed negative => ?_⟩⟩
    by_cases same : c = d
    · subst same
      have value : ((w₁.setComplete c complete).chans c).complete = complete := by
        simp [World.setComplete]
      rw [value] at negative
      exact ⟨_, List.mem_cons_self, Or.inr ⟨chan, closes negative⟩⟩
    · have other : (w₁.setComplete d complete).chans c = w.chans c := by
        rw [← did.chans]
        exact Function.update_of_ne same _ _
      rw [other] at changed
      exact absurd rfl changed
  | @message e d rc w₁ w' got chan proxy brings done =>
    obtain rfl := h.proxies d proxy
    have apart : ∀ d, on d → (w₁.chans .proxy).handle ≠ handles d := by
      intro d hd
      rw [got.chans]
      exact h.apart d .proxy hd (h.ne_proxy hd proxy).symm
    cases done with
    | @answered w' r r' bytes read sent did =>
      have both := got.trans did
      refine ⟨_, .of_did h both ?_, fun c hc => ⟨fun negative => absurd negative handled, ?_⟩⟩
      · intro d hd _
        simp [OsCall.On, apart d hd]
      · exact fun changed => absurd (unchanged both.chans c) changed
    | @unread w₂ rc r negative failed did =>
      have both := got.trans did
      have while₂ : Meanwhile s on handles (fun _ => True) w w₂ _ := .of_did h both (by
        intro d hd _
        simp [OsCall.On, apart d hd])
      have lose := while₂.connected.proxyLost (by rw [both.chans]; exact proxy)
      refine ⟨_, ⟨while₂.log, lose, while₂.off⟩, fun c hc => ⟨fun _ => ?_, fun changed => ?_⟩⟩
      · refine ⟨.recv _ r, List.mem_append_right _ List.mem_cons_self, ?_⟩
        exact (if_neg (apart c hc)).mpr failed
      · exact absurd (lost both.chans proxy c hc) changed
    | @unanswered w₂ rc r bytes negative read did =>
      have both := got.trans did
      have while₂ : Meanwhile s on handles (fun _ => True) w w₂ _ := .of_did h both (by
        intro d hd _
        simp [OsCall.On, apart d hd])
      have lose := while₂.connected.proxyLost (by rw [both.chans]; exact proxy)
      refine ⟨_, ⟨while₂.log, lose, while₂.off⟩, fun c hc => ⟨fun _ => ?_, fun changed => ?_⟩⟩
      · have mem : OsCall.send (w₁.chans .proxy).handle rc bytes ∈ [OsCall.event (.ok e)] ++
            [.recv (w₁.chans .proxy).handle r, .send (w₁.chans .proxy).handle rc bytes,
              .close (w₁.chans .proxy).handle] := by simp
        exact ⟨_, mem, apart c hc, negative⟩
      · exact absurd (lost both.chans proxy c hc) changed
  | @hangup e d w₁ did chan proxy hangs =>
    obtain rfl := h.proxies d proxy
    have while₁ := Meanwhile.of_did h did (eventOff _)
    have lose := while₁.connected.proxyLost (by rw [did.chans]; exact proxy)
    refine ⟨_, ⟨while₁.log, lose, while₁.off⟩, fun c hc => ⟨?_, fun changed => ?_⟩⟩
    · exact fun negative => absurd negative handled
    · exact absurd (lost did.chans proxy c hc) changed

theorem waitLoop_meanwhile (hc : on c) (h : Connected on handles w)
    (run : waitLoop s.dev (s.ops target) c fuel w = some (rc, w'))
    (pending : (w.chans c).complete = 0) :
    ∃ calls, Meanwhile s on handles (fun _ => True) w w' calls ∧
      (rc < 0 → ∃ x ∈ calls, x.Disturbs c (handles c)) := by
  induction fuel generalizing w with
  | zero => cases run
  | succ fuel ih =>
    obtain ⟨⟨rc₁, w₁⟩, polled, run⟩ := Option.bind_eq_some_iff.mp run
    obtain ⟨calls, while₁, outcome⟩ := h.poll (s.poll_done polled)
    obtain ⟨fails, closes⟩ := outcome c hc
    simp only at run
    split at run
    next =>
      cases run
      exact ⟨calls, while₁, fails⟩
    next =>
      split at run
      next complete =>
        cases run
        refine ⟨calls, while₁, closes ?_⟩
        rw [pending]
        exact complete
      next still =>
        have later : ∀ {w₂ : World ε} {more}, Meanwhile s on handles (fun _ => True) w₁ w₂ more →
            w₂.chans = w₁.chans → waitLoop s.dev (s.ops target) c fuel w₂ = some (rc, w') →
            ∃ calls, Meanwhile s on handles (fun _ => True) w w' calls ∧
              (rc < 0 → ∃ x ∈ calls, x.Disturbs c (handles c)) := by
          intro w₂ more while₂ chans rest
          obtain ⟨calls', while₃, disturbed⟩ := ih while₂.connected rest (by
            rw [chans]
            exact not_not.mp still)
          refine ⟨_, while₁.trans (while₂.trans while₃), fun negative => ?_⟩
          obtain ⟨x, mem, disturbs⟩ := disturbed negative
          exact ⟨x, List.mem_append_right _ (List.mem_append_right _ mem), disturbs⟩
        split at run
        next =>
          have looked := s.hasEvent 0 w₁
          have idle := looked.trans (s.idle (s.dev.hasEvent 0 w₁).2)
          by_cases more : (s.dev.hasEvent 0 w₁).1 = true
          · rw [if_pos more] at run
            exact later (.of_did while₁.connected looked nofun) looked.chans run
          · rw [if_neg more] at run
            exact later (.of_did while₁.connected idle nofun) idle.chans run
        next => exact later (.refl while₁.connected) rfl run

theorem waitForComplete_meanwhile (hc : on c) (h : Connected on handles w)
    (run : waitForComplete s.dev (s.ops target) fuel c w = some (rc, w')) :
    ∃ calls, Meanwhile s on handles (fun _ => True) w w' calls ∧
      (rc < 0 → ∃ x ∈ calls, x.Disturbs c (handles c)) := by
  obtain ⟨calls, while₁, disturbed⟩ := waitLoop_meanwhile hc (h.setComplete c 0) run
    (by simp [World.setComplete])
  exact ⟨calls, ⟨while₁.log, while₁.connected, while₁.off⟩, disturbed⟩

/-- A blocked send has asked nothing, and is tried again. -/
theorem trustyIpcSend_meanwhile {sv : Service s} (hc : on c) (h : Connected on handles w)
    (run : trustyIpcSend s.dev (s.ops target) fuel c iovs true w = some (rc, w')) :
    ∃ calls, Meanwhile s on handles (fun d => d ≠ c) w w' calls ∧
      (rc < 0 ∧ sv.box (handles c) w' = sv.box (handles c) w ∨
        0 ≤ rc ∧ ∃ answer, sv.box (handles c) w' = (sv.box (handles c) w).ask answer) := by
  induction fuel generalizing w with
  | zero => cases run
  | succ fuel ih =>
    have did := s.send (w.chans c).handle iovs w
    have off : ∀ rc msg d, on d → d ≠ c →
        ∀ x ∈ [OsCall.send (w.chans c).handle rc msg], ¬x.On (handles d) := by
      intro rc msg d hd apart
      exact List.forall_mem_singleton.mpr (h.apart d c hd apart.symm)
    have while₁ := Meanwhile.of_did h did (off _ _)
    have box : sv.box (handles c) (s.dev.send (w.chans c).handle iovs w).2 =
        (sv.box (handles c) w).record sv.answer (handles c) (s.log w.env)
          (.send (w.chans c).handle (s.dev.send (w.chans c).handle iovs w).1
            (gather w.mem (segs iovs))) := by
      unfold Service.box
      rw [did.log, mailbox_concat]
    unfold trustyIpcSend at run
    simp only at run
    split at run
    next blocked =>
      obtain ⟨⟨rc₂, w₂⟩, waited, run⟩ := Option.bind_eq_some_iff.mp run
      obtain ⟨calls₂, while₂, _⟩ := waitForComplete_meanwhile hc while₁.connected waited
      have negative : ¬0 ≤ (s.dev.send (w.chans c).handle iovs w).1 := by
        rw [blocked.1]
        decide
      rw [Mailbox.record, if_neg fun both => negative both.2] at box
      have box₂ := (while₂.box sv hc trivial).trans box
      have both := while₁.trans (while₂.mono fun _ _ => trivial)
      simp only at run
      split at run
      next failed =>
        cases run
        exact ⟨_, both, Or.inl ⟨failed, box₂⟩⟩
      next =>
        obtain ⟨calls, while₃, outcome⟩ := ih while₂.connected run
        rw [box₂] at outcome
        exact ⟨_, both.trans while₃, outcome⟩
    next =>
      obtain ⟨rfl, rfl⟩ := Prod.mk.inj (Option.some.inj run)
      refine ⟨_, while₁, ?_⟩
      by_cases negative : (s.dev.send (w.chans c).handle iovs w).1 < 0
      · refine Or.inl ⟨negative, box.trans (if_neg fun both => ?_)⟩
        exact absurd negative (not_lt.mpr both.2)
      · refine Or.inr ⟨not_lt.mp negative, _, box.trans (if_pos ⟨h.handle c hc, ?_⟩)⟩
        exact not_lt.mp negative

/-- A receive that is not disturbed takes the message that has waited longest. -/
theorem trustyIpcRecv_meanwhile {sv : Service s} (hc : on c) (client : sv.clients (handles c))
    (h : Connected on handles w)
    (run : trustyIpcRecv s.dev (s.ops target) fuel c iovs true w = some (rc, w')) :
    ∃ calls new, Reading sv on handles c w w' calls new ∧
      (rc < 0 ∧ ¬Calm c (handles c) calls ∨
        ∃ x m, new = [x] ∧ (rc, w'.mem) = deliver iovs m (.frame x.2)) := by
  obtain ⟨⟨rc₁, w₁⟩, waited, run⟩ := Option.bind_eq_some_iff.mp run
  obtain ⟨calls₁, while₁, disturbed⟩ := waitForComplete_meanwhile hc h waited
  have box₁ := while₁.box sv hc trivial
  simp only at run
  split at run
  next negative =>
    cases run
    refine ⟨calls₁, [], ⟨while₁.mono fun _ _ => trivial, ?_⟩, Or.inl ⟨negative, fun calm => ?_⟩⟩
    · rw [box₁]
      exact Mailbox.Took.refl _
    · obtain ⟨x, mem, disturbs⟩ := disturbed negative
      exact calm x mem disturbs
  next =>
    have handle := while₁.connected.handle c hc
    have did := s.recv (w₁.chans c).handle iovs w₁
    have takes := sv.recv (handles c) iovs w₁ client
    rw [handle] at did run
    cases hrecv : s.dev.recv (handles c) iovs w₁ with
    | mk r w₂ =>
      rw [hrecv] at did takes run
      obtain ⟨rfl, rfl⟩ := Prod.mk.inj (Option.some.inj run)
      have off : ∀ d, on d → d ≠ c → ∀ x ∈ [OsCall.recv (handles c) r], ¬x.On (handles d) := by
        intro d hd apart
        refine List.forall_mem_singleton.mpr fun same => ?_
        exact while₁.connected.apart d c hd apart.symm (handle.trans same)
      have while₂ := (while₁.mono fun _ _ => trivial).trans
        (Meanwhile.of_did while₁.connected did off)
      have box₂ : sv.box (handles c) w₂ = (sv.box (handles c) w).record sv.answer (handles c)
          (s.log w₁.env) (.recv (handles c) r) := by
        rw [← box₁]
        unfold Service.box
        rw [did.log, mailbox_concat]
      by_cases received : Received r
      · obtain ⟨k, f, rest, waiting, delivered⟩ := takes received
        change (sv.box (handles c) w₁).waiting = _ at waiting
        rw [box₁] at waiting
        rw [Mailbox.record, if_pos ⟨rfl, received⟩] at box₂
        refine ⟨_, [(k, f)], ⟨while₂, ?_⟩, Or.inr ⟨(k, f), w₁.mem, rfl, delivered⟩⟩
        rw [box₂]
        refine ⟨rfl, ?_, ?_⟩
        · show (sv.box (handles c) w).waiting = (k, f) :: (sv.box (handles c) w).waiting.tail
          rw [waiting, List.tail_cons]
        · rw [Mailbox.take, waiting]
          rfl
      · rw [Mailbox.record, if_neg fun both => received both.2] at box₂
        refine ⟨_, [], ⟨while₂, ?_⟩, Or.inl ⟨?_, fun calm => ?_⟩⟩
        · rw [box₂]
          exact Mailbox.Took.refl _
        · exact not_le.mp fun positive => received (Or.inl positive)
        · exact calm _ (List.mem_append_right _ List.mem_cons_self) ((if_pos rfl).mpr received)

end Waits

end ExternalTrusty
