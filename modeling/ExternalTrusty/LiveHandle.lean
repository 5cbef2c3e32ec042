import ExternalTrusty.Ownership
import ExternalTrusty.Observed

namespace ExternalTrusty

variable {ε : Type}

/-- The handle in the command that a call sends to the secure OS, if the command carries one. -/
def OsCall.commands : OsCall → Option UInt32
  | .close h => some h
  | .send h _ _ => some h
  | .recv h _ => some h
  | _ => none

/-- Each handle sent to the secure OS is valid, was granted to `c` before, and is not closed. -/
def CommandsLive (c : Component) (calls : List OsCall) : Prop :=
  ∀ before call after h, calls = before ++ call :: after → call.commands = some h →
    h ≠ 0 ∧ (∃ rc, 0 ≤ rc ∧ handleOf rc = h ∧ .connect (chanCookie c) rc ∈ before) ∧
      .close h ∉ before

/-- What happens on a channel with this handle as long as it is open. -/
def OsCall.Serves (h : UInt32) : OsCall → Prop
  | .event _ => True
  | .send k _ _ => k = h
  | .recv k _ => k = h
  | _ => False

/-- The secure OS gives the proxy no reason to let go of its channel. -/
def OsCall.Undisturbed : OsCall → Prop
  | .event (.ok e) => chanOfCookie e.cookie = some .proxy → ¬e.HangsUp
  | .send _ rc _ => 0 ≤ rc
  | .recv _ rc => (sizeofStorageMsg : Int) ≤ rc
  | _ => True

theorem OsCall.Serves.of_commands {h k : UInt32} {call : OsCall} (serves : call.Serves h)
    (carries : call.commands = some k) : k = h := by
  cases call with
  | connect => cases carries
  | event => cases carries
  | close => exact serves.elim
  | send =>
    cases carries
    exact serves
  | recv =>
    cases carries
    exact serves

/-- A channel that is connected, serves, and is closed at the end. -/
theorem commandsLive_of_serves {c : Component} {rc : Int} {calls : List OsCall}
    (granted : 0 ≤ rc) (valid : handleOf rc ≠ 0)
    (serves : ∀ call ∈ calls, call.Serves (handleOf rc)) :
    CommandsLive c (.connect (chanCookie c) rc :: calls ++ [.close (handleOf rc)]) := by
  intro before call after h eq carries
  cases before with
  | nil =>
    cases eq
    cases carries
  | cons first before =>
    rw [List.cons_append, List.cons_append, List.cons.injEq] at eq
    obtain ⟨rfl, eq⟩ := eq
    have grant : ∃ rc', 0 ≤ rc' ∧ handleOf rc' = handleOf rc ∧
        OsCall.connect (chanCookie c) rc' ∈ OsCall.connect (chanCookie c) rc :: before :=
      ⟨rc, granted, rfl, List.mem_cons_self⟩
    -- the last call is the close, and all that comes before it serves
    have member : ∀ x ∈ before, x ∈ calls := by
      have short : before.length ≤ calls.length := by
        have lengths := congrArg List.length eq
        simp only [List.length_append, List.length_cons, List.length_nil] at lengths
        omega
      have front : before <+: calls :=
        List.prefix_of_prefix_length_le ⟨call :: after, eq.symm⟩ ⟨[_], rfl⟩ short
      exact fun x mem => front.subset mem
    have unclosed : OsCall.close (handleOf rc) ∉ OsCall.connect (chanCookie c) rc :: before := by
      intro mem
      cases mem with
      | tail _ mem => exact serves _ (member _ mem)
    have mem : call ∈ calls ++ [.close (handleOf rc)] := by
      rw [eq]
      exact List.mem_append_right _ List.mem_cons_self
    have same : h = handleOf rc := by
      rcases List.mem_append.mp mem with mem | mem
      · exact (serves call mem).of_commands carries
      · cases List.mem_singleton.mp mem
        exact (Option.some.inj carries).symm
    rw [same]
    exact ⟨valid, grant, unclosed⟩

/-- The invalid handle is never to be closed. -/
theorem not_commandsLive_of_close_zero {c : Component} (calls : List OsCall) :
    ¬CommandsLive c (calls ++ [.close 0]) := by
  intro live
  exact (live calls (.close 0) [] 0 rfl rfl).1 rfl

namespace Surroundings

variable (s : Surroundings ε)

/-- Polls, one after another. -/
inductive Polled (target : Target) (start : World ε) : World ε → Prop
  | here : Polled target start start
  | poll {w w' : World ε} {rc : Int} (before : Polled target start w)
    (run : trustyIpcPollForEvent s.dev (s.ops target) w = some (rc, w')) : Polled target start w'

/-- The proxy's channel has the handle it was granted when it was connected, after `start`. -/
structure Serving (start : World ε) (rc : Int) (w : World ε) : Prop where
  handle : (w.chans .proxy).handle = handleOf rc
  alone : ∀ c, (w.chans c).ops = .proxy → c = .proxy
  served : ∃ calls, s.log w.env = s.log start.env ++ .connect (chanCookie .proxy) rc :: calls ∧
    ∀ call ∈ calls, call.Serves (handleOf rc)

section Polls

variable {s} {start w w' : World ε} {rc rc₀ : Int} {target : Target} {fuel : Nat}

theorem Serving.of_did {calls : List OsCall} (h : s.Serving start rc₀ w)
    (did : Did s.log w w' calls) (serves : ∀ call ∈ calls, call.Serves (handleOf rc₀)) :
    s.Serving start rc₀ w' := by
  obtain ⟨before, log, served⟩ := h.served
  refine ⟨?_, ?_, before ++ calls, ?_, List.forall_mem_append.mpr ⟨served, serves⟩⟩
  · rw [did.chans]
    exact h.handle
  · intro c proxy
    rw [did.chans] at proxy
    exact h.alone c proxy
  · rw [did.log, log, List.append_assoc, List.cons_append]

theorem Serving.setComplete (h : s.Serving start rc₀ w) (c : Component) (complete : Int) :
    s.Serving start rc₀ (w.setComplete c complete) := by
  refine ⟨(setComplete_handle ..).trans h.handle, fun d proxy => ?_, h.served⟩
  rw [setComplete_ops] at proxy
  exact h.alone d proxy

theorem Serving.setOps (h : s.Serving start rc₀ w) : s.Serving start rc₀ { w with
    chans := Function.update w.chans .proxy { w.chans .proxy with ops := .proxy } } := by
  refine ⟨by simpa using h.handle, fun c proxy => ?_, h.served⟩
  by_cases hc : c = .proxy
  · exact hc
  · apply h.alone c
    simpa [Function.update_of_ne hc] using proxy

theorem setHandle_zero (w : World ε) : ((w.setHandle .proxy 0).chans .proxy).handle = 0 := by
  simp [World.setHandle]

/-- A poll serves the channel until it is disturbed, and then it has lost the channel. -/
theorem Serving.poll (h : s.Serving start rc₀ w) (done : s.PollDone w rc w') :
    ∃ calls, s.log w'.env = s.log w.env ++ calls ∧
      (s.Serving start rc₀ w' ∧
          ((w.chans .proxy).ops = .proxy → ∀ call ∈ calls, call.Undisturbed) ∨
        (w'.chans .proxy).handle = 0 ∧ ¬∀ call ∈ calls, call.Undisturbed) := by
  cases done with
  | failed did =>
    have serving := h.of_did did (List.forall_mem_singleton.mpr trivial)
    exact ⟨_, did.log, Or.inl ⟨serving, fun _ => List.forall_mem_singleton.mpr trivial⟩⟩
  | @ignored e _ _ did fails neither =>
    have serving := h.of_did did (List.forall_mem_singleton.mpr trivial)
    refine ⟨_, did.log, Or.inl ⟨serving, fun proxy => List.forall_mem_singleton.mpr ?_⟩⟩
    exact fun chan => (neither .proxy chan proxy).2
  | @completed e c _ complete did chan sync =>
    have serving := h.of_did did (List.forall_mem_singleton.mpr trivial)
    refine ⟨_, did.log, Or.inl ⟨serving.setComplete c complete, fun proxy => ?_⟩⟩
    refine List.forall_mem_singleton.mpr fun chan' => ?_
    rw [chan] at chan'
    cases chan'
    rw [sync] at proxy
    cases proxy
  | @message e c _ w₁ _ got chan proxy brings done =>
    obtain rfl := h.alone c proxy
    have handle : (w₁.chans .proxy).handle = handleOf rc₀ := by
      rw [got.chans]
      exact h.handle
    cases done with
    | answered read sent did =>
      refine ⟨_, (got.trans did).log, Or.inl ⟨h.of_did (got.trans did) ?_, fun _ => ?_⟩⟩
      · rw [handle]
        simp [OsCall.Serves]
      · have quiet : (OsCall.event (.ok e)).Undisturbed := fun _ hangs => hangs.2.1 brings.2
        simpa [OsCall.Undisturbed, read, sent] using quiet
    | unread negative failed did =>
      refine ⟨_, (got.trans did).log, Or.inr ⟨setHandle_zero _, fun quiet => ?_⟩⟩
      have read : (sizeofStorageMsg : Int) ≤ _ :=
        quiet _ (List.mem_append_right _ List.mem_cons_self)
      exact absurd failed (not_lt.mpr read)
    | unanswered negative read did =>
      refine ⟨_, (got.trans did).log, Or.inr ⟨setHandle_zero _, fun quiet => ?_⟩⟩
      have sent : 0 ≤ rc := quiet (.send _ rc _)
        (List.mem_append_right _ (List.mem_cons_of_mem _ List.mem_cons_self))
      exact absurd negative (not_lt.mpr sent)
  | @hangup e c _ did chan proxy hangs =>
    obtain rfl := h.alone c proxy
    refine ⟨_, did.log, Or.inr ⟨setHandle_zero _, fun quiet => ?_⟩⟩
    exact quiet _ List.mem_cons_self chan hangs

/-- Polls do not touch the channels' operations, and the log only grows. -/
theorem PollDone.grows (done : s.PollDone w rc w') :
    (∃ calls, s.log w'.env = s.log w.env ++ calls) ∧
      ∀ c, (w'.chans c).ops = (w.chans c).ops := by
  cases done with
  | failed did => exact ⟨⟨_, did.log⟩, fun c => by rw [did.chans]⟩
  | ignored did => exact ⟨⟨_, did.log⟩, fun c => by rw [did.chans]⟩
  | completed _ did => exact ⟨⟨_, did.log⟩, fun c => by rw [setComplete_ops, did.chans]⟩
  | message got _ _ _ done =>
    cases done with
    | answered _ _ did => exact ⟨⟨_, (got.trans did).log⟩, fun c => by rw [(got.trans did).chans]⟩
    | unread _ _ did =>
      exact ⟨⟨_, (got.trans did).log⟩, fun c => by rw [setHandle_ops, (got.trans did).chans]⟩
    | unanswered _ _ did =>
      exact ⟨⟨_, (got.trans did).log⟩, fun c => by rw [setHandle_ops, (got.trans did).chans]⟩
  | hangup did => exact ⟨⟨_, did.log⟩, fun c => by rw [setHandle_ops, did.chans]⟩

/-- A lost channel stays lost. -/
theorem PollDone.lost (done : s.PollDone w rc w') (zero : (w.chans .proxy).handle = 0) :
    (w'.chans .proxy).handle = 0 := by
  have setHandle : ∀ (w : World ε) c, (w.chans .proxy).handle = 0 →
      ((w.setHandle c 0).chans .proxy).handle = 0 := by
    intro w c zero
    by_cases hc : .proxy = c
    · subst hc
      exact setHandle_zero w
    · simpa [World.setHandle, Function.update_of_ne hc] using zero
  cases done with
  | failed did =>
    rw [did.chans]
    exact zero
  | ignored did =>
    rw [did.chans]
    exact zero
  | completed _ did =>
    rw [setComplete_handle, did.chans]
    exact zero
  | message got _ _ _ done =>
    cases done with
    | answered _ _ did =>
      rw [(got.trans did).chans]
      exact zero
    | unread _ _ did =>
      apply setHandle
      rw [(got.trans did).chans]
      exact zero
    | unanswered _ _ did =>
      apply setHandle
      rw [(got.trans did).chans]
      exact zero
  | hangup did =>
    apply setHandle
    rw [did.chans]
    exact zero

/-- Serving, or lost: what every poll keeps, from the moment the handle is granted. -/
theorem serving_or_lost (done : s.PollDone w rc w')
    (h : s.Serving start rc₀ w ∨ (w.chans .proxy).handle = 0) :
    s.Serving start rc₀ w' ∨ (w'.chans .proxy).handle = 0 := by
  rcases h with serving | zero
  · obtain ⟨_, _, ⟨serving', _⟩ | ⟨zero', _⟩⟩ := serving.poll done
    · exact Or.inl serving'
    · exact Or.inr zero'
  · exact Or.inr (done.lost zero)

/-- A run of polls from a channel that serves. -/
theorem Polled.outcome {w₁ w₂ : World ε} (polled : s.Polled target w₁ w₂)
    (h : s.Serving start rc₀ w₁) (proxy : (w₁.chans .proxy).ops = .proxy) :
    (w₂.chans .proxy).ops = .proxy ∧ ∃ calls, s.log w₂.env = s.log w₁.env ++ calls ∧
      (s.Serving start rc₀ w₂ ∧ (∀ call ∈ calls, call.Undisturbed) ∨
        (w₂.chans .proxy).handle = 0 ∧ ¬∀ call ∈ calls, call.Undisturbed) := by
  induction polled with
  | here => exact ⟨proxy, [], (List.append_nil _).symm, Or.inl ⟨h, nofun⟩⟩
  | poll before run ih =>
    have done := s.poll_done run
    obtain ⟨proxy', calls, log, state⟩ := ih
    refine ⟨(done.grows.2 .proxy).trans proxy', ?_⟩
    rcases state with ⟨serving, quiet⟩ | ⟨zero, disturbed⟩
    · obtain ⟨more, log', ⟨serving', quiet'⟩ | ⟨zero', disturbed'⟩⟩ := serving.poll done
      · refine ⟨calls ++ more, by rw [log', log, List.append_assoc], Or.inl ⟨serving', ?_⟩⟩
        exact List.forall_mem_append.mpr ⟨quiet, quiet' proxy'⟩
      · refine ⟨calls ++ more, by rw [log', log, List.append_assoc], Or.inr ⟨zero', ?_⟩⟩
        exact fun all => disturbed' (List.forall_mem_append.mp all).2
    · obtain ⟨⟨more, log'⟩, _⟩ := done.grows
      refine ⟨calls ++ more, by rw [log', log, List.append_assoc], Or.inr ⟨done.lost zero, ?_⟩⟩
      exact fun all => disturbed (List.forall_mem_append.mp all).1

theorem proxyDrain_serving (drained : proxyDrain s.dev (s.ops target) fuel w = some (rc, w'))
    (h : s.Serving start rc₀ w ∨ (w.chans .proxy).handle = 0)
    (proxy : (w.chans .proxy).ops = .proxy) (fine : 0 ≤ rc) :
    s.Serving start rc₀ w' ∧ (w'.chans .proxy).handle ≠ 0 ∧ (w'.chans .proxy).ops = .proxy := by
  induction fuel generalizing w with
  | zero => cases drained
  | succ fuel ih =>
    obtain ⟨⟨rc₁, w₁⟩, polled, drained⟩ := Option.bind_eq_some_iff.mp drained
    have done := s.poll_done polled
    have kept := serving_or_lost done h
    have proxy' := (done.grows.2 .proxy).trans proxy
    simp only at drained
    split at drained
    next negative =>
      cases drained
      exact absurd negative (not_lt.mpr fine)
    next =>
      split at drained
      next =>
        cases drained
        exact absurd fine (by decide)
      next nonzero =>
        split at drained
        next => exact ih drained kept proxy'
        next =>
          cases drained
          rcases kept with serving | zero
          · exact ⟨serving, nonzero, proxy'⟩
          · exact absurd zero nonzero

/-- After connecting, the channel has the granted handle and nothing was sent on it. -/
theorem connect_serving (alone : ∀ c, (w.chans c).ops = .proxy → c = .proxy)
    (connected : trustyIpcConnect s.dev (s.ops target) fuel .proxy storageDiskProxyPort true
      (trustyIpcChanInit .proxy w) = some (rc, w')) (fine : 0 ≤ rc) :
    ∃ rc₀, 0 ≤ rc₀ ∧ (s.Serving w rc₀ w' ∨ (w'.chans .proxy).handle = 0) := by
  have granted := s.connect storageDiskProxyPort (chanCookie .proxy) (trustyIpcChanInit .proxy w)
  unfold trustyIpcConnect at connected
  cases hconn : s.dev.connect storageDiskProxyPort (chanCookie .proxy)
      (trustyIpcChanInit .proxy w) with
  | mk rc₀ w₀ =>
    rw [hconn] at granted
    simp only [hconn] at connected
    split at connected
    next negative =>
      cases connected
      exact absurd negative (not_lt.mpr fine)
    next positive =>
      have serving : s.Serving w rc₀ (w₀.setHandle .proxy (handleOf rc₀)) := by
        refine ⟨by simp [World.setHandle], ?_, [], granted.log, nofun⟩
        intro c proxy
        rw [setHandle_ops, granted.chans] at proxy
        by_cases hc : c = .proxy
        · exact hc
        · apply alone c
          simpa [trustyIpcChanInit, Function.update_of_ne hc] using proxy
      rw [if_pos trivial] at connected
      obtain ⟨⟨rc₁, w₁⟩, waited, connected⟩ := Option.bind_eq_some_iff.mp connected
      have kept : s.Serving w rc₀ w₁ ∨ (w₁.chans .proxy).handle = 0 := by
        apply waitLoop_keeps (P := fun w' => s.Serving w rc₀ w' ∨ (w'.chans .proxy).handle = 0)
          ?_ (fun done h => serving_or_lost done h) waited
          (Or.inl (serving.setComplete .proxy 0))
        intro w₂ w₃ did h
        rcases h with serving | zero
        · exact Or.inl (serving.of_did did nofun)
        · right
          rw [did.chans]
          exact zero
      simp only at connected
      split at connected
      next negative =>
        cases connected
        exact absurd negative (not_lt.mpr fine)
      next =>
        cases connected
        exact ⟨rc₀, not_lt.mp positive, kept⟩

theorem rpmbStorageProxyInit_serving (alone : ∀ c, (w.chans c).ops = .proxy → c = .proxy)
    (init : rpmbStorageProxyInit s.dev (s.ops target) fuel w = some (trustyErrNone, w')) :
    ∃ rc₀, 0 ≤ rc₀ ∧ handleOf rc₀ ≠ 0 ∧ s.Serving w rc₀ w' ∧ (w'.chans .proxy).ops = .proxy := by
  obtain ⟨⟨rc₁, w₁⟩, connected, init⟩ := Option.bind_eq_some_iff.mp init
  simp only at init
  split at init
  next negative =>
    cases init
    exact absurd negative (by decide)
  next positive =>
    obtain ⟨rc₀, granted, state⟩ := connect_serving alone connected (not_lt.mp positive)
    obtain ⟨⟨rc₂, w₂⟩, drained, init⟩ := Option.bind_eq_some_iff.mp init
    simp only at init
    split at init
    next negative =>
      cases init
      exact absurd negative (by decide)
    next fine =>
      cases init
      have state' := state.imp Serving.setOps fun zero => by simpa using zero
      obtain ⟨serving, nonzero, proxy⟩ := proxyDrain_serving drained state' (by simp)
        (not_lt.mp fine)
      rw [serving.handle] at nonzero
      exact ⟨rc₀, granted, nonzero, ⟨serving.handle, serving.alone, serving.served⟩, proxy⟩

end Polls

end Surroundings

/-- From a successful initialization to the shutdown, every handle sent to the secure OS is live
exactly when the secure OS did not disturb the channel in between. -/
theorem commandsLive_iff {s : Surroundings ε} {target : Target} {fuel : Nat} {w w₁ w₂ : World ε}
    (alone : ∀ c, (w.chans c).ops = .proxy → c = .proxy)
    (init : rpmbStorageProxyInit s.dev (s.ops target) fuel w = some (trustyErrNone, w₁))
    (polled : s.Polled target w₁ w₂) :
    CommandsLive .proxy (s.callsSince w (rpmbStorageProxyShutdown s.dev w₂)) ↔
      ∀ call ∈ s.callsSince w₁ w₂, call.Undisturbed := by
  obtain ⟨rc₀, granted, valid, serving, proxy⟩ :=
    Surroundings.rpmbStorageProxyInit_serving alone init
  obtain ⟨_, calls, log, state⟩ := polled.outcome serving proxy
  have closed : s.log (rpmbStorageProxyShutdown s.dev w₂).env =
      s.log w₂.env ++ [.close (w₂.chans .proxy).handle] := (s.close _ w₂).log
  rw [s.callsSince_eq log]
  rcases state with ⟨serving', quiet⟩ | ⟨zero, disturbed⟩
  · obtain ⟨calls', log', serves⟩ := serving'.served
    rw [log', serving'.handle, List.append_assoc] at closed
    rw [s.callsSince_eq closed]
    exact iff_of_true (commandsLive_of_serves granted valid serves) quiet
  · obtain ⟨before, log', _⟩ := serving.served
    rw [log, log', zero, List.append_assoc, List.append_assoc] at closed
    rw [s.callsSince_eq closed, ← List.append_assoc]
    exact iff_of_false (not_commandsLive_of_close_zero _) disturbed

/-- Handle 7 is granted and ready, then there is nothing to do, then a hangup. -/
def hungUp : DevScript := ⟨[7], [.ok ⟨1, 7, 4⟩, .ok ⟨0, 0, 0⟩, .ok ⟨4, 7, 4⟩], [], [], []⟩

/-- After the hangup, the shutdown disconnects the invalid handle. -/
theorem hungUp_disconnects_invalid : ∃ w₁ w₂, rpmbStorageProxyInit scriptSurroundings.dev
      (scriptSurroundings.ops .bits64) 2 (scriptWorld hungUp) = some (trustyErrNone, w₁) ∧
    scriptSurroundings.Polled .bits64 w₁ w₂ ∧
    ¬CommandsLive .proxy (scriptSurroundings.callsSince (scriptWorld hungUp)
      (rpmbStorageProxyShutdown scriptSurroundings.dev w₂)) := by
  obtain ⟨w₁, w₂, init, run, calls⟩ : ∃ w₁ w₂, rpmbStorageProxyInit scriptSurroundings.dev
        (scriptSurroundings.ops .bits64) 2 (scriptWorld hungUp) = some (trustyErrNone, w₁) ∧
      trustyIpcPollForEvent scriptSurroundings.dev (scriptSurroundings.ops .bits64) w₁ =
        some (trustyEventHandled, w₂) ∧
      scriptSurroundings.callsSince (scriptWorld hungUp)
        (rpmbStorageProxyShutdown scriptSurroundings.dev w₂) =
          [.connect 4 7, .event (.ok ⟨1, 7, 4⟩), .event (.ok ⟨0, 0, 0⟩), .event (.ok ⟨4, 7, 4⟩)] ++
            [.close 0] := ⟨_, _, rfl, rfl, rfl⟩
  refine ⟨w₁, w₂, init, .poll .here run, ?_⟩
  rw [calls]
  exact not_commandsLive_of_close_zero _

/-- Handle 7 is granted and ready, then there is nothing to do, then comes a request. -/
def oneRequest : DevScript :=
  ⟨[7], [.ok ⟨1, 7, 4⟩, .ok ⟨0, 0, 0⟩, .ok ⟨8, 7, 4⟩], [],
    [.frame ⟨List.replicate 24 0, by decide⟩], []⟩

theorem oneRequest_live : ∃ w₁ w₂, rpmbStorageProxyInit scriptSurroundings.dev
      (scriptSurroundings.ops .bits64) 2 (scriptWorld oneRequest) = some (trustyErrNone, w₁) ∧
    scriptSurroundings.Polled .bits64 w₁ w₂ ∧
    CommandsLive .proxy (scriptSurroundings.callsSince (scriptWorld oneRequest)
      (rpmbStorageProxyShutdown scriptSurroundings.dev w₂)) := by
  obtain ⟨w₁, w₂, reply, init, run, calls⟩ : ∃ w₁ w₂ reply,
      rpmbStorageProxyInit scriptSurroundings.dev (scriptSurroundings.ops .bits64) 2
        (scriptWorld oneRequest) = some (trustyErrNone, w₁) ∧
      trustyIpcPollForEvent scriptSurroundings.dev (scriptSurroundings.ops .bits64) w₁ =
        some (trustyEventHandled, w₂) ∧
      scriptSurroundings.callsSince w₁ w₂ =
        [.event (.ok ⟨8, 7, 4⟩), .recv 7 24, .send 7 0 reply] := ⟨_, _, _, rfl, rfl, rfl⟩
  have polled : scriptSurroundings.Polled .bits64 w₁ w₂ := .poll .here run
  have alone : ∀ c, ((scriptWorld oneRequest).chans c).ops = .proxy → c = .proxy := by
    intro c proxy
    cases proxy
  refine ⟨w₁, w₂, init, polled, (commandsLive_iff alone init polled).mpr ?_⟩
  rw [calls]
  have message : ¬IpcEvent.HangsUp ⟨8, 7, 4⟩ := by
    intro hangs
    exact hangs.2.1 (show (8 : UInt32) &&& 8 ≠ 0 by decide)
  simp [OsCall.Undisturbed, message, sizeofStorageMsg]

end ExternalTrusty
