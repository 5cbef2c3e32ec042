import ExternalTrusty.Correlation
import Mathlib.Data.List.Induction

namespace ExternalTrusty

open CMemory

variable {ε : Type}

/-- The request that a call delivers on a handle. -/
def OsCall.request (h : UInt32) : OsCall → Option (List UInt8)
  | .send k rc msg => if k = h ∧ 0 ≤ rc then some msg else none
  | _ => none

/-- The requests that were delivered on a handle, in order. -/
def requests (h : UInt32) (log : List OsCall) : List (List UInt8) :=
  log.filterMap (OsCall.request h)

theorem requests_append (h : UInt32) (log calls : List OsCall) :
    requests h (log ++ calls) = requests h log ++ requests h calls :=
  List.filterMap_append ..

theorem requests_send (h k : UInt32) (rc : Int) (msg : List UInt8) :
    requests h [.send k rc msg] = if k = h ∧ 0 ≤ rc then [msg] else [] := by
  by_cases taken : k = h ∧ 0 ≤ rc
  · simp [requests, OsCall.request, taken]
  · simp [requests, OsCall.request, taken]

theorem requests_off {h : UInt32} {calls : List OsCall} (off : ∀ x ∈ calls, ¬x.On h) :
    requests h calls = [] := by
  refine List.filterMap_eq_nil_iff.mpr ?_
  intro x mem
  cases x with
  | send k rc msg => exact if_neg fun taken => off _ mem taken.1
  | _ => rfl

/-- A mailbox counts the requests. -/
theorem mailbox_asked (answer : List OsCall → List Frame) (h : UInt32) (log : List OsCall) :
    (mailbox answer h log).asked = (requests h log).length := by
  induction log using List.reverseRecOn with
  | nil => rfl
  | append_singleton log x ih =>
    rw [mailbox_concat, requests_append, List.length_append]
    cases x with
    | send k rc msg =>
      rw [Mailbox.record, requests_send]
      split
      next => exact congrArg (· + 1) ih
      next => exact ih
    | recv k rc =>
      rw [Mailbox.record]
      split
      next => exact ih
      next => exact ih
    | _ => exact ih

section Channels

variable {s : Surroundings ε} {sv : Service s} {on : Component → Prop}
  {handles : Component → UInt32} {spared : Component → Prop} {target : Target} {c d : Component}
  {w w' : World ε} {rc : Int} {calls : List OsCall}

theorem Meanwhile.requests (h : Meanwhile s on handles spared w w' calls) (hd : on d)
    (apart : spared d) : requests (handles d) (s.log w'.env) = requests (handles d) (s.log w.env) := by
  rw [h.log, requests_append, requests_off (h.off d hd apart), List.append_nil]

theorem Reading.requests {new : List (Nat × Frame)}
    (h : Reading sv on handles c w w' calls new) :
    requests (handles c) (s.log w'.env) = requests (handles c) (s.log w.env) := by
  have count := h.took.asked
  simp only [Service.box, mailbox_asked, h.meanwhile.log, requests_append,
    List.length_append] at count
  have none : ExternalTrusty.requests (handles c) calls = [] := by
    apply List.eq_nil_of_length_eq_zero
    omega
  rw [h.meanwhile.log, requests_append, none, List.append_nil]

/-- One request was delivered between these worlds, and it was answered. -/
structure Service.Delivered (sv : Service s) (h : UInt32) (w w' : World ε) (msg : List UInt8) :
    Prop where
  requests : requests h (s.log w'.env) = requests h (s.log w.env) ++ [msg]
  box : ∃ log rc, 0 ≤ rc ∧ ExternalTrusty.requests h log = ExternalTrusty.requests h (s.log w.env) ∧
    sv.box h w' = (sv.box h w).ask (sv.answer (log ++ [.send h rc msg]))

/-- Neither the device nor the storage proxy writes to these buffers on its own. -/
def Surroundings.Still (s : Surroundings ε) (iovs : List Iovec) : Prop :=
  ∀ v ∈ iovs, s.Spares v.base.block ∧ ¬ProxyObj v.base.block

theorem gather_still {iovs : List Iovec}
    (same : ∀ v ∈ iovs, w'.mem.bytes v.base.block = w.mem.bytes v.base.block) :
    gather w'.mem (segs iovs) = gather w.mem (segs iovs) := by
  refine gather_eq_of_reads ?_
  intro v mem
  obtain ⟨u, hu, rfl⟩ := List.mem_map.mp mem
  unfold Mem.read
  rw [Iovec.seg_base, same u hu]

/-- However long a send is blocked, its request is delivered once, if at all, and as it was when the
send began. -/
theorem trustyIpcSend_delivers (sv : Service s) {fuel : Nat} {iovs : List Iovec} (hc : on c)
    (h : Connected on handles w) (still : s.Still iovs)
    (run : trustyIpcSend s.dev (s.ops target) fuel c iovs true w = some (rc, w')) :
    ∃ calls, Meanwhile s on handles (fun d => d ≠ c) w w' calls ∧
      (rc < 0 ∧ requests (handles c) (s.log w'.env) = requests (handles c) (s.log w.env) ∧
          sv.box (handles c) w' = sv.box (handles c) w ∨
        0 ≤ rc ∧ sv.Delivered (handles c) w w' (gather w.mem (segs iovs))) := by
  induction fuel generalizing w with
  | zero => cases run
  | succ fuel ih =>
    have handle := h.handle c hc
    have did := s.send (w.chans c).handle iovs w
    rw [handle] at did
    have kept : ∀ v ∈ iovs, (s.dev.send (handles c) iovs w).2.mem.bytes v.base.block =
        w.mem.bytes v.base.block := fun v mem => (still v mem).1.send _ iovs w
    have off : ∀ rc msg d, on d → d ≠ c → ∀ x ∈ [OsCall.send (handles c) rc msg],
        ¬x.On (handles d) := by
      intro rc msg d hd apart
      refine List.forall_mem_singleton.mpr fun same => ?_
      exact h.apart d c hd apart.symm (handle.trans same)
    unfold trustyIpcSend at run
    rw [handle] at run
    cases sent : s.dev.send (handles c) iovs w with
    | mk r w₁ =>
      simp only [sent] at did kept run
      have while₁ := Meanwhile.of_did h did (off _ _)
      have box : sv.box (handles c) w₁ = (sv.box (handles c) w).record sv.answer (handles c)
          (s.log w.env) (.send (handles c) r (gather w.mem (segs iovs))) := by
        unfold Service.box
        rw [did.log, mailbox_concat]
      have refused : r < 0 → requests (handles c) (s.log w₁.env) =
            requests (handles c) (s.log w.env) ∧ sv.box (handles c) w₁ = sv.box (handles c) w := by
        intro negative
        have no : ¬(handles c = handles c ∧ 0 ≤ r) := fun taken => absurd negative (not_lt.mpr taken.2)
        refine ⟨?_, box.trans (if_neg no)⟩
        rw [did.log, requests_append, requests_send, if_neg no, List.append_nil]
      split at run
      next blocked =>
        have negative : r < 0 := by
          rw [blocked.1]
          decide
        obtain ⟨same, box₁⟩ := refused negative
        obtain ⟨⟨rc₂, w₂⟩, waited, run⟩ := Option.bind_eq_some_iff.mp run
        obtain ⟨calls₂, while₂, _⟩ := waitForComplete_meanwhile hc while₁.connected waited
        have same₂ := (while₂.requests hc trivial).trans same
        have box₂ := (while₂.box sv hc trivial).trans box₁
        have both := while₁.trans (while₂.mono fun _ _ => trivial)
        simp only at run
        split at run
        next failed =>
          cases run
          exact ⟨_, both, Or.inl ⟨failed, same₂, box₂⟩⟩
        next =>
          obtain ⟨calls, while₃, outcome⟩ := ih while₂.connected run
          have message : gather w₂.mem (segs iovs) = gather w.mem (segs iovs) := by
            refine gather_still fun v mem => ?_
            obtain ⟨spares, plain⟩ := still v mem
            exact (spares.waitLoop plain waited).trans (kept v mem)
          rw [same₂, box₂, message] at outcome
          refine ⟨_, both.trans while₃, outcome.imp_right ?_⟩
          rintro ⟨positive, delivered⟩
          refine ⟨positive, by rw [delivered.requests, same₂], ?_⟩
          obtain ⟨log, rc', taken, before, after⟩ := delivered.box
          rw [same₂] at before
          rw [box₂] at after
          exact ⟨log, rc', taken, before, after⟩
      next =>
        obtain ⟨rfl, rfl⟩ := Prod.mk.inj (Option.some.inj run)
        refine ⟨_, while₁, ?_⟩
        by_cases negative : r < 0
        · exact Or.inl ⟨negative, refused negative⟩
        · have taken : handles c = handles c ∧ 0 ≤ r := ⟨rfl, not_lt.mp negative⟩
          refine Or.inr ⟨taken.2, ?_, _, r, taken.2, rfl, box.trans (if_pos taken)⟩
          rw [did.log, requests_append, requests_send, if_pos taken]

/-- A call on one channel delivers nothing on the others. -/
theorem Idle.run_meanwhile {call : ClientCall} {wait fuel : Nat} (h : Idle sv on handles w)
    (hc : on call.chan)
    (run : call.run (ipcTransport s.dev (s.ops target) wait) fuel w = some (rc, w')) :
    ∃ calls, Meanwhile s on handles (fun d => d ≠ call.chan) w w' calls := by
  rw [call.run_eq] at run
  obtain ⟨⟨rc₁, w₁⟩, asked, run⟩ := Option.bind_eq_some_iff.mp run
  obtain ⟨calls₁, while₁, _⟩ := ask_meanwhile sv hc h.connected asked
  simp only at run
  split at run
  next =>
    cases run
    exact ⟨calls₁, while₁⟩
  next =>
    obtain ⟨calls₂, _, reading, _, _⟩ := read_reading hc (h.clients _ hc) while₁.connected run
    exact ⟨_, while₁.trans reading.meanwhile⟩

end Channels

end ExternalTrusty
