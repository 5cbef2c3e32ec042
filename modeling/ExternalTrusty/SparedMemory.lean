import ExternalTrusty.Surroundings

namespace ExternalTrusty

open CMemory

variable {ε : Type}

/-- An object that the surroundings write to only when it is given to them for that. -/
structure Surroundings.Spares (s : Surroundings ε) (b : Obj) : Prop where
  close : ∀ handle w, (s.dev.close handle w).2.mem.bytes b = w.mem.bytes b
  hasEvent : ∀ handle w, (s.dev.hasEvent handle w).2.mem.bytes b = w.mem.bytes b
  getEvent : ∀ handle w, (s.dev.getEvent handle w).2.mem.bytes b = w.mem.bytes b
  send : ∀ handle iovs w, (s.dev.send handle iovs w).2.mem.bytes b = w.mem.bytes b
  recv : ∀ handle iovs w, (∀ v ∈ iovs, v.base.block ≠ b) →
    (s.dev.recv handle iovs w).2.mem.bytes b = w.mem.bytes b
  idle : ∀ w, (s.dev.idle w).mem.bytes b = w.mem.bytes b
  storageSend : ∀ rel relSize wr wrSize buf size w, buf.block ≠ b →
    (s.rpmb.storageSend rel relSize wr wrSize buf size w).2.mem.bytes b = w.mem.bytes b

theorem store_spares {m : Mem Obj} {p : Ptr Obj} {b : Obj} (h : p.block ≠ b) (n v : Nat) :
    (m.store p n v).bytes b = m.bytes b :=
  funext fun _ => Mem.write_bytes_out m (Or.inl h.symm)

theorem load_spared {m m' : Mem Obj} {p : Ptr Obj} (h : m'.bytes p.block = m.bytes p.block)
    (n : Nat) : m'.load p n = m.load p n := by
  unfold Mem.load Mem.read
  rw [h]

theorem scatter_spares {m : Mem Obj} {segs : List (Seg Obj)} {b : Obj}
    (h : ∀ v ∈ segs, v.base.block ≠ b) (bs : List UInt8) :
    (scatter m segs bs).bytes b = m.bytes b := by
  induction segs generalizing m bs with
  | nil => rfl
  | cons v vs ih =>
    obtain ⟨hv, hvs⟩ := List.forall_mem_cons.mp h
    rw [scatter, ih hvs, Mem.put]
    split
    next => rfl
    next => exact funext fun _ => Mem.write_bytes_out m (Or.inl hv.symm)

/-- The objects that the storage proxy works on. -/
def ProxyObj (b : Obj) : Prop := b = .reqMsg ∨ b = .reqBuf ∨ b = .readBuf

namespace Surroundings.Spares

variable {s : Surroundings ε} {b : Obj} {target : Target} {c : Component} {w w' : World ε}
  {rc : Int}

theorem proxySendResponse (h : s.Spares b) (hb : ¬ProxyObj b) {resp : Option (Ptr Obj)}
    {respLen : Nat}
    (run : proxySendResponse (callbackTransport s.dev) c reqMsg resp respLen w = some (rc, w')) :
    w'.mem.bytes b = w.mem.bytes b := by
  have msg : reqMsg.block ≠ b := fun same => hb (Or.inl same.symm)
  have sent := h.send (w.chans c).handle (twoIovs reqMsg 24 resp (UInt64.ofNat respLen))
    (w.setMem (w.mem.store reqMsg 4 (w.mem.load reqMsg 4 ||| storageRespBit)))
  have result := Option.some.inj run
  rw [show s.dev.send (w.chans c).handle _ _ = (rc, w') from result] at sent
  exact sent.trans (store_spares msg _ _)

theorem errResponse (h : s.Spares b) (hb : ¬ProxyObj b) {result : Nat}
    (run : errResponse (callbackTransport s.dev) c reqMsg result w = some (rc, w')) :
    w'.mem.bytes b = w.mem.bytes b := by
  have msg : (storageMsgResult reqMsg).block ≠ b := fun same => hb (Or.inl same.symm)
  exact (h.proxySendResponse hb run).trans (store_spares msg _ _)

theorem proxyExecute (h : s.Spares b) (hb : ¬ProxyObj b) {r : Ptr Obj} {rel wr : Option (Ptr Obj)}
    {relSize wrSize readSize : Nat}
    (run : proxyExecute (callbackTransport s.dev) s.rpmb c reqMsg r rel relSize wr wrSize readSize
      w = some (rc, w')) : w'.mem.bytes b = w.mem.bytes b := by
  have msg : (storageMsgResult reqMsg).block ≠ b := fun same => hb (Or.inl same.symm)
  have buf : readBuf.block ≠ b := fun same => hb (Or.inr (Or.inr same.symm))
  have stored := h.storageSend rel relSize wr wrSize readBuf readSize w buf
  unfold ExternalTrusty.proxyExecute at run
  simp only at run
  split at run
  next => exact (h.errResponse hb run).trans stored
  next =>
    exact (h.proxySendResponse hb run).trans ((store_spares msg _ _).trans stored)

theorem proxyHandleReq (h : s.Spares b) (hb : ¬ProxyObj b) {req : Ptr Obj} {reqLen : Nat}
    (run : proxyHandleReq target (callbackTransport s.dev) s.rpmb c reqMsg req reqLen w =
      some (rc, w')) : w'.mem.bytes b = w.mem.bytes b := by
  rcases proxyHandleReq_outcome run with ⟨_, refused⟩ | ⟨_, _, _, _, _, executed⟩
  · exact h.errResponse hb refused
  · exact h.proxyExecute hb executed

theorem proxyReadRequest (h : s.Spares b) (hb : ¬ProxyObj b)
    (run : proxyReadRequest (callbackTransport s.dev) c reqMsg reqBuf sizeofReqBuf w =
      some (rc, w')) : w'.mem.bytes b = w.mem.bytes b := by
  have others : ∀ v ∈ ([⟨reqMsg, 24⟩, ⟨reqBuf, UInt64.ofNat sizeofReqBuf⟩] : List Iovec),
      v.base.block ≠ b := by
    intro v mem same
    rcases List.mem_pair.mp mem with rfl | rfl
    · exact hb (Or.inl same.symm)
    · exact hb (Or.inr (Or.inl same.symm))
  have received := h.recv (w.chans c).handle _ w others
  unfold ExternalTrusty.proxyReadRequest callbackTransport at run
  simp only [Bool.false_eq_true, if_false, Option.bind_eq_bind, Option.bind_some] at run
  split at run
  next =>
    cases run
    exact received
  next =>
    split at run
    next =>
      cases run
      exact received
    next =>
      obtain ⟨_, rfl⟩ := Prod.mk.inj (Option.some.inj run)
      exact received

theorem proxyOnMessage (h : s.Spares b) (hb : ¬ProxyObj b)
    (run : proxyOnMessage target (callbackTransport s.dev) s.rpmb c w = some (rc, w')) :
    w'.mem.bytes b = w.mem.bytes b := by
  obtain ⟨⟨rc₁, w₁⟩, request, run⟩ := Option.bind_eq_some_iff.mp run
  have read := h.proxyReadRequest hb request
  simp only at run
  split at run
  next =>
    cases run
    exact (h.close (w₁.chans c).handle w₁).trans read
  next =>
    obtain ⟨⟨rc₂, w₂⟩, reply, run⟩ := Option.bind_eq_some_iff.mp run
    have handled := (h.proxyHandleReq hb reply).trans read
    simp only at run
    split at run
    next =>
      cases run
      exact (h.close (w₂.chans c).handle w₂).trans handled
    next =>
      cases run
      exact handled

theorem poll (h : s.Spares b) (hb : ¬ProxyObj b)
    (run : trustyIpcPollForEvent s.dev (s.ops target) w = some (rc, w')) :
    w'.mem.bytes b = w.mem.bytes b := by
  have got := h.getEvent 0 w
  rcases s.poll_dispatches run with error | ⟨e, w₁, event, ⟨_, _, rfl⟩ | ⟨c, _, dispatched⟩⟩
  · rw [error] at got
    exact got
  · rw [event] at got
    exact got
  · rw [event] at got
    cases hops : (w₁.chans c).ops with
    | sync =>
      rcases @dispatch_sync _ s target e _ _ hops with ⟨_, _, plain⟩ | ⟨_, _, plain⟩
      · rw [plain] at dispatched
        cases dispatched
        exact got
      · rw [plain] at dispatched
        cases dispatched
        exact got
    | proxy =>
      rcases s.dispatch_proxy hops dispatched with ⟨rfl, _⟩ | ⟨_, handled⟩ | ⟨_, _, rfl⟩
      · exact got
      · exact (h.proxyOnMessage hb handled).trans got
      · exact got

theorem waitLoop (h : s.Spares b) (hb : ¬ProxyObj b) {fuel : Nat}
    (run : waitLoop s.dev (s.ops target) c fuel w = some (rc, w')) :
    w'.mem.bytes b = w.mem.bytes b := by
  induction fuel generalizing w with
  | zero => cases run
  | succ fuel ih =>
    obtain ⟨⟨rc₁, w₁⟩, poll, run⟩ := Option.bind_eq_some_iff.mp run
    have polled := h.poll hb poll
    simp only at run
    split at run
    next =>
      cases run
      exact polled
    next =>
      split at run
      next =>
        cases run
        exact polled
      next =>
        split at run
        next =>
          have looked := (h.hasEvent 0 w₁).trans polled
          by_cases more : (s.dev.hasEvent 0 w₁).1 = true
          · rw [if_pos more] at run
            exact (ih run).trans looked
          · rw [if_neg more] at run
            exact (ih run).trans ((h.idle _).trans looked)
        next => exact (ih run).trans polled

theorem trustyIpcSend (h : s.Spares b) (hb : ¬ProxyObj b) {fuel : Nat} {iovs : List Iovec}
    {wait : Bool} (run : trustyIpcSend s.dev (s.ops target) fuel c iovs wait w = some (rc, w')) :
    w'.mem.bytes b = w.mem.bytes b := by
  induction fuel generalizing w with
  | zero => cases run
  | succ fuel ih =>
    have sent := h.send (w.chans c).handle iovs w
    unfold ExternalTrusty.trustyIpcSend at run
    simp only at run
    split at run
    next =>
      obtain ⟨⟨rc₂, w₂⟩, wait, run⟩ := Option.bind_eq_some_iff.mp run
      have waited := (h.waitLoop hb wait).trans sent
      simp only at run
      split at run
      next =>
        cases run
        exact waited
      next => exact (ih run).trans waited
    next =>
      cases run
      exact sent

end Surroundings.Spares

end ExternalTrusty
