import ExternalTrusty.Surroundings

namespace ExternalTrusty

open CMemory

variable {ε σ : Type}

/-- The channels and flags are left alone. -/
structure Discreet (w w' : World ε) : Prop where
  chans : w'.chans = w.chans
  initialized : w'.initialized = w.initialized

theorem Discreet.refl (w : World ε) : Discreet w w := ⟨rfl, rfl⟩

structure Device.Discreet (dev : Device ε) : Prop where
  connect : ∀ port cookie w, ExternalTrusty.Discreet w (dev.connect port cookie w).2
  close : ∀ handle w, ExternalTrusty.Discreet w (dev.close handle w).2
  hasEvent : ∀ handle w, ExternalTrusty.Discreet w (dev.hasEvent handle w).2
  getEvent : ∀ handle w, ExternalTrusty.Discreet w (dev.getEvent handle w).2
  send : ∀ handle iovs w, ExternalTrusty.Discreet w (dev.send handle iovs w).2
  recv : ∀ handle iovs w, ExternalTrusty.Discreet w (dev.recv handle iovs w).2
  recvInt : ∀ handle iovs w, (dev.recv handle iovs w).1 < 2 ^ 31
  idle : ∀ w, ExternalTrusty.Discreet w (dev.idle w)

def RpmbDevice.Discreet (rpmb : RpmbDevice ε) : Prop :=
  ∀ rel relSize wr wrSize buf size w,
    ExternalTrusty.Discreet w (rpmb.storageSend rel relSize wr wrSize buf size w).2

/-- The world without the record of calls, and with it again. -/
def World.plain (w : World (ε × List OsCall)) : World ε :=
  ⟨w.mem, w.chans, w.initialized, w.env.1⟩

def World.recorded (w : World ε) (calls : List OsCall) : World (ε × List OsCall) :=
  ⟨w.mem, w.chans, w.initialized, (w.env, calls)⟩

/-- Doing something on the side of the record. -/
def observing {α : Type} (f : World ε → α × World ε) (calls : α → List OsCall)
    (w : World (ε × List OsCall)) : α × World (ε × List OsCall) :=
  ((f w.plain).1, (f w.plain).2.recorded (w.env.2 ++ calls (f w.plain).1))

theorem observing_did {α : Type} {f : World ε → α × World ε} {calls : α → List OsCall}
    {w : World (ε × List OsCall)} (h : Discreet w.plain (f w.plain).2) :
    Did Prod.snd w (observing f calls w).2 (calls (observing f calls w).1) :=
  ⟨h.chans, h.initialized, rfl⟩

/-- A device under observation: it does what it did before, and its calls are recorded. -/
def observe (dev : Device ε) (hdev : dev.Discreet) (rpmb : RpmbDevice ε) (hrpmb : rpmb.Discreet) :
    Surroundings (ε × List OsCall) where
  dev := {
    connect := fun port cookie => observing (dev.connect port cookie) fun rc => [.connect cookie rc]
    close := fun handle => observing (dev.close handle) fun _ => [.close handle]
    hasEvent := fun handle => observing (dev.hasEvent handle) fun _ => []
    getEvent := fun handle => observing (dev.getEvent handle) fun evt => [.event evt]
    send := fun handle iovs w =>
      observing (dev.send handle iovs) (fun rc => [.send handle rc (gather w.mem (segs iovs))]) w
    recv := fun handle iovs => observing (dev.recv handle iovs) fun rc => [.recv handle rc]
    idle := fun w => (observing (fun w => ((), dev.idle w)) (fun _ => []) w).2 }
  rpmb := {
    storageSend := fun rel relSize wr wrSize buf size =>
      observing (rpmb.storageSend rel relSize wr wrSize buf size) fun _ => [] }
  log := Prod.snd
  connect port cookie w := observing_did (hdev.connect port cookie w.plain)
  close handle w := observing_did (hdev.close handle w.plain)
  hasEvent handle w := observing_did (hdev.hasEvent handle w.plain)
  getEvent handle w := observing_did (hdev.getEvent handle w.plain)
  send handle iovs w := observing_did (hdev.send handle iovs w.plain)
  recv handle iovs w := observing_did (hdev.recv handle iovs w.plain)
  recvInt handle iovs w := hdev.recvInt handle iovs w.plain
  idle w := show Did Prod.snd w (observing (fun w => ((), dev.idle w)) (fun _ => []) w).2 [] from
    observing_did (hdev.idle w.plain)
  storageSend rel relSize wr wrSize buf size w :=
    observing_did (hrpmb rel relSize wr wrSize buf size w.plain)

theorem toInt_lt (n : Nat) : toInt n < 2 ^ 31 := by
  unfold toInt
  split
  next small => omega
  next => omega

theorem deliver_lt (iovs : List Iovec) (m : Mem Obj) (d : Delivery) :
    (deliver iovs m d).1 < 2 ^ 31 := by
  cases d with
  | failed rc neg =>
    show rc < 2 ^ 31
    omega
  | frame f =>
    have tooBig : trustyErrMsgTooBig < 2 ^ 31 := by decide
    unfold deliver
    simp only
    split
    next => exact tooBig
    next => exact toInt_lt _

/-- One command at most was given to the secure OS, and the channels and flags are left alone. -/
structure Commanded (w w' : World (DevEnv σ)) : Prop where
  discreet : Discreet w w'
  issued : w.env.smcs <+: w'.env.smcs

theorem Commanded.refl (w : World (DevEnv σ)) : Commanded w w :=
  ⟨Discreet.refl w, List.prefix_refl _⟩

theorem Commanded.ite {α : Type} {c : Prop} [Decidable c] {w : World (DevEnv σ)}
    {x y : α × World (DevEnv σ)} (hx : Commanded w x.2) (hy : Commanded w y.2) :
    Commanded w (if c then x else y).2 := by
  split
  next => exact hx
  next => exact hy

/-! Whatever the device functions make of the answer, they have given their command before. -/

section Commands

variable (os : SecureOs σ) (dev : IpcDev) (handle : UInt32) (iovs : List Iovec)
  (w : World (DevEnv σ))

theorem trustyIpcDevConnect_commanded (port : CString) (cookie : UInt64) :
    Commanded w (trustyIpcDevConnect os dev port cookie w).2 := by
  unfold trustyIpcDevConnect
  refine .ite (.refl w) (.ite ?_ (.ite ?_ ?_)) <;> exact ⟨⟨rfl, rfl⟩, List.prefix_append _ _⟩

theorem trustyIpcDevClose_commanded : Commanded w (trustyIpcDevClose os dev handle w).2 := by
  unfold trustyIpcDevClose
  refine .ite ?_ (.ite ?_ ?_) <;> exact ⟨⟨rfl, rfl⟩, List.prefix_append _ _⟩

theorem trustyIpcDevHasEvent_commanded :
    Commanded w (trustyIpcDevHasEvent os dev handle w).2 := by
  unfold trustyIpcDevHasEvent
  refine .ite ?_ (.ite ?_ (.ite ?_ ?_)) <;> exact ⟨⟨rfl, rfl⟩, List.prefix_append _ _⟩

theorem trustyIpcDevGetEvent_commanded :
    Commanded w (trustyIpcDevGetEvent os dev handle w).2 := by
  unfold trustyIpcDevGetEvent
  refine .ite ?_ (.ite ?_ (.ite ?_ ?_)) <;> exact ⟨⟨rfl, rfl⟩, List.prefix_append _ _⟩

theorem trustyIpcDevSend_commanded : Commanded w (trustyIpcDevSend os dev handle iovs w).2 := by
  unfold trustyIpcDevSend
  refine .ite (.refl w) (.ite ?_ ?_) <;> exact ⟨⟨rfl, rfl⟩, List.prefix_append _ _⟩

theorem trustyIpcDevRecv_commanded : Commanded w (trustyIpcDevRecv os dev handle iovs w).2 := by
  unfold trustyIpcDevRecv finishRecv
  refine .ite ?_ (.ite ?_ (.ite ?_ ?_)) <;> exact ⟨⟨rfl, rfl⟩, List.prefix_append _ _⟩

end Commands

theorem checkResponse_lt (page : Mem Page) (cmd : Nat) : checkResponse page cmd < 2 ^ 31 := by
  have secos : trustyErrSecosErr < 2 ^ 31 := by decide
  have none : trustyErrNone < 2 ^ 31 := by decide
  unfold checkResponse
  split
  next => exact secos
  next =>
    split
    next => exact secos
    next => exact none

/-- The device over the shared buffer can be observed. -/
theorem trustyIpcDevice_discreet (os : SecureOs σ) (dev : IpcDev) :
    (trustyIpcDevice os dev).Discreet where
  connect port cookie w := (trustyIpcDevConnect_commanded os dev w port cookie).discreet
  close handle w := (trustyIpcDevClose_commanded os dev handle w).discreet
  hasEvent handle w := (trustyIpcDevHasEvent_commanded os dev handle w).discreet
  getEvent handle w := (trustyIpcDevGetEvent_commanded os dev handle w).discreet
  send handle iovs w := (trustyIpcDevSend_commanded os dev handle iovs w).discreet
  recv handle iovs w := (trustyIpcDevRecv_commanded os dev handle iovs w).discreet
  recvInt handle iovs w := by
    show (finishRecv iovs (execRecv os dev handle w)).1 < 2 ^ 31
    have secos : trustyErrSecosErr < 2 ^ 31 := by decide
    have tooBig : trustyErrMsgTooBig < 2 ^ 31 := by decide
    unfold finishRecv
    simp only
    split
    next => exact secos
    next =>
      split
      next => exact checkResponse_lt _ _
      next =>
        split
        next => exact tooBig
        next => exact toInt_lt _
  idle w := Discreet.refl w

/-- What the device functions are to come to, in turn, and the calls made so far. With nothing left
to come, there is no event, sends succeed, and the rest fails. -/
structure DevScript where
  connects : List Int
  events : List (Except Int IpcEvent)
  sends : List Int
  recvs : List Delivery
  calls : List OsCall

def DevScript.did (d : DevScript) (call : OsCall) : DevScript :=
  { d with calls := d.calls ++ [call] }

def World.withScript (w : World DevScript) (d : DevScript) : World DevScript := { w with env := d }

theorem withScript_did (w : World DevScript) {d : DevScript} {calls : List OsCall}
    (h : d.calls = w.env.calls ++ calls) : Did DevScript.calls w (w.withScript d) calls :=
  ⟨rfl, rfl, h⟩

/-- A world in which these things are to come. -/
def scriptWorld (d : DevScript) : World DevScript where
  mem := ⟨fun _ _ => 0, []⟩
  chans := fun _ => ⟨0, 0, .sync⟩
  initialized := fun _ => false
  env := d

def scriptDevice : Device DevScript where
  connect _ cookie w :=
    let rc := w.env.connects.headD trustyErrSecosErr
    (rc, w.withScript ({ w.env with connects := w.env.connects.tail }.did (.connect cookie rc)))
  close handle w := (trustyErrNone, w.withScript (w.env.did (.close handle)))
  hasEvent _ w := (true, w)
  getEvent _ w :=
    let evt := w.env.events.headD (.ok ⟨0, 0, 0⟩)
    (evt, w.withScript ({ w.env with events := w.env.events.tail }.did (.event evt)))
  send handle iovs w :=
    let rc := w.env.sends.headD trustyErrNone
    let msg := gather w.mem (segs iovs)
    (rc, w.withScript ({ w.env with sends := w.env.sends.tail }.did (.send handle rc msg)))
  recv handle iovs w :=
    let r := deliver iovs w.mem (w.env.recvs.headD .closed)
    (r.1, (w.setMem r.2).withScript
      ({ w.env with recvs := w.env.recvs.tail }.did (.recv handle r.1)))
  idle w := w

def scriptSurroundings : Surroundings DevScript where
  dev := scriptDevice
  rpmb := ⟨fun _ _ _ _ _ _ w => (trustyErrGeneric, w)⟩
  log := DevScript.calls
  connect _ _ w := withScript_did w rfl
  close _ w := withScript_did w rfl
  hasEvent _ w := Did.refl w
  getEvent _ w := withScript_did w rfl
  send _ _ w := withScript_did w rfl
  recv _ _ _ := ⟨rfl, rfl, rfl⟩
  recvInt _ _ _ := deliver_lt _ _ _
  idle w := Did.refl w
  storageSend _ _ _ _ _ _ w := Did.refl w

end ExternalTrusty
