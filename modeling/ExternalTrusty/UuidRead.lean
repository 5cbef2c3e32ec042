import ExternalTrusty.KeymasterCalls
import ExternalTrusty.ResponseCut

namespace ExternalTrusty

open CMemory

variable {ε : Type}

theorem scatter_log (m : Mem Obj) (segs : List (Seg Obj)) (bs : List UInt8) :
    m.log <:+ (scatter m segs bs).log := by
  obtain ⟨new, hlog, _⟩ := scatter_footprint m segs bs
  exact ⟨new, hlog.symm⟩

theorem store_log (m : Mem Obj) (p : Ptr Obj) (n v : Nat) : m.log <:+ (m.store p n v).log :=
  ⟨[_], rfl⟩

/-- A call that returns has made its accesses on top of the earlier ones. -/
def Extends (m : Mem Obj) (r : Option (Int × World ε)) : Prop :=
  ∀ rc w', r = some (rc, w') → m.log <:+ w'.mem.log

namespace Extends

variable {m : Mem Obj}

theorem ret {w : World ε} (h : m.log <:+ w.mem.log) (rc : Int) : Extends m (some (rc, w)) := by
  intro rc' w' hrun
  obtain ⟨_, rfl⟩ := Prod.mk.inj (Option.some.inj hrun)
  exact h

theorem none : Extends m (Option.none : Option (Int × World ε)) := by
  intro rc w' hrun
  cases hrun

theorem weaken {m₀ : Mem Obj} {r : Option (Int × World ε)} (h : Extends m r)
    (hm : m₀.log <:+ m.log) : Extends m₀ r :=
  fun rc w' hrun => hm.trans (h rc w' hrun)

theorem bind {r : Option (Int × World ε)} {f : Int × World ε → Option (Int × World ε)}
    (h : Extends m r) (hf : ∀ rc w', Extends w'.mem (f (rc, w'))) : Extends m (r.bind f) := by
  intro rc w' hrun
  obtain ⟨⟨rc₁, w₁⟩, hr, hrun⟩ := Option.bind_eq_some_iff.mp hrun
  exact (h rc₁ w₁ hr).trans (hf rc₁ w₁ rc w' hrun)

end Extends

theorem scriptSend_extends (c : Component) (iovs : List Iovec) (wait : Bool) (w : World Script) :
    Extends w.mem (scriptTransport.send c iovs wait w) :=
  Extends.ret (List.suffix_refl _) _

theorem scriptRecv_extends (c : Component) (iovs : List Iovec) (wait : Bool) (w : World Script) :
    Extends w.mem (scriptTransport.recv c iovs wait w) := by
  apply Extends.ret
  show w.mem.log <:+ (deliver iovs w.mem _).2.log
  cases w.env.recvs.headD .closed with
  | failed rc neg => exact List.suffix_refl _
  | frame f => exact scatter_log _ _ _

theorem kmReadRawLoop_extends {cmd maxRespLen fuel respLen : Nat} {resp : Ptr Obj}
    {w : World Script} :
    Extends w.mem (kmReadRawLoop scriptTransport cmd resp maxRespLen fuel respLen w) := by
  induction fuel generalizing respLen w with
  | zero => exact Extends.none
  | succ fuel ih =>
    rw [kmReadRawLoop]
    apply (scriptRecv_extends _ _ _ w).bind
    intro rc w₁
    simp only
    split
    next => exact Extends.ret (List.suffix_refl _) _
    next =>
      split
      next => exact Extends.ret (List.suffix_refl _) _
      next => exact ih

theorem kmReadRawResponse_extends {cmd fuel respLen : Nat} {resp : Option (Ptr Obj)}
    {w : World Script} :
    Extends w.mem (kmReadRawResponse scriptTransport fuel cmd resp respLen w) := by
  have hstart := store_log w.mem kmRawHeader 4 cmd
  cases resp with
  | none => exact Extends.ret hstart _
  | some p => exact kmReadRawLoop_extends.weaken (m := (w.mem.store kmRawHeader 4 cmd)) hstart

theorem kmReadDataResponse_extends {cmd fuel : Nat} {error respData respDataLen : Ptr Obj}
    {w : World Script} :
    Extends w.mem (kmReadDataResponse scriptTransport fuel cmd error respData respDataLen w) := by
  unfold kmReadDataResponse
  have hrecv := scriptRecv_extends .km
    (dataIovs error respData respDataLen ((w.mem.store kmDataHeader 4 cmd).load respDataLen 4)) true
    (w.setMem (w.mem.store kmDataHeader 4 cmd))
  apply (hrecv.weaken (store_log w.mem kmDataHeader 4 cmd)).bind
  intro rc w₁
  simp only
  split
  next => exact Extends.ret (List.suffix_refl _) _
  next =>
    split
    next => exact Extends.ret (List.suffix_refl _) _
    next =>
      apply kmReadRawResponse_extends.bind
      intro rc w₂
      simp only
      split
      next => exact Extends.ret (List.suffix_refl _) _
      next =>
        split
        next => exact Extends.ret (List.suffix_refl _) _
        next => exact Extends.ret (List.suffix_refl _) _

theorem kmDoTipc_extends {cmd fuel : Nat} {req respData respDataLen : Option (Ptr Obj)}
    {reqLen : UInt32} {w : World Script} :
    Extends w.mem (kmDoTipc scriptTransport fuel cmd req reqLen respData respDataLen w) := by
  unfold kmDoTipc
  have hsend := scriptSend_extends .km (twoIovs kmSendHeader 4 req reqLen.toUInt64) true
    (w.setMem (w.mem.store kmSendHeader 4 cmd))
  apply (hsend.weaken (store_log w.mem kmSendHeader 4 cmd)).bind
  intro rc w₁
  have hfinish : ∀ rc (w : World Script), Extends w.mem
      (if rc < 0 then some (rc, w) else if w.mem.load kmRespHeader 4 ≠ kmErrorOk
        then some (trustyErrGeneric, w) else some (trustyErrNone, w)) := by
    intro rc w
    split
    next => exact Extends.ret (List.suffix_refl _) _
    next =>
      split
      next => exact Extends.ret (List.suffix_refl _) _
      next => exact Extends.ret (List.suffix_refl _) _
  simp only
  split
  next => exact Extends.ret (List.suffix_refl _) _
  next =>
    cases respData with
    | none => exact kmReadRawResponse_extends.bind hfinish
    | some data =>
      cases respDataLen with
      | none => exact Extends.none
      | some len => exact kmReadDataResponse_extends.bind hfinish

/-- The locals of the functions that a UUID is read through. -/
def uuidLocals : List Obj :=
  [.kmSendHeader, .kmRawHeader, .kmDataHeader, .kmRespHeader, .kmRespSize]

/-- The bytes that reading a UUID is about: its allocation, and the caller's one pointer. -/
def UuidOwn (heap : Nat → Option Nat) (uuidP : Ptr Obj) (b : Obj) (i : Nat) : Prop :=
  (∃ n, heap (kUuidSize + 1) = some n ∧ b = .heap n ∧ i < kUuidSize + 1) ∨
    (b = uuidP.block ∧ uuidP.off ≤ i ∧ i < uuidP.off + 8) ∨ b ∈ uuidLocals

/-- The data of a response that came in these frames. -/
def responseData : List Delivery → List UInt8
  | [] => []
  | d :: ds => d.payload 12 ++ ds.flatMap (Delivery.payload 4)

/-- The call returns, having kept to its own memory, and when it succeeds it leaves 32 bytes of the
response and a terminator behind the caller's pointer. -/
def ReadsUuid (a : Addresses) (heap : Nat → Option Nat) (uuidP : Ptr Obj) (w : World Script) :
    Prop :=
  ∃ fuel rc w', trustyAtapReadUuidStr scriptTransport a heap fuel uuidP w = some (rc, w') ∧
    (∀ k b i, Covers k (w'.mem.since w.mem) b i → UuidOwn heap uuidP b i) ∧
    (rc = trustyErrNone → ∃ p data, a.load w'.mem uuidP = some p ∧
      data = responseData (w.env.recvs.take (w.env.recvs.length - w'.env.recvs.length)) ∧
      data.length = kUuidSize ∧ w'.mem.read p (kUuidSize + 1) = data ++ [0])

theorem allocUuid_log (a : Addresses) (heap : Nat → Option Nat) (uuidP : Ptr Obj) (m : Mem Obj) :
    m.log <:+ (allocUuid a heap uuidP m).log := by
  unfold allocUuid trustyCalloc
  cases heap (kUuidSize + 1) with
  | none => exact store_log m uuidP 8 _
  | some n => exact store_log _ uuidP 8 _

/-- Every run that returns has loaded the pointer 32 places past the caller's, first of all that
follows the allocation. -/
theorem trustyAtapReadUuidStr_loads {a : Addresses} {heap : Nat → Option Nat} {fuel : Nat}
    {uuidP : Ptr Obj} {w w' : World Script} {rc : Int}
    (hrun : trustyAtapReadUuidStr scriptTransport a heap fuel uuidP w = some (rc, w')) :
    ((allocUuid a heap uuidP w.mem).touch (uuidP.add 256) 8).log <:+ w'.mem.log := by
  unfold trustyAtapReadUuidStr at hrun
  obtain ⟨q, _, hrun⟩ := Option.bind_eq_some_iff.mp hrun
  let m := (((allocUuid a heap uuidP w.mem).touch (uuidP.add 256) 8).write q [0]).store
    kmResponseSize 4 kUuidSize
  have hstored : ((allocUuid a heap uuidP w.mem).touch (uuidP.add 256) 8).log <:+ m.log :=
    ⟨[_, _], rfl⟩
  have hcall := @kmDoTipc_extends kmAtapReadUuid fuel none (a.load m uuidP) (some kmResponseSize) 0
    (w.setMem m)
  refine ((hcall.weaken hstored).bind ?_) rc w' hrun
  intro rc₁ w₁
  simp only
  split
  next => exact Extends.ret (List.suffix_refl _) _
  next =>
    split
    next => exact Extends.ret (List.suffix_refl _) _
    next => exact Extends.ret (List.suffix_refl _) _

/-- The load is of memory that the call has no business with. -/
theorem trustyAtapReadUuidStr_outside {a : Addresses} {heap : Nat → Option Nat} {fuel c off : Nat}
    {w w' : World Script} {rc : Int}
    (hrun : trustyAtapReadUuidStr scriptTransport a heap fuel ⟨.caller c, off⟩ w =
      some (rc, w')) :
    Covers .load (w'.mem.since w.mem) (.caller c) (off + 256) ∧
      ¬UuidOwn heap ⟨.caller c, off⟩ (.caller c) (off + 256) := by
  obtain ⟨later, hlater⟩ := trustyAtapReadUuidStr_loads hrun
  obtain ⟨first, hfirst⟩ := allocUuid_log a heap ⟨.caller c, off⟩ w.mem
  have hlog : w'.mem.log = (later ++ ⟨.load, .caller c, off + 256, 8⟩ :: first) ++ w.mem.log := by
    rw [← hlater, List.append_assoc]
    congr 1
    exact congrArg (List.cons _) hfirst.symm
  constructor
  · rw [Mem.since_eq hlog, covers_append, covers_cons]
    exact Or.inr (Or.inl ⟨rfl, rfl, Nat.le_refl _, Nat.lt_add_of_pos_right (Nat.succ_pos 7)⟩)
  · rintro (⟨n, _, hb, _⟩ | ⟨_, _, hi⟩ | hmem)
    · cases hb
    · have hi : off + 256 < off + 8 := hi
      omega
    · simp [uuidLocals] at hmem

/-- No call reads a UUID within its own memory, whatever the response: each that returns has
loaded a pointer from beyond the caller's, and each that finds no object there faults. -/
theorem trustyAtapReadUuidStr_strays (a : Addresses) (heap : Nat → Option Nat) (c off : Nat)
    (w : World Script) : ¬ReadsUuid a heap ⟨.caller c, off⟩ w := by
  rintro ⟨fuel, rc, w', hrun, hown, _⟩
  obtain ⟨hcovers, hout⟩ := trustyAtapReadUuidStr_outside hrun
  exact hout (hown .load (.caller c) (off + 256) hcovers)

/-- The first heap object is at 0x1000, and the caller's second buffer at 0x2000. -/
def twoAddresses : Addresses where
  address p := if p = some ⟨.heap 0, 0⟩ then 0x1000 else 0
  object v :=
    if v = 0x1000 then some ⟨.heap 0, 0⟩ else if v = 0x2000 then some ⟨.caller 1, 0⟩ else none

/-- A full response: 32 bytes, in one frame. -/
def uuidFrame : Frame where
  bytes := [3, 0, 2, 0, 0, 0, 0, 0, 32, 0, 0, 0] ++ List.replicate 32 65
  bound := by decide

/-- The caller's cells are zero, but for the one that holds the address of the second buffer, whose
bytes are all 9. -/
def besideBuffer : World Script where
  mem := ⟨fun b i => if b = .caller 1 then 9 else if b = .caller 0 ∧ i = 257 then 0x20 else 0, []⟩
  chans := fun _ => ⟨1, 0, .sync⟩
  initialized := fun _ => true
  env := ⟨[], [], [.frame uuidFrame], [], []⟩

/-- A UUID that comes as it should is not read within the call's memory: the terminator lands in a
buffer that the call was never given. -/
theorem besideBuffer_overwritten :
    ¬ReadsUuid twoAddresses (fun _ => some 0) ⟨.caller 0, 0⟩ besideBuffer ∧
      (trustyAtapReadUuidStr scriptTransport twoAddresses (fun _ => some 0) 1 ⟨.caller 0, 0⟩
          besideBuffer).map (fun r => (r.1, besideBuffer.mem.bytes (.caller 1) 0,
            r.2.mem.bytes (.caller 1) 0)) = some (trustyErrNone, 9, 0) := by
  constructor
  · rintro ⟨fuel, rc, w', hrun, hown, _⟩
    obtain ⟨hcovers, hout⟩ := trustyAtapReadUuidStr_outside hrun
    exact hout (hown .load (.caller 0) 256 hcovers)
  · decide

end ExternalTrusty
