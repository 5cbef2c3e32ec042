import ExternalTrusty.Lockstep
import ExternalTrusty.CaResponse

namespace ExternalTrusty

open CMemory

/-- The calls that issue a request, with their arguments. -/
inductive ClientRequest
  | readRollbackIndex (slot : UInt32) (value : Ptr Obj)
  | writeRollbackIndex (slot : UInt32) (value : UInt64)
  | readPermanentAttributes (attributes : Ptr Obj) (size : UInt32)
  | writePermanentAttributes (attributes : Option (Ptr Obj)) (size : UInt32)
  | readLockState (lockState : Ptr Obj)
  | writeLockState (lockState : UInt8)
  | lockBootState
  | setBootParams (osVersion osPatchlevel verifiedBootState : UInt32) (deviceLocked : Bool)
    (keyHash : Option (Ptr Obj)) (keyHashSize : UInt32) (hash : Option (Ptr Obj))
    (hashSize : UInt32)
  | setAttestationKey (key : Option (Ptr Obj)) (keySize algorithm : UInt32)
  | appendAttestationCertChain (cert : Option (Ptr Obj)) (certSize algorithm : UInt32)
  | atapGetCaRequest (operationStart : Option (Ptr Obj)) (operationStartSize : UInt32)
    (caRequestP caRequestSizeP : Ptr Obj)
  | atapSetCaResponse (caResponse : Ptr Obj) (size : UInt32)
  | atapReadUuidStr (caller off : Nat)
  | getDiceArtifacts (context : UInt64) (artifacts : Ptr Obj) (bufSize : UInt64) (size : Ptr Obj)
  | nsDeprivilege

namespace ClientRequest

def run (a : Addresses) (heap : Nat → Nat → Option Nat) (fuel : Nat) :
    ClientRequest → World Script → Option (Int × World Script)
  | readRollbackIndex slot value => trustyReadRollbackIndex scriptTransport slot value
  | writeRollbackIndex slot value => trustyWriteRollbackIndex scriptTransport slot value
  | readPermanentAttributes attributes size =>
    trustyReadPermanentAttributes scriptTransport attributes size
  | writePermanentAttributes attributes size =>
    trustyWritePermanentAttributes scriptTransport attributes size
  | readLockState lockState => trustyReadLockState scriptTransport lockState
  | writeLockState lockState => trustyWriteLockState scriptTransport lockState
  | lockBootState => trustyLockBootState scriptTransport
  | setBootParams osVersion osPatchlevel verifiedBootState deviceLocked keyHash keyHashSize hash
      hashSize =>
    trustySetBootParams scriptTransport (heap 0) fuel osVersion osPatchlevel verifiedBootState
      deviceLocked keyHash keyHashSize hash hashSize
  | setAttestationKey key keySize algorithm =>
    trustySetAttestationKey scriptTransport (heap 0) fuel key keySize algorithm
  | appendAttestationCertChain cert certSize algorithm =>
    trustyAppendAttestationCertChain scriptTransport (heap 0) fuel cert certSize algorithm
  | atapGetCaRequest operationStart operationStartSize caRequestP caRequestSizeP =>
    trustyAtapGetCaRequest scriptTransport a heap fuel operationStart operationStartSize caRequestP
      caRequestSizeP
  | atapSetCaResponse caResponse size =>
    trustyAtapSetCaResponse scriptTransport heap fuel caResponse size
  | atapReadUuidStr caller off =>
    trustyAtapReadUuidStr scriptTransport a (heap 0) fuel ⟨.caller caller, off⟩
  | getDiceArtifacts context artifacts bufSize size =>
    hwbccGetDiceArtifacts scriptTransport context artifacts bufSize size
  | nsDeprivilege => hwbccNsDeprivilege scriptTransport

/-- The cells of the data that the arguments point to. -/
def given : ClientRequest → Set (Obj × Nat)
  | writePermanentAttributes attributes size => dataCells attributes size
  | setBootParams _ _ _ _ keyHash keyHashSize hash hashSize =>
    dataCells keyHash keyHashSize ∪ dataCells hash hashSize
  | setAttestationKey key keySize _ => dataCells key keySize
  | appendAttestationCertChain cert certSize _ => dataCells cert certSize
  | atapGetCaRequest operationStart operationStartSize _ _ =>
    dataCells operationStart operationStartSize
  | atapSetCaResponse caResponse size => dataCells (some caResponse) size
  | _ => ∅

/-- What the first message depends on besides the arguments: the test mode that is not set, and
whether what is found 32 pointers past the caller's cell leads to an object. -/
def Settled (a : Addresses) (m m' : Mem Obj) : ClientRequest → Prop
  | getDiceArtifacts .. => m.read ⟨.hwbccReq, 4⟩ 4 = m'.read ⟨.hwbccReq, 4⟩ 4
  | atapReadUuidStr caller off =>
    (a.load m ⟨.caller caller, off + 256⟩).isSome = (a.load m' ⟨.caller caller, off + 256⟩).isSome
  | _ => True

end ClientRequest

/-- The first message that a call passes to `trusty_ipc_send`. -/
def firstMessage (e : Script) (r : Option (Int × World Script)) : Option Message :=
  r.bind fun x => ((x.2.env.trace.drop e.trace.length).filterMap Effect.message?).head?

theorem Sends.firstMessage {e : Script} {r : Option (Int × World Script)} {msgs : List Message}
    (h : Sends e r msgs) : firstMessage e r = msgs.head? := by
  obtain ⟨rc, w', rfl, sent⟩ := h
  exact congrArg List.head? sent.messages

theorem sendSerialized_sends {fuel cmd : Nat} {respData respDataSize : Option (Ptr Obj)}
    {s : Serialized} {w : World Script} (enough : w.env.recvs.length < fuel)
    (room : respData.isSome → respDataSize.isSome) :
    Sends w.env (sendSerialized scriptTransport fuel cmd respData respDataSize s w)
      (if s.rc < 0 then [] else [kmMessage s.mem cmd s.out (UInt32.ofNat s.outSize)]) := by
  unfold sendSerialized
  split
  next => exact Sends.ret (w.setMem s.mem) s.rc
  next => exact kmDoTipc_sends (w := w.setMem s.mem) enough room

/-- The buffers of a message lie where two memories agree. -/
theorem segs_twoIovs_inside {S : Set (Obj × Nat)} {base : Ptr Obj} {len : UInt64}
    {next : Option (Ptr Obj)} {nextLen : UInt32} (header : base.span len.toNat ⊆ S)
    (data : dataCells next nextLen ⊆ S) :
    ∀ v ∈ segs (twoIovs base len next nextLen.toUInt64), v.base.span v.len ⊆ S := by
  have wide : nextLen.toUInt64.toNat = nextLen.toNat := UInt32.toNat_toUInt64 nextLen
  cases next with
  | none =>
    intro v mem
    rw [List.mem_singleton.mp mem]
    exact header
  | some p =>
    intro v mem
    rcases List.mem_pair.mp mem with rfl | rfl
    · exact header
    · show p.span nextLen.toUInt64.toNat ⊆ S
      rw [wide]
      exact (span_dataCells rfl nextLen).trans data

theorem kmMessage_same {m m' : Mem Obj} {cmd : Nat} {req : Option (Ptr Obj)} {reqLen : UInt32}
    (same : Set.EqOn m.cells m'.cells (dataCells req reqLen)) :
    kmMessage m cmd req reqLen = kmMessage m' cmd req reqLen :=
  congrArg (Prod.mk Component.km) (gather_eq_of_eqOn (eqOn_store same kmSendHeader 4 cmd)
    (segs_twoIovs_inside Set.subset_union_right Set.subset_union_left))

theorem avbMessage_same {m m' : Mem Obj} {cmd : Nat} {req : Option (Ptr Obj)} {reqSize : UInt32}
    (same : Set.EqOn m.cells m'.cells (dataCells req reqSize)) :
    avbMessage m cmd req reqSize = avbMessage m' cmd req reqSize := by
  have header : avbMsg.span 8 = avbMsg.span 4 ∪ avbMsgResult.span 4 := Ptr.span_add avbMsg 4 4
  refine congrArg (Prod.mk Component.avb) (gather_eq_of_eqOn
    (eqOn_store (eqOn_store same avbMsg 4 cmd) avbMsgResult 4 0) (segs_twoIovs_inside ?_ ?_))
  · show avbMsg.span 8 ⊆ _
    rw [header, Set.union_assoc]
    exact Set.subset_union_right
  · exact Set.subset_union_left.trans Set.subset_union_left

/-- Two runs that send the same. -/
def SendsSame (e : Script) (r r' : Option (Int × World Script)) : Prop :=
  ∃ msgs, Sends e r msgs ∧ Sends e r' msgs

namespace SendsSame

variable {e : Script} {r r' : Option (Int × World Script)}

theorem firstMessage (h : SendsSame e r r') :
    ExternalTrusty.firstMessage e r = ExternalTrusty.firstMessage e r' := by
  obtain ⟨msgs, first, second⟩ := h
  rw [first.firstMessage, second.firstMessage]

theorem andThen {f : Int × World Script → Option (Int × World Script)} (h : SendsSame e r r')
    (quiet : ∀ rc w, Sends w.env (f (rc, w)) []) : SendsSame e (r.bind f) (r'.bind f) := by
  obtain ⟨msgs, first, second⟩ := h
  exact ⟨msgs, first.andThen fun rc w _ _ => quiet rc w, second.andThen fun rc w _ _ => quiet rc w⟩

end SendsSame

variable {w : World Script} {m m' : Mem Obj}

theorem avbDoTipc_same {cmd : Nat} {req : Option (Ptr Obj)} {reqSize : UInt32}
    (resp respSizeP : Option (Ptr Obj)) (same : Set.EqOn m.cells m'.cells (dataCells req reqSize)) :
    SendsSame w.env (avbDoTipc scriptTransport cmd req reqSize resp respSizeP (w.setMem m))
      (avbDoTipc scriptTransport cmd req reqSize resp respSizeP (w.setMem m')) := by
  have first := avbDoTipc_sends cmd req reqSize resp respSizeP (w.setMem m)
  have second := avbDoTipc_sends cmd req reqSize resp respSizeP (w.setMem m')
  have message := @avbMessage_same m m' cmd req reqSize same
  change Sends w.env _ (if w.initialized .avb = false ∧ _ then [] else [avbMessage m _ _ _])
    at first
  change Sends w.env _ (if w.initialized .avb = false ∧ _ then [] else [avbMessage m' _ _ _])
    at second
  rw [message] at first
  exact ⟨_, first, second⟩

theorem dataCells_none (n : UInt32) : dataCells none n = ∅ := by
  apply Set.eq_empty_of_forall_notMem
  rintro x ⟨p, none, _⟩
  cases none

theorem dataCells_some (p : Ptr Obj) (n : UInt32) : dataCells (some p) n = p.span n.toNat := by
  apply Set.Subset.antisymm
  · rintro x ⟨q, same, inside⟩
    rw [Option.some.inj same]
    exact inside
  · exact span_dataCells rfl n

/-- A request without data is the same in any two runs. -/
theorem avbDoTipc_noData {cmd : Nat} {reqSize : UInt32} (resp respSizeP : Option (Ptr Obj)) :
    SendsSame w.env (avbDoTipc scriptTransport cmd none reqSize resp respSizeP (w.setMem m))
      (avbDoTipc scriptTransport cmd none reqSize resp respSizeP (w.setMem m')) := by
  apply avbDoTipc_same
  rw [dataCells_none]
  exact Set.eqOn_empty _ _

/-- Every byte of the request is set before it is sent. -/
theorem setRollbackReq_same (slot : UInt32) (value : UInt64) :
    Set.EqOn (setRollbackReq (w.setMem m) slot value).mem.cells
      (setRollbackReq (w.setMem m') slot value).mem.cells (dataCells (some avbReq) 12) := by
  have cells : dataCells (some avbReq) 12 = avbReq.span 8 ∪ avbReqSlot.span 4 := by
    rw [dataCells_some]
    exact Ptr.span_add avbReq 8 4
  have first := eqOn_store_self m m' avbReq 8 value.toNat
  rw [cells]
  exact (eqOn_store (eqOn_store first avbReqSlot 4 slot.toNat) avbRespSize 4 8).mono
    Set.subset_union_left

/-- Two runs that serialize the same data and send it. -/
theorem sendSerialized_same {s : KmSerializable} {heap : Nat → Option Nat} {fuel cmd : Nat}
    {respData respDataSize : Option (Ptr Obj)} {S : Set (Obj × Nat)}
    (enough : w.env.recvs.length < fuel) (same : Set.EqOn m.cells m'.cells S) (given : s.given ⊆ S)
    (room : respDataSize.isSome ∨ respData = none) :
    SendsSame w.env
      (sendSerialized scriptTransport fuel cmd respData respDataSize (s.serialized heap m)
        (w.setMem m))
      (sendSerialized scriptTransport fuel cmd respData respDataSize (s.serialized heap m')
        (w.setMem m')) := by
  have room : respData.isSome → respDataSize.isSome := by
    intro there
    rcases room with size | none
    · exact size
    · rw [none] at there
      exact absurd there (by decide)
  obtain ⟨rc, out, outSize, read⟩ := @serialize_lockstep heap s.size s.append m m' S
    (s.append_lockstep.mono given) same
  rw [← s.serialized_eq, ← s.serialized_eq] at rc out outSize read
  have first := @sendSerialized_sends fuel cmd respData respDataSize (s.serialized heap m)
    (w.setMem m) enough room
  have second := @sendSerialized_sends fuel cmd respData respDataSize (s.serialized heap m')
    (w.setMem m') enough room
  have message : kmMessage (s.serialized heap m).mem cmd (s.serialized heap m).out
      (UInt32.ofNat (s.serialized heap m).outSize) = kmMessage (s.serialized heap m').mem cmd
      (s.serialized heap m).out (UInt32.ofNat (s.serialized heap m).outSize) := by
    apply kmMessage_same
    rintro x ⟨p, there, inside⟩
    have fits : (UInt32.ofNat (s.serialized heap m).outSize).toNat =
        (s.serialized heap m).outSize := by
      rw [s.serialized_eq, serialize_outSize]
      exact UInt32.toNat_ofNat_of_lt (Nat.mod_lt _ (by decide))
    rw [fits] at inside
    exact eqOn_span_iff.mpr (read p there) inside
  rw [message] at first
  rw [← rc, ← out, ← outSize] at second
  exact ⟨_, first, second⟩

theorem trustyAtapGetCaRequest_same {a : Addresses} {heap : Nat → Nat → Option Nat} {fuel : Nat}
    {operationStart : Option (Ptr Obj)} {operationStartSize : UInt32}
    {caRequestP caRequestSizeP : Ptr Obj} (enough : w.env.recvs.length < fuel)
    (same : Set.EqOn m.cells m'.cells (dataCells operationStart operationStartSize)) :
    SendsSame w.env
      (trustyAtapGetCaRequest scriptTransport a heap fuel operationStart operationStartSize
        caRequestP caRequestSizeP (w.setMem m))
      (trustyAtapGetCaRequest scriptTransport a heap fuel operationStart operationStartSize
        caRequestP caRequestSizeP (w.setMem m')) := by
  unfold trustyAtapGetCaRequest
  simp only [World.setMem]
  cases picked : heap 0 kMaxCaRequestSize with
  | none =>
    have refused : ∀ m : Mem Obj, trustyCalloc (heap 0) kMaxCaRequestSize m = none := by
      intro m
      rw [trustyCalloc, picked]
      rfl
    rw [refused, refused]
    exact ⟨[], Sends.ret (w.setMem _) _, Sends.ret (w.setMem _) _⟩
  | some k =>
    obtain ⟨m₁, m₁', calloc, calloc', zeroed⟩ := trustyCalloc_lockstep picked same
    have stored := eqOn_store (eqOn_store zeroed caRequestP 8 (a.address (some ⟨.heap k, 0⟩)).toNat)
      caRequestSizeP 4 kMaxCaRequestSize
    have cell : a.load ((a.store m₁ caRequestP (some ⟨.heap k, 0⟩)).store caRequestSizeP 4
        kMaxCaRequestSize) caRequestP = a.load ((a.store m₁' caRequestP (some ⟨.heap k, 0⟩)).store
        caRequestSizeP 4 kMaxCaRequestSize) caRequestP := by
      have read := read_eq_of_eqOn stored
        (Set.subset_union_right.trans Set.subset_union_left : caRequestP.span 8 ⊆ _)
      exact congrArg (fun bs => a.object (UInt64.ofNat (leNat bs))) read
    simp only [calloc, calloc', cell]
    exact sendSerialized_same (s := .rawBuffer ⟨operationStartSize, operationStart⟩) enough stored
      (Set.subset_union_left.trans (Set.subset_union_left.trans Set.subset_union_left))
      (Or.inl rfl)

/-- Whatever the requests come to, the first of them is the one that tells the size. -/
theorem caSendLoop_sends {heap : Nat → Nat → Option Nat} {fuel : Nat} {caResponse : Ptr Obj}
    {size bytesSent : UInt32} {w : World Script} (enough : w.env.recvs.length < fuel) :
    ∃ msgs,
      Sends w.env (caSendLoop scriptTransport heap fuel caResponse size bytesSent w) msgs := by
  induction left : size.toNat - bytesSent.toNat using Nat.strongRecOn
    generalizing heap bytesSent w with
  | ind n ih =>
    rw [caSendLoop]
    by_cases below : bytesSent < size
    · have more : bytesSent.toNat < size.toNat := below
      have sum := caSendSize_add below
      rw [dif_pos below]
      obtain ⟨rc, w₁, run, sent⟩ := @sendSerialized_sends fuel kmAtapSetCaResponseUpdate none none
        (kmRawBufferSerialize (heap 0) ⟨caSendSize size bytesSent,
          some (caResponse.add bytesSent.toNat)⟩ w.mem) w enough id
      change trustySendRawBuffer scriptTransport (heap 0) fuel kmAtapSetCaResponseUpdate
        (some (caResponse.add bytesSent.toNat)) (caSendSize size bytesSent) none none w = _ at run
      simp only [run, Option.bind_eq_bind, Option.bind_some]
      by_cases ok : rc = trustyErrNone
      · rw [if_neg (not_not_intro ok)]
        obtain ⟨msgs, rc', w₂, rest, sent'⟩ := @ih _ (by omega) (fun i => heap (i + 1))
          (bytesSent + caSendSize size bytesSent) w₁ (sent.recvs.trans_lt enough) rfl
        exact ⟨_, rc', w₂, rest, sent.trans sent'⟩
      · rw [if_pos ok]
        exact ⟨_, rc, w₁, rfl, sent⟩
    · rw [dif_neg below]
      exact ⟨_, kmDoTipc_sends enough id⟩

/-- The size is told first. -/
theorem trustyAtapSetCaResponse_first {heap : Nat → Nat → Option Nat} {fuel : Nat}
    {caResponse : Ptr Obj} {size : UInt32} {w : World Script} (enough : w.env.recvs.length < fuel) :
    firstMessage w.env (trustyAtapSetCaResponse scriptTransport heap fuel caResponse size w) =
      some (kmMessage (w.mem.store kmBeginReq 4 size.toNat) kmAtapSetCaResponseBegin
        (some kmBeginReq) 4) := by
  obtain ⟨rc, w₁, run, sent⟩ := @kmDoTipc_sends kmAtapSetCaResponseBegin fuel (some kmBeginReq) none
    none 4 (w.setMem (w.mem.store kmBeginReq 4 size.toNat)) enough nofun
  have whole : ∃ more, Sends w.env
      (trustyAtapSetCaResponse scriptTransport heap fuel caResponse size w)
      (kmMessage (w.mem.store kmBeginReq 4 size.toNat) kmAtapSetCaResponseBegin (some kmBeginReq) 4
        :: more) := by
    unfold trustyAtapSetCaResponse
    simp only [run, Option.bind_eq_bind, Option.bind_some]
    by_cases ok : rc = trustyErrNone
    · rw [if_neg (not_not_intro ok)]
      obtain ⟨more, rc', w₂, rest, sent'⟩ := @caSendLoop_sends heap fuel caResponse size 0 w₁
        (sent.recvs.trans_lt enough)
      exact ⟨more, rc', w₂, rest, sent.trans sent'⟩
    · rw [if_pos ok]
      exact ⟨[], rc, w₁, rfl, sent⟩
  obtain ⟨more, sends⟩ := whole
  rw [sends.firstMessage, List.head?_cons]

theorem allocUuid_read {a : Addresses} {heap : Nat → Option Nat} {c off : Nat} (m : Mem Obj) :
    (allocUuid a heap ⟨.caller c, off⟩ m).read ⟨.caller c, off + 256⟩ 8 =
      m.read ⟨.caller c, off + 256⟩ 8 := by
  have stored : ∀ (m : Mem Obj) p, (a.store m ⟨.caller c, off⟩ p).read ⟨.caller c, off + 256⟩ 8 =
      m.read ⟨.caller c, off + 256⟩ 8 := by
    intro m p
    apply Mem.read_write_apart
    right
    rw [leBytes_length]
    show 8 = 0 ∨ 8 = 0 ∨ off + 8 ≤ off + 256 ∨ off + 256 + 8 ≤ off
    omega
  unfold allocUuid
  cases picked : heap (kUuidSize + 1) with
  | none =>
    rw [trustyCalloc, picked]
    exact stored m none
  | some k =>
    rw [trustyCalloc, picked]
    exact stored _ _

/-- The UUID is asked for exactly when the pointer past the caller's cell leads to an object. -/
theorem trustyAtapReadUuidStr_first {a : Addresses} {heap : Nat → Option Nat} {fuel c off : Nat}
    {w : World Script} (enough : w.env.recvs.length < fuel) :
    firstMessage w.env (trustyAtapReadUuidStr scriptTransport a heap fuel ⟨.caller c, off⟩ w) =
      if (a.load w.mem ⟨.caller c, off + 256⟩).isSome then
        some (.km, leBytes 4 kmAtapReadUuid ++ [])
      else none := by
  have found : a.load ((allocUuid a heap ⟨.caller c, off⟩ w.mem).touch ⟨.caller c, off + 256⟩ 8)
      ⟨.caller c, off + 256⟩ = a.load w.mem ⟨.caller c, off + 256⟩ :=
    congrArg (fun bs => a.object (UInt64.ofNat (leNat bs))) (allocUuid_read w.mem)
  have past : (⟨.caller c, off⟩ : Ptr Obj).add (kUuidSize * 8) = ⟨.caller c, off + 256⟩ := rfl
  unfold trustyAtapReadUuidStr
  simp only [past, found]
  cases a.load w.mem ⟨.caller c, off + 256⟩ with
  | none => rfl
  | some q =>
    have sends : ∀ m data, Sends w.env (kmDoTipc scriptTransport fuel kmAtapReadUuid none 0 data
        (some kmResponseSize) (w.setMem m)) [(.km, leBytes 4 kmAtapReadUuid ++ [])] := by
      intro m data
      have first := @kmDoTipc_sends kmAtapReadUuid fuel none data (some kmResponseSize) 0
        (w.setMem m) enough fun _ => rfl
      rwa [kmMessage_none] at first
    rw [if_pos Option.isSome_some, Option.bind_eq_bind, Option.bind_some]
    refine ((sends _ _).andThen ?_).firstMessage
    intro rc w₁ _ _
    simp only
    split
    next => exact Sends.ret w₁ rc
    next =>
      split
      next => exact Sends.ret w₁ _
      next => exact Sends.ret w₁ rc

theorem hwbccGetDiceArtifacts_first (context : UInt64) (artifacts : Ptr Obj) (bufSize : UInt64)
    (size : Ptr Obj) (w : World Script) :
    firstMessage w.env (hwbccGetDiceArtifacts scriptTransport context artifacts bufSize size w) =
      some (.hwbcc, leBytes 4 hwbccCmdGetDiceArtifacts ++ w.mem.read ⟨.hwbccReq, 4⟩ 4 ++
        leBytes 8 context.toNat) := by
  rw [(hwbccGetDiceArtifacts_sends context artifacts bufSize size w).firstMessage, List.head?_cons,
    hwbccMessage]
  have cells : ∀ m : Mem Obj, m.read hwbccReq 16 =
      m.read hwbccReq 4 ++ m.read ⟨.hwbccReq, 4⟩ 4 ++ m.read hwbccReqContext 8 := by
    intro m
    rw [show 16 = 4 + 4 + 8 from rfl, Mem.read_add, Mem.read_add]
    rfl
  have cmd := Mem.read_write_self w.mem hwbccReq (leBytes 4 hwbccCmdGetDiceArtifacts)
  have last := Mem.read_write_self (w.mem.store hwbccReq 4 hwbccCmdGetDiceArtifacts)
    hwbccReqContext (leBytes 8 context.toNat)
  rw [leBytes_length] at cmd last
  have before : ∀ (q : Ptr Obj) k, q.off + k ≤ 8 →
      Apart hwbccReqContext (leBytes 8 context.toNat).length q k :=
    fun _ _ h => Or.inr (Or.inr (Or.inr (Or.inr h)))
  rw [cells, Mem.store, last, Mem.read_write_apart _ (before hwbccReq 4 (by decide)), Mem.store,
    cmd, Mem.read_write_apart _ (before ⟨.hwbccReq, 4⟩ 4 (by decide)),
    Mem.read_write_apart _ (by decide)]

theorem sentWhen_iff {x y : Bool} {msg : Message} :
    ((if x = true then some msg else none) = if y = true then some msg else none) ↔ x = y := by
  cases x with
  | false =>
    cases y with
    | false => exact iff_of_true rfl rfl
    | true => exact iff_of_false nofun nofun
  | true =>
    cases y with
    | false => exact iff_of_false nofun nofun
    | true => exact iff_of_true rfl rfl

/-- Exactly when two runs, with the same arguments and anything else in memory, pass the same first
message on: where no test mode is left unset, and no stray pointer decides. -/
theorem firstMessage_same_iff (call : ClientRequest) (a : Addresses)
    (heap : Nat → Nat → Option Nat) {fuel : Nat} {w : World Script} {m m' : Mem Obj}
    (enough : w.env.recvs.length < fuel) (same : Set.EqOn m.cells m'.cells call.given) :
    firstMessage w.env (call.run a heap fuel (w.setMem m)) =
      firstMessage w.env (call.run a heap fuel (w.setMem m')) ↔ call.Settled a m m' := by
  have settled : ∀ {r r' : Option (Int × World Script)}, SendsSame w.env r r' →
      (firstMessage w.env r = firstMessage w.env r' ↔ True) :=
    fun h => iff_of_true h.firstMessage trivial
  cases call with
  | readRollbackIndex slot value =>
    exact settled ((avbDoTipc_same _ _ (setRollbackReq_same slot 0)).andThen fun rc w =>
      Sends.ret (w.setMem _) rc)
  | writeRollbackIndex slot value =>
    exact settled (avbDoTipc_same _ _ (setRollbackReq_same slot value))
  | readPermanentAttributes attributes size =>
    refine settled ((avbDoTipc_noData _ _).andThen fun rc w => ?_)
    simp only
    split
    next => exact Sends.ret w rc
    next =>
      split
      next => exact Sends.ret w _
      next => exact Sends.ret (w.setMem _) rc
  | writePermanentAttributes attributes size => exact settled (avbDoTipc_same none none same)
  | readLockState lockState => exact settled (avbDoTipc_noData _ _)
  | writeLockState lockState =>
    have set := eqOn_write_self m m' avbReq [lockState]
    refine settled (avbDoTipc_same none none ?_)
    rw [dataCells_some]
    exact set
  | lockBootState => exact settled (avbDoTipc_noData _ _)
  | setBootParams => exact settled (sendSerialized_same (s := .bootParams _) enough same
      subset_rfl (Or.inr rfl))
  | setAttestationKey => exact settled (sendSerialized_same (s := .attestationData _) enough same
      subset_rfl (Or.inr rfl))
  | appendAttestationCertChain => exact settled (sendSerialized_same (s := .attestationData _)
      enough same subset_rfl (Or.inr rfl))
  | atapGetCaRequest => exact settled (trustyAtapGetCaRequest_same enough same)
  | atapSetCaResponse caResponse size =>
    have set := eqOn_store_self m m' kmBeginReq 4 size.toNat
    have message := @kmMessage_same (m.store kmBeginReq 4 size.toNat)
      (m'.store kmBeginReq 4 size.toNat) kmAtapSetCaResponseBegin (some kmBeginReq) 4 (by
        rw [dataCells_some]
        exact set)
    refine iff_of_true ?_ trivial
    exact (trustyAtapSetCaResponse_first (w := w.setMem m) enough).trans ((congrArg some
      message).trans (trustyAtapSetCaResponse_first (w := w.setMem m') enough).symm)
  | atapReadUuidStr caller off =>
    have first := @trustyAtapReadUuidStr_first a (heap 0) fuel caller off (w.setMem m) enough
    have second := @trustyAtapReadUuidStr_first a (heap 0) fuel caller off (w.setMem m') enough
    change firstMessage w.env (trustyAtapReadUuidStr _ _ _ _ _ (w.setMem m)) =
      firstMessage w.env (trustyAtapReadUuidStr _ _ _ _ _ (w.setMem m')) ↔ _ = _
    rw [show firstMessage w.env _ = _ from first, show firstMessage w.env _ = _ from second]
    exact sentWhen_iff
  | getDiceArtifacts context artifacts bufSize size =>
    have first := hwbccGetDiceArtifacts_first context artifacts bufSize size (w.setMem m)
    have second := hwbccGetDiceArtifacts_first context artifacts bufSize size (w.setMem m')
    change firstMessage w.env (hwbccGetDiceArtifacts _ _ _ _ _ (w.setMem m)) =
      firstMessage w.env (hwbccGetDiceArtifacts _ _ _ _ _ (w.setMem m')) ↔ _ = _
    rw [show firstMessage w.env _ = _ from first, show firstMessage w.env _ = _ from second,
      Option.some_inj, Prod.mk_right_inj, List.append_cancel_right_eq, List.append_cancel_left_eq]
    rfl
  | nsDeprivilege =>
    have zeroed := eqOn_write_self m m' hwbccReq (List.replicate sizeofHwbccReqHdr 0)
    rw [List.length_replicate] at zeroed
    have message := read_eq_of_eqOn (eqOn_store zeroed hwbccReq 4 hwbccCmdNsDeprivilege)
      Set.subset_union_left
    have first := hwbccNsDeprivilege_sends (w.setMem m)
    have second := hwbccNsDeprivilege_sends (w.setMem m')
    have message : hwbccMessage ((m.memset hwbccReq 0 sizeofHwbccReqHdr).store hwbccReq 4
        hwbccCmdNsDeprivilege) = hwbccMessage ((m'.memset hwbccReq 0 sizeofHwbccReqHdr).store
        hwbccReq 4 hwbccCmdNsDeprivilege) := congrArg (Prod.mk Component.hwbcc) message
    change Sends w.env _ [hwbccMessage ((m.memset _ _ _).store _ _ _)] at first
    rw [message] at first
    exact settled ⟨_, first, second⟩

/-- The caller's bytes are 7, and everything else, the stack with it, is this byte. -/
def stackOf (garbage : UInt8) : Mem Obj := ⟨fun b _ => if b = .caller 0 then 7 else garbage, []⟩

/-- Nothing is left of the script: a request is sent, and no answer comes. -/
def silentWorld : World Script where
  mem := stackOf 0
  chans := fun _ => ⟨1, 0, .sync⟩
  initialized := fun _ => true
  env := ⟨[], [], [], [], []⟩

def noAddresses : Addresses := ⟨fun _ => 0, fun _ => none⟩

/-- A key of two bytes is sent the same with any garbage around it. -/
theorem shortKey_sameMessage :
    firstMessage silentWorld.env ((ClientRequest.setAttestationKey (some ⟨.caller 0, 0⟩) 2 1).run
        noAddresses (fun _ _ => some 0) 1 (silentWorld.setMem (stackOf 1))) =
      firstMessage silentWorld.env ((ClientRequest.setAttestationKey (some ⟨.caller 0, 0⟩) 2 1).run
        noAddresses (fun _ _ => some 0) 1 (silentWorld.setMem (stackOf 2))) := by
  have same : Set.EqOn (stackOf 1).cells (stackOf 2).cells
      (ClientRequest.setAttestationKey (some ⟨.caller 0, 0⟩) 2 1).given := by
    show Set.EqOn _ _ (dataCells (some ⟨.caller 0, 0⟩) 2)
    rw [dataCells_some]
    exact eqOn_span_iff.mpr rfl
  exact (firstMessage_same_iff (.setAttestationKey (some ⟨.caller 0, 0⟩) 2 1) noAddresses _
    (by decide) same).mpr trivial

/-- A request for DICE artifacts, which points to no data. -/
def diceRequest : ClientRequest := .getDiceArtifacts 5 ⟨.caller 0, 0⟩ 64 ⟨.caller 1, 0⟩

/-- The test mode of the request is whatever was on the stack. -/
theorem testMode_fromStack :
    Set.EqOn (stackOf 0).cells (stackOf 1).cells diceRequest.given ∧
    firstMessage silentWorld.env (diceRequest.run noAddresses (fun _ _ => some 0) 1
        (silentWorld.setMem (stackOf 0))) =
      some (.hwbcc, [6, 0, 0, 0, 0, 0, 0, 0, 5, 0, 0, 0, 0, 0, 0, 0]) ∧
    firstMessage silentWorld.env (diceRequest.run noAddresses (fun _ _ => some 0) 1
        (silentWorld.setMem (stackOf 1))) =
      some (.hwbcc, [6, 0, 0, 0, 1, 1, 1, 1, 5, 0, 0, 0, 0, 0, 0, 0]) :=
  ⟨Set.eqOn_empty _ _,
    hwbccGetDiceArtifacts_first 5 ⟨.caller 0, 0⟩ 64 ⟨.caller 1, 0⟩ (silentWorld.setMem (stackOf 0)),
    hwbccGetDiceArtifacts_first 5 ⟨.caller 0, 0⟩ 64 ⟨.caller 1, 0⟩ (silentWorld.setMem (stackOf 1))⟩

end ExternalTrusty
