import ExternalTrusty.SharedHandle

namespace ExternalTrusty.Dev

open CMemory CProgram

/-- `struct trusty_ipc_dev`, with the addresses of its own context and of its pages. -/
structure TrustyIpcDev where
  context : Nat
  bufVaddr : Nat
  bufSize : Nat
  bufId : UInt64
  bufNs : NsMemPageInfo
  deriving DecidableEq

/-- What `trusty_alloc_pages` and `trusty_free_pages` are told, as an `unsigned`. -/
def bufPages (size : Nat) : Nat := u32 (size / pageSize)

/-- From the label `err_alloc_pages` on. -/
def errAllocPages (context : Nat) (rc : Int) (idev : Option TrustyIpcDev) :
    Trusty (Int × Option TrustyIpcDev) := do
  let _ ← call (TrustyOp.free context)
  return (rc, idev)

/-- From the label `err_share_memory` on. -/
def errShareMemory (context vaddr size : Nat) (rc : Int) (idev : Option TrustyIpcDev) :
    Trusty (Int × Option TrustyIpcDev) := do
  let _ ← call (TrustyOp.freePages vaddr (bufPages size))
  errAllocPages context rc idev

/-- From the labels `err_page_info` and `err_create_sec_dev` on. -/
def errCreateSecDev (tdev : TrustyDev) (context vaddr size : Nat) (bufId : UInt64) (rc : Int)
    (idev : Option TrustyIpcDev) : Trusty (Int × Option TrustyIpcDev) := do
  let rc2 ← trustyDevReclaimMemory tdev bufId
  if rc2 ≠ 0 then trustyFatal else errShareMemory context vaddr size rc idev

/-- The result, and what `*idev` is afterwards. The context is allocated zeroed, so its id is zero
until the memory has been shared. -/
def trustyIpcDevCreate (tdev : TrustyDev) (idev : Option TrustyIpcDev) (sharedBufSize : Nat) :
    Trusty (Int × Option TrustyIpcDev) := do
  let dev ← call TrustyOp.calloc
  match dev with
  | none => return (trustyErrNoMemory, idev)
  | some context =>
    let buf ← call (TrustyOp.allocPages (bufPages sharedBufSize))
    match buf with
    | none => errAllocPages context trustyErrNoMemory idev
    | some vaddr =>
      let info ← call (TrustyOp.encodePageInfo vaddr)
      if info.1 ≠ 0 then errCreateSecDev tdev context vaddr sharedBufSize 0 trustyErrGeneric idev
      else
        let shared ← trustyDevShareMemory tdev 0 info.2 (sharedBufSize / pageSize)
        if shared.1 ≠ 0 then errShareMemory context vaddr sharedBufSize trustyErrSecosErr idev
        else
          let rc ← trustyDevInitIpc shared.2 (UInt32.ofNat sharedBufSize)
          if rc ≠ 0 then
            errCreateSecDev tdev context vaddr sharedBufSize shared.2 trustyErrSecosErr idev
          else return (trustyErrNone, some ⟨context, vaddr, sharedBufSize, shared.2, info.2⟩)

def trustyIpcDevShutdown (tdev : TrustyDev) (dev : TrustyIpcDev) : Trusty Unit := do
  let _ ← trustyDevShutdownIpc dev.bufId (UInt32.ofNat dev.bufSize)
  let rc ← trustyDevReclaimMemory tdev dev.bufId
  if rc ≠ 0 then trustyFatal
  else
    let _ ← call (TrustyOp.freePages dev.bufVaddr (bufPages dev.bufSize))
    let _ ← call (TrustyOp.free dev.context)
    return

/-- What a run has acquired, given away and given back so far: contexts, pages, and shared memory
by the ids it was shared under. -/
structure Ledger where
  contexts : List Nat
  pages : List (Nat × Nat)
  infoFailed : Bool
  shared : List UInt64
  reclaimed : List UInt64
  unreclaimed : List UInt64
  freedPages : List (Nat × Nat)
  freed : List Nat
  fatal : Bool
  deriving DecidableEq

/-- The id that a call names in its first two arguments. -/
def namedId (args : SmcRegs) : UInt64 := UInt64.ofNat (args.r1.toNat + 2 ^ 32 * args.r2.toNat)

/-- The memory calls count by their answers: sharing when it succeeds, reclaiming in any case. -/
def Ledger.smc (l : Ledger) (args ret : SmcRegs) : Ledger :=
  if args.r0 = smcFcFfaMemShare.toUInt64 then
    if ret.r0.toUInt32 = smcFcFfaSuccess then { l with shared := l.shared ++ [ret.r2] } else l
  else if args.r0 = smcFcFfaMemReclaim.toUInt64 then
    { l with
      reclaimed := l.reclaimed ++ [namedId args]
      unreclaimed := if ret.r0.toUInt32 = smcFcFfaSuccess then l.unreclaimed
        else l.unreclaimed ++ [namedId args] }
  else l

def Ledger.record (l : Ledger) : TrustyEvent → Ledger
  | ⟨.calloc, some context⟩ => { l with contexts := l.contexts ++ [context] }
  | ⟨.allocPages count, some vaddr⟩ => { l with pages := l.pages ++ [(vaddr, count)] }
  | ⟨.encodePageInfo _, info⟩ => { l with infoFailed := l.infoFailed || info.1 ≠ 0 }
  | ⟨.smc8 args, ret⟩ => l.smc args ret
  | ⟨.freePages vaddr count, _⟩ => { l with freedPages := l.freedPages ++ [(vaddr, count)] }
  | ⟨.free context, _⟩ => { l with freed := l.freed ++ [context] }
  | ⟨.fatal, _⟩ => { l with fatal := true }
  | _ => l

def Ledger.empty : Ledger := ⟨[], [], false, [], [], [], [], [], false⟩

def ledger (h : List TrustyEvent) : Ledger := h.foldl Ledger.record .empty

/-- Memory that was really shared is given back when that is asked for. -/
def ReclaimsSucceed (l : Ledger) : Prop := ∀ id ∈ l.unreclaimed, id ∉ l.shared

instance (l : Ledger) : Decidable (ReclaimsSucceed l) :=
  inferInstanceAs (Decidable (∀ id ∈ l.unreclaimed, id ∉ l.shared))

/-- Operations that the ledger does not count. -/
def Neutral : TrustyOp → Prop
  | .irqDisable => True
  | .irqRestore => True
  | .lock => True
  | .unlock => True
  | .idle => True
  | .storeTx _ _ => True
  | .smc8 args => args.r0 ≠ smcFcFfaMemShare.toUInt64 ∧ args.r0 ≠ smcFcFfaMemReclaim.toUInt64
  | _ => False

theorem Ledger.record_neutral (l : Ledger) {e : TrustyEvent} (h : Neutral e.1) :
    l.record e = l := by
  obtain ⟨o, r⟩ := e
  cases o with
  | smc8 args =>
    obtain ⟨hshare, hreclaim⟩ := h
    show l.smc args r = l
    rw [Ledger.smc, if_neg hshare, if_neg hreclaim]
  | irqDisable => rfl
  | irqRestore => rfl
  | lock => rfl
  | unlock => rfl
  | idle => rfl
  | storeTx off bytes => rfl
  | calloc => exact absurd h nofun
  | allocPages count => exact absurd h nofun
  | encodePageInfo vaddr => exact absurd h nofun
  | freePages vaddr count => exact absurd h nofun
  | free addr => exact absurd h nofun
  | fatal => exact absurd h nofun

theorem Tracks.fatal {good : Ledger → Prop} {l : Ledger} {α : Type} {post : α → Ledger → Prop}
    (hgood : good l) (hfatal : good { l with fatal := true }) :
    Tracks Ledger.record good l trustyFatal post := by
  refine Tracks.bind (Tracks.call hgood fun _ => hfatal) ?_
  rintro _ _ rfl
  exact Tracks.hang hfatal

end ExternalTrusty.Dev
