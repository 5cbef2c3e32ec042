import ExternalTrusty.Program
import ExternalTrusty.IpcDev

namespace ExternalTrusty.Dev

open CMemory CProgram

/-- The eight registers of a call to the secure monitor, as they go in (`smc8`) and come back
(`struct smc_ret8`). -/
structure SmcRegs where
  r0 : UInt64
  r1 : UInt64
  r2 : UInt64
  r3 : UInt64
  r4 : UInt64
  r5 : UInt64
  r6 : UInt64
  r7 : UInt64
  deriving DecidableEq

/-- `struct ns_mem_page_info` -/
structure NsMemPageInfo where
  attr : UInt64
  paddr : UInt64
  ffaMemAttr : UInt8
  ffaMemPerm : UInt8
  deriving DecidableEq

/-- What the device code asks of the monitor, of its platform, and of the page that describes
memory to be shared. -/
inductive TrustyOp
  | smc8 (args : SmcRegs)
  | irqDisable
  | irqRestore
  | lock
  | unlock
  | idle
  | storeTx (off : Nat) (bytes : List UInt8)
  | calloc
  | allocPages (count : Nat)
  | encodePageInfo (vaddr : Nat)
  | freePages (vaddr count : Nat)
  | free (addr : Nat)
  | fatal
  deriving DecidableEq

/-- An allocation may fail, and so may finding a page's attributes. -/
abbrev TrustyRes : TrustyOp → Type
  | .smc8 _ => SmcRegs
  | .calloc => Option Nat
  | .allocPages _ => Option Nat
  | .encodePageInfo _ => Int × NsMemPageInfo
  | _ => Unit

abbrev Trusty (α : Type) := Prog TrustyOp TrustyRes α

abbrev TrustyEvent := Event TrustyOp TrustyRes

/-- `struct trusty_dev`, as the calls use it once it is set up: `ffaTx` tells if there is a page
for descriptors, that is, if the secure OS is new enough for memory objects. -/
structure TrustyDev where
  ffaTx : Bool
  ffaLocalId : UInt16
  ffaRemoteId : UInt16

def smErrInterrupted : Int := -3
def smErrBusy : Int := -5
def smErrFiqInterrupted : Int := -12
def smErrCpuIdle : Int := -13
def smErrNopInterrupted : Int := -14
def smErrNopDone : Int := -15

def smcScRestartLast : UInt32 := 0x3c000000
def smcScRestartFiq : UInt32 := 0x3c000002
def smcScNop : UInt32 := 0x3c000003
def smcScTrustyIpcCreateQlDev : UInt32 := 0x3200001e
def smcScTrustyIpcShutdownQlDev : UInt32 := 0x3200001f
def smcFcFfaSuccess : UInt32 := 0x84000061
def smcFcFfaMemShare : UInt32 := 0x84000073
def smcFcFfaMemReclaim : UInt32 := 0x84000077

def smcIsFastcall (smcnr : UInt32) : Prop := smcnr &&& 0x80000000 ≠ 0

instance (smcnr : UInt32) : Decidable (smcIsFastcall smcnr) := inferInstanceAs (Decidable (_ ≠ _))

def smc8 (r0 r1 r2 r3 r4 r5 r6 r7 : UInt64) : Trusty SmcRegs :=
  call (TrustyOp.smc8 ⟨r0, r1, r2, r3, r4, r5, r6, r7⟩)

def smc (r0 r1 r2 r3 : UInt64) : Trusty UInt64 := do
  let ret ← smc8 r0 r1 r2 r3 0 0 0 0
  return ret.r0

/-- The low half of a register, as an `int`. -/
def regInt (r : UInt64) : Int := toInt r.toNat

/-- Aborts the program: nothing comes after. -/
def trustyFatal {α : Type} : Trusty α := do
  let _ ← call TrustyOp.fatal
  hang

def trustyFastCall32 (smcnr a0 a1 a2 : UInt32) : Trusty Int := do
  let ret ← smc smcnr.toUInt64 a0.toUInt64 a1.toUInt64 a2.toUInt64
  return regInt ret

/-- The retry counter runs down from five; each turn makes the call, and answers FIQs. -/
def trustyStdCallInner (smcnr a0 a1 a2 : UInt64) : Trusty UInt64 :=
  forever 5 fun retry => do
    let ret ← smc smcnr a0 a1 a2
    let ret ← whileDo (fun ret => regInt ret = smErrFiqInterrupted)
      (fun _ => smc smcScRestartFiq.toUInt64 0 0 0) ret
    if regInt ret ≠ smErrBusy ∨ retry = 0 then return .inr ret else return .inl (retry - 1)

def trustyStdCallHelper (smcnr a0 a1 a2 : UInt64) : Trusty UInt64 :=
  forever () fun _ => do
    let _ ← call TrustyOp.irqDisable
    let ret ← trustyStdCallInner smcnr a0 a1 a2
    let _ ← call TrustyOp.irqRestore
    if regInt ret ≠ smErrBusy then return .inr ret
    else
      let _ ← call TrustyOp.idle
      return .inl ()

def trustyStdCall32 (smcnr a0 a1 a2 : UInt32) : Trusty Int := do
  onlyIf (smcnr ≠ smcScNop) (call TrustyOp.lock)
  let ret ← trustyStdCallHelper smcnr.toUInt64 a0.toUInt64 a1.toUInt64 a2.toUInt64
  let ret ← whileDo (fun ret => ret = smErrInterrupted ∨ ret = smErrCpuIdle) (fun ret => do
    onlyIf (ret = smErrCpuIdle) (call TrustyOp.idle)
    let ret ← trustyStdCallHelper smcScRestartLast.toUInt64 0 0 0
    return regInt ret) (regInt ret)
  onlyIf (smcnr ≠ smcScNop) (call TrustyOp.unlock)
  return ret

def trustyCall32MemBufId (smcnr : UInt32) (bufId : UInt64) (size : UInt32) : Trusty Int :=
  if smcIsFastcall smcnr then
    trustyFastCall32 smcnr bufId.toUInt32 (bufId >>> 32).toUInt32 size
  else trustyStdCall32 smcnr bufId.toUInt32 (bufId >>> 32).toUInt32 size

def trustyDevInitIpc (bufId : UInt64) (bufSize : UInt32) : Trusty Int :=
  trustyCall32MemBufId smcScTrustyIpcCreateQlDev bufId bufSize

def trustyDevExecIpc (bufId : UInt64) (bufSize : UInt32) : Trusty Int :=
  trustyCall32MemBufId smcScTrustyIpcHandleQlDevCmd bufId bufSize

def trustyDevExecFcIpc (bufId : UInt64) (bufSize : UInt32) : Trusty Int :=
  trustyCall32MemBufId smcFcHandleQlTipcDevCmd bufId bufSize

def trustyDevShutdownIpc (bufId : UInt64) (bufSize : UInt32) : Trusty Int :=
  trustyCall32MemBufId smcScTrustyIpcShutdownQlDev bufId bufSize

def trustyDevNop : Trusty Int := do
  let ret ← trustyStdCall32 smcScNop 0 0 0
  return if ret = smErrNopDone then 0 else if ret = smErrNopInterrupted then 1 else -1

/-- `offsetof(struct ffa_mtd, emad[1])`, where the composite descriptor goes -/
def compMrdOffset : Nat := 48

/-- where its address range goes, past `sizeof(struct ffa_comp_mrd)` -/
def consMrdOffset : Nat := compMrdOffset + 16

/-- up to the end of the address range -/
def txSize : Nat := consMrdOffset + 16

def txStore (off width value : Nat) : Trusty Unit :=
  call (TrustyOp.storeTx off (leBytes width value))

/-- Writes the descriptor of memory to be shared, which is one range for one borrower. -/
def writeShareDescriptor (dev : TrustyDev) (pinfo : NsMemPageInfo) (pageCount : Nat) :
    Trusty Unit := do
  let _ ← call (TrustyOp.storeTx 0 (List.replicate txSize 0))
  txStore 0 2 dev.ffaLocalId.toNat
  txStore 2 1 pinfo.ffaMemAttr.toNat
  txStore 28 4 1
  txStore 32 2 dev.ffaRemoteId.toNat
  txStore 34 1 pinfo.ffaMemPerm.toNat
  txStore 36 4 compMrdOffset
  txStore compMrdOffset 4 pageCount
  txStore (compMrdOffset + 4) 4 1
  txStore consMrdOffset 8 pinfo.paddr.toNat
  txStore (consMrdOffset + 8) 4 pageCount

/-- The result, and what `*idp` is afterwards. Without a page for descriptors the secure OS takes
the page attributes for an id. -/
def trustyDevShareMemory (dev : TrustyDev) (id : UInt64) (pinfo : NsMemPageInfo)
    (pageCount : Nat) : Trusty (Int × UInt64) :=
  if ¬dev.ffaTx then return (0, pinfo.attr)
  else do
    writeShareDescriptor dev pinfo pageCount
    let ret ← smc8 smcFcFfaMemShare.toUInt64 (UInt64.ofNat txSize) (UInt64.ofNat txSize) 0 0 0 0 0
    if ret.r0.toUInt32 ≠ smcFcFfaSuccess then return (-1, id) else return (0, ret.r2)

def trustyDevReclaimMemory (dev : TrustyDev) (id : UInt64) : Trusty Int :=
  if ¬dev.ffaTx then return 0
  else do
    let ret ← smc8 smcFcFfaMemReclaim.toUInt64 id.toUInt32.toUInt64 (id >>> 32) 0 0 0 0 0
    if ret.r0.toUInt32 ≠ smcFcFfaSuccess then return -1 else return 0

end ExternalTrusty.Dev
