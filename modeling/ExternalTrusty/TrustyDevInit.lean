import ExternalTrusty.IpcDevCreate
import ExternalTrusty.PageInfo

namespace ExternalTrusty.Dev

open CMemory CProgram

def smErrUndefinedSmc : UInt32 := 0xffffffff
def trustyApiVersionMemObj : UInt32 := 5
def trustyApiVersionCurrent : UInt32 := 5
def ffaCurrentVersionMajor : UInt64 := 1
def ffaCurrentVersion : UInt64 := 0x10000

def smcFcApiVersion : UInt32 := 0xbc00000b
def smcFcFfaVersion : UInt32 := 0x84000063
def smcFcFfaFeatures : UInt32 := 0x84000064
def smcFcFfaIdGet : UInt32 := 0x84000069

/-- `SMC_FCZ_FFA_RXTX_MAP`, with 64-bit registers -/
def smcFczFfaRxtxMap : UInt32 := 0xc4000066

/-- The version that is agreed on, if there is one. -/
def trustyInitApiVersion : Trusty (Option UInt32) := do
  let ret ← trustyFastCall32 smcFcApiVersion trustyApiVersionCurrent 0 0
  let apiVersion := UInt32.ofNat (ret % 2 ^ 32).toNat
  let apiVersion := if apiVersion = smErrUndefinedSmc then 0 else apiVersion
  if apiVersion > trustyApiVersionCurrent then return none else return some apiVersion

/-- The end of `trusty_dev_init`, with the two pages there. -/
def mapPages (localId : UInt16) (tx rx : Nat) : Trusty (Int × TrustyDev) := do
  let txPinfo ← call (TrustyOp.encodePageInfo tx)
  if txPinfo.1 ≠ 0 then trustyFatal
  else
    let rxPinfo ← call (TrustyOp.encodePageInfo rx)
    if rxPinfo.1 ≠ 0 then trustyFatal
    else
      let ret ← smc8 smcFczFfaRxtxMap.toUInt64 txPinfo.2.paddr rxPinfo.2.paddr 1 0 0 0 0
      if ret.r0 ≠ smcFcFfaSuccess.toUInt64 then trustyFatal
      else return (0, ⟨true, localId, 0x8000⟩)

/-- The result, and the device. Every failure past the version check is fatal. -/
def trustyDevInit (dev : TrustyDev) : Trusty (Int × TrustyDev) := do
  let version ← trustyInitApiVersion
  match version with
  | none => return (-1, { dev with ffaTx := false })
  | some apiVersion =>
    if apiVersion < trustyApiVersionMemObj then return (0, { dev with ffaTx := false })
    else
      let ret ← smc8 smcFcFfaVersion.toUInt64 ffaCurrentVersion 0 0 0 0 0 0
      if ret.r0 >>> 16 ≠ ffaCurrentVersionMajor then trustyFatal
      else
        let ret ← smc8 smcFcFfaFeatures.toUInt64 smcFcFfaMemShare.toUInt64 0 0 0 0 0 0
        if ret.r0 ≠ smcFcFfaSuccess.toUInt64 then trustyFatal
        else
          let ret ← smc8 smcFcFfaIdGet.toUInt64 0 0 0 0 0 0 0
          if ret.r0 ≠ smcFcFfaSuccess.toUInt64 then trustyFatal
          else
            let localId := ret.r2.toUInt16
            let tx ← call (TrustyOp.allocPages 1)
            match tx with
            | none => trustyFatal
            | some tx =>
              let rx ← call (TrustyOp.allocPages 1)
              match rx with
              | none => trustyFatal
              | some rx => mapPages localId tx rx

/-- The page infos that a run was given, and the pairs of addresses that it has mapped. -/
structure RxtxMaps where
  infos : List NsMemPageInfo
  maps : List (UInt64 × UInt64)

def RxtxMaps.record (m : RxtxMaps) : TrustyEvent → RxtxMaps
  | ⟨.encodePageInfo _, info⟩ => { m with infos := m.infos ++ [info.2] }
  | ⟨.smc8 args, _⟩ =>
    if args.r0 = smcFczFfaRxtxMap.toUInt64 then { m with maps := m.maps ++ [(args.r1, args.r2)] }
    else m
  | _ => m

/-- Whatever is mapped is at the addresses that the page infos of the two buffers name. -/
def RxtxMaps.Named (m : RxtxMaps) : Prop :=
  ∀ x ∈ m.maps, m.infos.map (·.paddr) = [x.1, x.2]

/-- Operations that neither encode nor map. -/
def NoMap : TrustyOp → Prop
  | .smc8 args => args.r0 ≠ smcFczFfaRxtxMap.toUInt64
  | .encodePageInfo _ => False
  | _ => True

theorem RxtxMaps.record_noMap (m : RxtxMaps) (e : TrustyEvent) (h : NoMap e.1) :
    m.record e = m := by
  obtain ⟨o, r⟩ := e
  cases o with
  | smc8 args => exact if_neg h
  | encodePageInfo vaddr => exact h.elim
  | irqDisable => rfl
  | irqRestore => rfl
  | lock => rfl
  | unlock => rfl
  | idle => rfl
  | storeTx off bytes => rfl
  | calloc => rfl
  | allocPages count => rfl
  | freePages vaddr count => rfl
  | free addr => rfl
  | fatal => rfl

section

variable {m : RxtxMaps} {α : Type} {post : α → RxtxMaps → Prop}

theorem tracks_noMap {p : Trusty α} (hp : p.Uses NoMap) (hm : m.Named) :
    Tracks RxtxMaps.record RxtxMaps.Named m p fun _ m' => m' = m :=
  Tracks.uncounted hp RxtxMaps.record_noMap hm

theorem tracks_abort (hm : m.Named) :
    Tracks RxtxMaps.record RxtxMaps.Named m (trustyFatal : Trusty α) post := by
  refine Tracks.bind (tracks_noMap (Prog.Uses.call trivial) hm) ?_
  rintro _ _ rfl
  exact Tracks.hang hm

end

/-- The two pages, once they are there, are encoded and mapped. -/
theorem mapPages_tracks (localId : UInt16) (tx rx : Nat) :
    Tracks RxtxMaps.record RxtxMaps.Named ⟨[], []⟩ (mapPages localId tx rx) fun _ _ => True := by
  have hempty : ∀ infos, (⟨infos, []⟩ : RxtxMaps).Named := fun _ => List.forall_mem_nil _
  refine Tracks.bind (Tracks.call (hempty []) fun info => hempty [info.2]) ?_
  rintro txPinfo _ rfl
  split
  next => exact tracks_abort (hempty [txPinfo.2])
  next =>
    refine Tracks.bind (Tracks.call (hempty [txPinfo.2]) fun info => hempty [txPinfo.2, info.2]) ?_
    rintro rxPinfo _ rfl
    split
    next => exact tracks_abort (hempty [txPinfo.2, rxPinfo.2])
    next =>
      have hmapped : (⟨[txPinfo.2, rxPinfo.2], [(txPinfo.2.paddr, rxPinfo.2.paddr)]⟩ :
          RxtxMaps).Named := List.forall_mem_singleton.mpr rfl
      refine Tracks.bind (Tracks.call (hempty _) fun _ => hmapped) ?_
      rintro ret _ rfl
      split
      next => exact tracks_abort hmapped
      next => exact Tracks.ret hmapped trivial

/-- In every run, what is mapped are the two addresses that encoding the pages came to. -/
theorem trustyDevInit_mapsNamed (dev : TrustyDev) {t : List TrustyEvent}
    (ht : (trustyDevInit dev).Starts t) : (t.foldl RxtxMaps.record ⟨[], []⟩).Named := by
  have hempty : ∀ infos, (⟨infos, []⟩ : RxtxMaps).Named := fun _ => List.forall_mem_nil _
  suffices h : Tracks RxtxMaps.record RxtxMaps.Named ⟨[], []⟩ (trustyDevInit dev)
      fun _ _ => True from h.1 t ht
  have hsmc : ∀ {nr : UInt32} {a0 : UInt64}, nr ≠ smcFczFfaRxtxMap →
      (smc8 nr.toUInt64 a0 0 0 0 0 0 0).Uses NoMap := by
    intro nr a0 hnr
    exact Prog.Uses.call fun heq => hnr (UInt32.toUInt64_inj.mp heq)
  have hfast : (trustyFastCall32 smcFcApiVersion trustyApiVersionCurrent 0 0).Uses NoMap :=
    ⟨(by decide : smcFcApiVersion.toUInt64 ≠ smcFczFfaRxtxMap.toUInt64), fun _ => trivial⟩
  have hchosen : ∀ v : UInt32, (if v > trustyApiVersionCurrent then (pure none : Trusty _)
      else pure (some v)).Uses NoMap := by
    intro v
    split
    next => trivial
    next => trivial
  have hversion : trustyInitApiVersion.Uses NoMap := hfast.bind fun _ => hchosen _
  refine Tracks.bind (tracks_noMap hversion (hempty [])) ?_
  rintro version _ rfl
  cases version with
  | none => exact Tracks.ret (hempty []) trivial
  | some apiVersion =>
    dsimp only
    split
    next => exact Tracks.ret (hempty []) trivial
    next =>
      refine Tracks.bind (tracks_noMap (hsmc (by decide)) (hempty [])) ?_
      rintro ret _ rfl
      split
      next => exact tracks_abort (hempty [])
      next =>
        refine Tracks.bind (tracks_noMap (hsmc (by decide)) (hempty [])) ?_
        rintro ret _ rfl
        split
        next => exact tracks_abort (hempty [])
        next =>
          refine Tracks.bind (tracks_noMap (hsmc (by decide)) (hempty [])) ?_
          rintro ret _ rfl
          split
          next => exact tracks_abort (hempty [])
          next =>
            refine Tracks.bind (tracks_noMap (Prog.Uses.call trivial) (hempty [])) ?_
            rintro tx _ rfl
            cases tx with
            | none => exact tracks_abort (hempty [])
            | some tx =>
              refine Tracks.bind (tracks_noMap (Prog.Uses.call trivial) (hempty [])) ?_
              rintro rx _ rfl
              cases rx with
              | none => exact tracks_abort (hempty [])
              | some rx => exact mapPages_tracks ret.r2.toUInt16 tx rx

end ExternalTrusty.Dev
