import ExternalTrusty.TrustyDev

namespace ExternalTrusty.Dev

def nsPtePhysaddr (pte : UInt64) : UInt64 := pte &&& 0xFFFFFFFFF000

def nsPteApShift : UInt64 := 6
def nsPteApMask : UInt64 := 0x3 <<< nsPteApShift
def nsPteMairShift : UInt64 := 48
def nsPteMairInnerShift : UInt64 := 48
def nsPteMairOuterShift : UInt64 := 52
def nsPteShareableShift : UInt64 := 8

def nsMairNormalUncached : UInt64 := 0x44
def nsMairDeviceStronglyOrdered : UInt64 := 0x00

def nsNonShareable : UInt64 := 0x0
def nsInnerShareable : UInt64 := 0x3

def parF : UInt64 := 0x1
def parSs : UInt64 := 0x2
def parSh : UInt64 := 0x80
def parLpae : UInt64 := 0x800

/-- The attributes in the long format of a translation result, which is that of ARM64. -/
def par2attrLong (par : UInt64) : UInt64 :=
  let attr := nsPtePhysaddr par
  let attr := attr ||| (((par >>> 56) &&& 0xFF) <<< nsPteMairShift)
  let attr := attr ||| (((par >>> 7) &&& 0x03) <<< nsPteShareableShift)
  attr ||| (0x0 <<< nsPteApShift)

/-- The inner attributes by their three bits: the reserved codes are 2 and 4. -/
def ishToMair : List UInt8 := [0x04, 0x00, 0xF0, 0x04, 0xF0, 0x0F, 0x0A, 0x0E]

/-- The outer attributes by their two bits. -/
def oshToMair : List UInt8 := [0x00, 0x0F, 0x0A, 0x0E]

def innerIndex (par : UInt64) : Nat := ((par >>> 4) &&& 0x7).toNat
def outerIndex (par : UInt64) : Nat := ((par >>> 2) &&& 0x3).toNat

/-- The ARM32 `par2attr`. A super section stops it at an assertion. -/
def par2attrArm32 (par : UInt64) : Option UInt64 :=
  if par &&& parLpae ≠ 0 then some (par2attrLong par)
  else if par &&& parSs ≠ 0 then none
  else
    let attr := nsPtePhysaddr par
    let inner := (ishToMair.getD (innerIndex par) 0).toUInt64 <<< nsPteMairInnerShift
    let outer := (oshToMair.getD (outerIndex par) 0).toUInt64 <<< nsPteMairOuterShift
    let cacheAttributes := (outer <<< 4) ||| inner
    -- device memory is to be forced to normal uncached
    let attr :=
      if cacheAttributes = nsMairDeviceStronglyOrdered then
        attr ||| (nsMairNormalUncached <<< nsPteMairShift)
      else attr ||| inner ||| outer
    let attr :=
      if par &&& parSh ≠ 0 then attr ||| (nsInnerShareable <<< nsPteShareableShift)
      else attr ||| (nsNonShareable <<< nsPteShareableShift)
    some (attr ||| (0x0 <<< nsPteApShift))

inductive ArmArch
  | arm32
  | arm64
  deriving DecidableEq

def ArmArch.par2attr : ArmArch → UInt64 → Option UInt64
  | .arm32, par => par2attrArm32 par
  | .arm64, par => some (par2attrLong par)

/-- `trusty_encode_page_info`, for the result of the translation and what `*inf` holds before. -/
def trustyEncodePageInfo (arch : ArmArch) (par : UInt64) (inf : NsMemPageInfo) :
    Option (Int × NsMemPageInfo) :=
  if par &&& parF ≠ 0 then some (-1, inf)
  else (arch.par2attr par).map fun attr => (0, { inf with attr := attr })

theorem or_and_distrib (x y z : UInt64) : (x ||| y) &&& z = (x &&& z) ||| (y &&& z) :=
  UInt64.toBitVec_inj.mp BitVec.and_or_distrib_right

/-- What lies outside a mask is lost to it. -/
theorem or_outside {x y mask : UInt64} (h : y &&& mask = 0) : (x ||| y) &&& mask = x &&& mask := by
  rw [or_and_distrib, h, UInt64.or_zero]

theorem nsPtePhysaddr_idem (par : UInt64) :
    nsPtePhysaddr (nsPtePhysaddr par) = nsPtePhysaddr par := by
  unfold nsPtePhysaddr
  rw [UInt64.and_assoc, UInt64.and_self]

theorem nsPtePhysaddr_long (par : UInt64) :
    nsPtePhysaddr (par2attrLong par) = nsPtePhysaddr par := by
  have hfield : ∀ x low shift : UInt64, (low <<< shift) &&& 0xFFFFFFFFF000 = 0 →
      ((x &&& low) <<< shift) &&& 0xFFFFFFFFF000 = 0 := by
    intro x low shift h
    rw [UInt64.shiftLeft_and, UInt64.and_assoc, h, UInt64.and_zero]
  have hap : (0x0 <<< nsPteApShift) &&& 0xFFFFFFFFF000 = 0 := by decide
  have hmair := hfield (par >>> 56) 0xFF nsPteMairShift (by decide)
  have hshare := hfield (par >>> 7) 0x03 nsPteShareableShift (by decide)
  have hidem := nsPtePhysaddr_idem par
  simp only [nsPtePhysaddr] at hidem
  simp only [par2attrLong, nsPtePhysaddr]
  rw [or_outside hap, or_outside hshare, or_outside hmair, hidem]

/-- A result in the short format, of a section or page, that is no fault. -/
def ShortFormat (par : UInt64) : Prop :=
  par &&& parLpae = 0 ∧ par &&& parSs = 0 ∧ par &&& parF = 0

/-- What goes into the attributes besides the address, by the codes of the two caches and
shareability. -/
def shortAttributes (inner outer : Nat) (shareable : Bool) : UInt64 :=
  let inner := (ishToMair.getD inner 0).toUInt64 <<< nsPteMairInnerShift
  let outer := (oshToMair.getD outer 0).toUInt64 <<< nsPteMairOuterShift
  (if (outer <<< 4) ||| inner = nsMairDeviceStronglyOrdered then
    nsMairNormalUncached <<< nsPteMairShift else inner ||| outer) |||
  (if shareable then nsInnerShareable else nsNonShareable) <<< nsPteShareableShift

theorem par2attrArm32_short {par : UInt64} (h : ShortFormat par) :
    par2attrArm32 par = some (nsPtePhysaddr par |||
      shortAttributes (innerIndex par) (outerIndex par) (decide (par &&& parSh ≠ 0))) := by
  obtain ⟨hlpae, hss, _⟩ := h
  have hap : (0x0 : UInt64) <<< nsPteApShift = 0 := by decide
  rw [par2attrArm32, if_neg (not_not_intro hlpae), if_neg (not_not_intro hss)]
  simp only [shortAttributes, hap, UInt64.or_zero, decide_eq_true_eq]
  congr 1
  split
  next =>
    split
    next => simp only [UInt64.or_assoc]
    next => simp only [UInt64.or_assoc]
  next =>
    split
    next => simp only [UInt64.or_assoc]
    next => simp only [UInt64.or_assoc]

def attrMair (attr : UInt64) : UInt64 := (attr >>> nsPteMairShift) &&& 0xFF

def attrShareable (attr : UInt64) : UInt64 := (attr >>> nsPteShareableShift) &&& 0x3

/-- A device's encoding has no outer nibble. -/
def IsDeviceMair (mair : UInt64) : Prop := mair >>> 4 = 0

instance (mair : UInt64) : Decidable (IsDeviceMair mair) := inferInstanceAs (Decidable (_ = _))

/-- The attributes name the page that was translated, as normal memory that the program may
write, with its shareability; memory that is not cached at all is so for the secure side, too. -/
structure EncodesNormal (par attr : UInt64) : Prop where
  physaddr : nsPtePhysaddr attr = nsPtePhysaddr par
  ap : attr &&& nsPteApMask = 0
  shareable : attrShareable attr = if par &&& parSh ≠ 0 then nsInnerShareable else nsNonShareable
  normal : ¬IsDeviceMair (attrMair attr)
  uncached : innerIndex par = 0 → outerIndex par = 0 → attrMair attr = nsMairNormalUncached

theorem innerIndex_lt (par : UInt64) : innerIndex par < 8 := by
  have hle : innerIndex par ≤ 7 := by
    rw [innerIndex, UInt64.toNat_and]
    exact Nat.and_le_right
  omega

theorem outerIndex_lt (par : UInt64) : outerIndex par < 4 := by
  have hle : outerIndex par ≤ 3 := by
    rw [outerIndex, UInt64.toNat_and]
    exact Nat.and_le_right
  omega

/-- Each field of the attributes stays in its own bits, whatever the codes. -/
theorem shortAttributes_fields : ∀ inner < 8, ∀ outer < 4, ∀ shareable : Bool,
    nsPtePhysaddr (shortAttributes inner outer shareable) = 0 ∧
      shortAttributes inner outer shareable &&& nsPteApMask = 0 ∧
      attrShareable (shortAttributes inner outer shareable) =
        if shareable then nsInnerShareable else nsNonShareable := by
  decide

/-- A cached outer attribute, or an inner one that is strongly ordered or a reserved code. -/
def FillsOuter (inner outer : Nat) : Prop := outer ≠ 0 ∨ inner = 1 ∨ inner = 2 ∨ inner = 4

instance (inner outer : Nat) : Decidable (FillsOuter inner outer) :=
  inferInstanceAs (Decidable (_ ∨ _))

theorem shortAttributes_mair : ∀ inner < 8, ∀ outer < 4, ∀ shareable : Bool,
    ¬IsDeviceMair (attrMair (shortAttributes inner outer shareable)) ↔ FillsOuter inner outer := by
  decide

/-- The address and the other attributes do not meet. -/
theorem physaddr_apart (par low : UInt64) :
    (nsPtePhysaddr par ||| low) &&& nsPteApMask = low &&& nsPteApMask ∧
      attrShareable (nsPtePhysaddr par ||| low) = attrShareable low ∧
      attrMair (nsPtePhysaddr par ||| low) = attrMair low := by
  have hshift : ∀ shift mask : UInt64, (0xFFFFFFFFF000 >>> shift) &&& mask = 0 →
      ((nsPtePhysaddr par ||| low) >>> shift) &&& mask = (low >>> shift) &&& mask := by
    intro shift mask h
    have haddr : (nsPtePhysaddr par >>> shift) &&& mask = 0 := by
      rw [nsPtePhysaddr, UInt64.shiftRight_and, UInt64.and_assoc, h, UInt64.and_zero]
    rw [UInt64.shiftRight_or, or_and_distrib, haddr, UInt64.zero_or]
  refine ⟨?_, hshift nsPteShareableShift 0x3 (by decide), hshift nsPteMairShift 0xFF (by decide)⟩
  have hap := hshift 0 nsPteApMask (by decide)
  simpa only [UInt64.shiftRight_zero] using hap

/-- In the short format, memory comes out as normal memory exactly when its outer attribute is a
cached one, or the inner attribute is strongly ordered or a reserved code. -/
theorem par2attrArm32_normal_iff {par : UInt64} (h : ShortFormat par) :
    (∃ attr, par2attrArm32 par = some attr ∧ EncodesNormal par attr) ↔
      FillsOuter (innerIndex par) (outerIndex par) := by
  obtain ⟨hphys, hap, hshare⟩ := shortAttributes_fields (innerIndex par) (innerIndex_lt par)
    (outerIndex par) (outerIndex_lt par) (decide (par &&& parSh ≠ 0))
  have hnormal := shortAttributes_mair (innerIndex par) (innerIndex_lt par) (outerIndex par)
    (outerIndex_lt par) (decide (par &&& parSh ≠ 0))
  obtain ⟨hap', hshare', hmair'⟩ := physaddr_apart par
    (shortAttributes (innerIndex par) (outerIndex par) (decide (par &&& parSh ≠ 0)))
  rw [par2attrArm32_short h]
  constructor
  · rintro ⟨_, hattr, henc⟩
    cases hattr
    have hmair := henc.normal
    rw [hmair'] at hmair
    exact hnormal.mp hmair
  · intro hcond
    refine ⟨_, rfl, ?_, ?_, ?_, ?_, ?_⟩
    · rw [nsPtePhysaddr, or_outside hphys]
      exact nsPtePhysaddr_idem par
    · rw [hap', hap]
    · rw [hshare', hshare]
      simp only [decide_eq_true_eq]
    · rw [hmair']
      exact hnormal.mpr hcond
    · intro hinner houter
      rw [hinner, houter] at hcond
      exact absurd hcond (by decide)

/-- A shareable page at 0x80000000, written back and allocated on both levels. -/
theorem writeBack_normal :
    (∃ attr, par2attrArm32 0x800000D4 = some attr ∧ EncodesNormal 0x800000D4 attr) ↔
      FillsOuter (innerIndex 0x800000D4) (outerIndex 0x800000D4) :=
  par2attrArm32_normal_iff ⟨by decide, by decide, by decide⟩

/-- The page at 0x80000000, cached on neither level, comes out as device memory. -/
theorem nonCacheable_device : par2attrArm32 0x80000000 = some 0x0004000080000000 ∧
    attrMair 0x0004000080000000 = 0x04 ∧
    ¬∃ attr, par2attrArm32 0x80000000 = some attr ∧ EncodesNormal 0x80000000 attr := by
  have hattr : par2attrArm32 0x80000000 = some 0x0004000080000000 := by decide
  refine ⟨hattr, by decide, ?_⟩
  rintro ⟨attr, h, henc⟩
  rw [hattr] at h
  cases h
  exact absurd henc.normal (by decide)

end ExternalTrusty.Dev
