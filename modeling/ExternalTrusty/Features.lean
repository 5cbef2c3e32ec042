import ExternalTrusty.MachineInt
import Mathlib.Logic.Function.Basic

namespace ExternalTrusty.TestRunner

/-! `virtio-mmio.c` and `virtio-pci.c` -/

inductive FeatureReg
  | hostFeatures
  | hostFeaturesSel
  | guestFeatures
  | guestFeaturesSel
  deriving DecidableEq

/-- Where a transport has the registers. -/
structure FeatureLayout where
  offset : FeatureReg → Nat
  distinct : ∀ r r', offset r = offset r' → r = r'

/-- `struct virtio_mmio_config` -/
def mmioLayout : FeatureLayout where
  offset
    | .hostFeatures => 0x10
    | .hostFeaturesSel => 0x14
    | .guestFeatures => 0x20
    | .guestFeaturesSel => 0x24
  distinct r r' h := by
    cases r <;> cases r' <;> first | rfl | exact absurd h (by decide)

/-- `struct virtio_pci_common_cfg` -/
def pciLayout : FeatureLayout where
  offset
    | .hostFeaturesSel => 0x0
    | .hostFeatures => 0x4
    | .guestFeaturesSel => 0x8
    | .guestFeatures => 0xc
  distinct r r' h := by
    cases r <;> cases r' <;> first | rfl | exact absurd h (by decide)

/-- A device with a word of features for each value of a selector. -/
structure FeatureDevice where
  hostSel : UInt32
  host : UInt32 → UInt32
  guestSel : UInt32
  guest : UInt32 → UInt32

def FeatureDevice.store (d : FeatureDevice) : FeatureReg → UInt32 → FeatureDevice
  | .hostFeatures, _ => d
  | .hostFeaturesSel, v => { d with hostSel := v }
  | .guestFeatures, v => { d with guest := Function.update d.guest d.guestSel v }
  | .guestFeaturesSel, v => { d with guestSel := v }

def FeatureDevice.load (d : FeatureDevice) : FeatureReg → UInt32
  | .hostFeatures => d.host d.hostSel
  | .hostFeaturesSel => d.hostSel
  | .guestFeatures => d.guest d.guestSel
  | .guestFeaturesSel => d.guestSel

namespace FeatureLayout

variable (l : FeatureLayout)

/-- The register at an offset -/
def at? (off : Nat) : Option FeatureReg :=
  [.hostFeatures, .hostFeaturesSel, .guestFeatures, .guestFeaturesSel].find?
    fun r => l.offset r = off

/-- What a device with this layout does at a store to an offset, and what is loaded from one. -/
def ioWrite32 (off : Nat) (v : UInt32) (d : FeatureDevice) : FeatureDevice :=
  match l.at? off with
  | some r => d.store r v
  | none => d

def ioRead32 (off : Nat) (d : FeatureDevice) : UInt32 :=
  match l.at? off with
  | some r => d.load r
  | none => 0

def virtioSetFeatures (features : UInt64) (d : FeatureDevice) : FeatureDevice :=
  let d := l.ioWrite32 (l.offset .guestFeaturesSel) 0 d
  let d := l.ioWrite32 (l.offset .guestFeatures) (features &&& 0xFFFF).toUInt32 d
  let d := l.ioWrite32 (l.offset .guestFeaturesSel) 1 d
  l.ioWrite32 (l.offset .guestFeatures) (features >>> 32).toUInt32 d

def virtioGetFeatures (d : FeatureDevice) : UInt64 × FeatureDevice :=
  let d := l.ioWrite32 (l.offset .hostFeaturesSel) 1 d
  let features := (l.ioRead32 (l.offset .hostFeatures) d).toUInt64
  let features := features <<< 32
  let d := l.ioWrite32 (l.offset .hostFeaturesSel) 0 d
  let features := features ||| (l.ioRead32 (l.offset .hostFeatures) d).toUInt64
  (features, d)

@[simp] theorem at?_offset (r : FeatureReg) : l.at? (l.offset r) = some r := by
  have hsome : ∃ r', l.at? (l.offset r) = some r' := by
    rw [← Option.isSome_iff_exists, at?, List.find?_isSome]
    exact ⟨r, by cases r <;> simp, by simp⟩
  obtain ⟨r', hr'⟩ := hsome
  have hsame : l.offset r' = l.offset r := by
    simpa using List.find?_some hr'
  rw [hr', l.distinct _ _ hsame]

@[simp] theorem ioWrite32_offset (r : FeatureReg) (v : UInt32) (d : FeatureDevice) :
    l.ioWrite32 (l.offset r) v d = d.store r v := by
  rw [ioWrite32, at?_offset]

@[simp] theorem ioRead32_offset (r : FeatureReg) (d : FeatureDevice) :
    l.ioRead32 (l.offset r) d = d.load r := by
  rw [ioRead32, at?_offset]

/-- The words that a device has after features were set, whatever the layout. -/
theorem virtioSetFeatures_eq (f : UInt64) (d : FeatureDevice) : l.virtioSetFeatures f d =
    { d with
      guestSel := 1
      guest := Function.update (Function.update d.guest 0 (f &&& 0xFFFF).toUInt32) 1
        (f >>> 32).toUInt32 } := by
  simp only [virtioSetFeatures, ioWrite32_offset, FeatureDevice.store]

theorem virtioGetFeatures_eq (d : FeatureDevice) : l.virtioGetFeatures d =
    (((d.host 1).toUInt64 <<< 32) ||| (d.host 0).toUInt64, { d with hostSel := 0 }) := by
  simp only [virtioGetFeatures, ioWrite32_offset, ioRead32_offset, FeatureDevice.store,
    FeatureDevice.load]

end FeatureLayout

/-- A device that offers what it was given. -/
def FeatureDevice.echo (d : FeatureDevice) : FeatureDevice := { d with host := d.guest }

/-- The features come back as they were set, on either transport, and both leave the same words. -/
structure FeaturesKept (f : UInt64) : Prop where
  mmio : ∀ d, (mmioLayout.virtioGetFeatures (mmioLayout.virtioSetFeatures f d).echo).1 = f
  pci : ∀ d, (pciLayout.virtioGetFeatures (pciLayout.virtioSetFeatures f d).echo).1 = f
  agree : ∀ d, mmioLayout.virtioSetFeatures f d = pciLayout.virtioSetFeatures f d

/-- What comes back has lost the upper half of the low word. -/
theorem features_echoed (l : FeatureLayout) (f : UInt64) (d : FeatureDevice) :
    (l.virtioGetFeatures (l.virtioSetFeatures f d).echo).1.toNat =
      f.toNat / 2 ^ 32 * 2 ^ 32 + f.toNat % 2 ^ 16 := by
  have hhigh : (Function.update (Function.update d.guest 0 (f &&& 0xFFFF).toUInt32) 1
      (f >>> 32).toUInt32) 1 = (f >>> 32).toUInt32 := Function.update_self ..
  have hlow : (Function.update (Function.update d.guest 0 (f &&& 0xFFFF).toUInt32) 1
      (f >>> 32).toUInt32) 0 = (f &&& 0xFFFF).toUInt32 := by
    rw [Function.update_of_ne (by decide), Function.update_self]
  have hlt := f.toNat_lt
  have hupper : ((f >>> 32).toUInt32.toUInt64 <<< 32).toNat = f.toNat / 2 ^ 32 * 2 ^ 32 := by
    have hshift : (f >>> 32).toUInt32.toUInt64.toNat = f.toNat / 2 ^ 32 := by
      show f.toNat >>> 32 % 2 ^ 32 = f.toNat / 2 ^ 32
      rw [Nat.shiftRight_eq_div_pow]
      exact Nat.mod_eq_of_lt (by omega)
    rw [UInt64.toNat_shiftLeft, hshift]
    show (f.toNat / 2 ^ 32) <<< 32 % 2 ^ 64 = _
    rw [Nat.shiftLeft_eq]
    exact Nat.mod_eq_of_lt (by omega)
  have hlower : (f &&& 0xFFFF).toUInt32.toUInt64.toNat = f.toNat % 2 ^ 16 := by
    show (f.toNat &&& (2 ^ 16 - 1)) % 2 ^ 32 = f.toNat % 2 ^ 16
    rw [Nat.and_two_pow_sub_one_eq_mod]
    omega
  rw [l.virtioSetFeatures_eq, FeatureDevice.echo, l.virtioGetFeatures_eq]
  simp only [hhigh, hlow]
  rw [UInt64.toNat_or, hupper, hlower, ← Nat.shiftLeft_eq]
  exact (Nat.shiftLeft_add_eq_or_of_lt (by omega) _).symm

theorem features_echoed_iff (l : FeatureLayout) (f : UInt64) (d : FeatureDevice) :
    (l.virtioGetFeatures (l.virtioSetFeatures f d).echo).1 = f ↔ (f >>> 16) &&& 0xFFFF = 0 := by
  have hmiddle : ((f >>> 16) &&& 0xFFFF).toNat = f.toNat / 2 ^ 16 % 2 ^ 16 := by
    show f.toNat >>> 16 &&& (2 ^ 16 - 1) = _
    rw [Nat.and_two_pow_sub_one_eq_mod, Nat.shiftRight_eq_div_pow]
  rw [← UInt64.toNat_inj, features_echoed, ← UInt64.toNat_inj, hmiddle, UInt64.toNat_zero]
  omega

theorem featuresKept_iff (f : UInt64) : FeaturesKept f ↔ (f >>> 16) &&& 0xFFFF = 0 := by
  constructor
  · intro h
    exact (features_echoed_iff mmioLayout f ⟨0, 0, 0, 0⟩).mp (h.mmio _)
  · intro h
    refine ⟨fun d => (features_echoed_iff mmioLayout f d).mpr h,
      fun d => (features_echoed_iff pciLayout f d).mpr h, ?_⟩
    intro d
    rw [mmioLayout.virtioSetFeatures_eq, pciLayout.virtioSetFeatures_eq]

/-- Feature 16 is lost on the way. -/
theorem feature16_lost :
    (mmioLayout.virtioGetFeatures
      (mmioLayout.virtioSetFeatures 0x10000 ⟨0, fun _ => 0, 0, fun _ => 0⟩).echo).1 = 0 ∧
    ¬FeaturesKept 0x10000 := by
  have hlost : (mmioLayout.virtioGetFeatures
      (mmioLayout.virtioSetFeatures 0x10000 ⟨0, fun _ => 0, 0, fun _ => 0⟩).echo).1 = 0 := by
    decide
  refine ⟨hlost, ?_⟩
  intro h
  exact absurd (hlost.symm.trans (h.mmio _)) (by decide)

end ExternalTrusty.TestRunner
