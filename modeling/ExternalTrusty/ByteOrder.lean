import ExternalTrusty.BlockSwap

namespace ExternalTrusty.TestRunner

open CBits CMemory

/-! `arm64/boot.c` -/

/-- The loop of `rev` -/
def revLoop (mask val : BitVec 64) (shift : Nat) : BitVec 64 :=
  if shift ≥ 8 then
    let mask := mask ^^^ (mask <<< shift)
    let val := ((val >>> shift) &&& mask) ||| ((val &&& mask) <<< shift)
    revLoop mask val (shift >>> 1)
  else val
termination_by shift
decreasing_by
  rw [Nat.shiftRight_one]
  omega

def rev (val : UInt64) (bits : Nat) : UInt64 :=
  ⟨revLoop (BitVec.allOnes 64) val.toBitVec (bits >>> 1)⟩

def rev16 (val : UInt16) : UInt16 := (rev val.toUInt64 16).toUInt16
def rev32 (val : UInt32) : UInt32 := (rev val.toUInt64 32).toUInt32
def rev64 (val : UInt64) : UInt64 := rev val 64

/-- One turn of the loop swaps the halves of the blocks. -/
theorem revLoop_turn {mask val : BitVec 64} {s : Nat} (h : 8 ≤ s) :
    revLoop mask val s = revLoop (mask ^^^ (mask <<< s))
      (swapHalves (mask ^^^ (mask <<< s)) s val) (s / 2) := by
  rw [revLoop, if_pos h, Nat.shiftRight_one]
  rfl

/-- Before each turn the mask leads to that of the lower halves, and the blocks are in the opposite
order; the loop ends with blocks of one byte. -/
theorem revLoop_mirrored {bits : Nat} {v : BitVec 64} (hbits : bits ≤ 64) (k : Nat) :
    ∀ {mask val : BitVec 64}, 2 * (8 * 2 ^ k) ∣ bits →
      LowMask bits (8 * 2 ^ k) (mask ^^^ (mask <<< (8 * 2 ^ k))) →
      Mirrored bits (2 * (8 * 2 ^ k)) v val →
      Mirrored bits 8 v (revLoop mask val (8 * 2 ^ k)) := by
  induction k with
  | zero =>
    intro mask val hdvd hmask hval
    have hdone : ¬4 ≥ 8 := by decide
    change Mirrored bits 8 v (revLoop mask val 8)
    rw [revLoop_turn (Nat.le_refl 8), revLoop, if_neg hdone]
    exact hval.swap hmask (by decide) hdvd hbits
  | succ k ih =>
    intro mask val hdvd hmask hval
    have hpos : 0 < 2 ^ k := Nat.two_pow_pos k
    have hdouble : 8 * 2 ^ (k + 1) = 2 * (8 * 2 ^ k) := by ring
    rw [hdouble] at hdvd hmask hval ⊢
    rw [revLoop_turn (by omega), Nat.mul_div_cancel_left _ (by decide)]
    refine ih (Nat.dvd_trans ⟨2, by ring⟩ hdvd) ?_ ?_
    · exact hmask.halve (by omega) hdvd hbits
    · exact hval.swap hmask (by omega) hdvd hbits

/-- What `rev` does to the bits of a number. -/
theorem rev_mirrored {bits : Nat} (hbits : bits ∈ [16, 32, 64]) {val : UInt64}
    (hval : val.toNat < 2 ^ bits) : Mirrored bits 8 val.toBitVec (rev val bits).toBitVec := by
  have hwhole : Mirrored bits bits val.toBitVec val.toBitVec := Mirrored.whole hval
  simp only [List.mem_cons, List.not_mem_nil, or_false] at hbits
  rcases hbits with rfl | rfl | rfl
  · exact revLoop_mirrored (by decide) 0 (by decide) (LowMask.first (by decide)) hwhole
  · exact revLoop_mirrored (by decide) 1 (by decide) (LowMask.first (by decide)) hwhole
  · exact revLoop_mirrored (by decide) 2 (by decide) (LowMask.first (by decide)) hwhole

/-- `r` has the bytes of `val` in the opposite order, and nothing above them. -/
structure Reverses (bits : Nat) (val r : UInt64) : Prop where
  bytes : leBytes (bits / 8) r.toNat = (leBytes (bits / 8) val.toNat).reverse
  below : r.toNat < 2 ^ bits
  again : rev r bits = val

theorem rev_reverses {bits : Nat} (hbits : bits ∈ [16, 32, 64]) {val : UInt64}
    (hval : val.toNat < 2 ^ bits) : Reverses bits val (rev val bits) := by
  have hrev := rev_mirrored hbits hval
  have hback := rev_mirrored hbits hrev.lt
  obtain ⟨k, rfl⟩ : ∃ k, bits = 8 * k := by
    simp only [List.mem_cons, List.not_mem_nil, or_false] at hbits
    exact ⟨bits / 8, by omega⟩
  refine ⟨?_, hrev.lt, ?_⟩
  · rw [Nat.mul_div_cancel_left k (by decide)]
    exact hrev.leBytes_eq
  · exact UInt64.toBitVec_inj.mp (hrev.twice hback hval)

/-! The two byte orders. -/

/-- A number in memory, most significant byte first. -/
def beBytes (n v : Nat) : List UInt8 := (leBytes n v).reverse

def beNat (bs : List UInt8) : Nat := leNat bs.reverse

theorem beNat_beBytes {n v : Nat} (h : v < 256 ^ n) : beNat (beBytes n v) = v := by
  rw [beNat, beBytes, List.reverse_reverse, leNat_leBytes, Nat.mod_eq_of_lt h]

/-- On numbers of `n` bytes `f` converts between the CPU's little-endian order and a big-endian
one, both ways: what it is given to store, and what was loaded. -/
structure Converts {α : Type} (n : Nat) (toNat : α → Nat) (ofNat : Nat → α) (f : α → α) : Prop where
  stored : ∀ v, leBytes n (toNat (f v)) = beBytes n (toNat v)
  loaded : ∀ v, f (ofNat (leNat (beBytes n (toNat v)))) = v
  inverse : ∀ v, f (f v) = v

/-- A conversion follows from what it does to the bytes. -/
theorem Converts.of_bytes {α : Type} {n : Nat} {toNat : α → Nat} {ofNat : Nat → α} {f : α → α}
    (hof : ∀ v, ofNat (toNat v) = v) (hlt : ∀ v, toNat v < 256 ^ n)
    (hbytes : ∀ v, leBytes n (toNat (f v)) = (leBytes n (toNat v)).reverse) :
    Converts n toNat ofNat f := by
  have hvalue : ∀ v, leNat (leBytes n (toNat v)) = toNat v := by
    intro v
    rw [leNat_leBytes, Nat.mod_eq_of_lt (hlt v)]
  have htwice : ∀ v, f (f v) = v := by
    intro v
    have hsame : leBytes n (toNat (f (f v))) = leBytes n (toNat v) := by
      rw [hbytes, hbytes, List.reverse_reverse]
    rw [← hof (f (f v)), ← hvalue (f (f v)), hsame, hvalue, hof]
  refine ⟨hbytes, ?_, htwice⟩
  intro v
  rw [beBytes, ← hbytes, hvalue, hof, htwice]

theorem rev16_converts : Converts 2 UInt16.toNat UInt16.ofNat rev16 := by
  refine Converts.of_bytes (fun v => UInt16.ofNat_toNat) (fun v => v.toNat_lt) ?_
  intro v
  have hval : v.toUInt64.toNat < 2 ^ 16 := v.toNat_lt
  obtain ⟨hbytes, hbelow, _⟩ := @rev_reverses 16 (by decide) _ hval
  have hsame : (rev16 v).toNat = (rev v.toUInt64 16).toNat := Nat.mod_eq_of_lt hbelow
  rw [hsame]
  exact hbytes

theorem rev32_converts : Converts 4 UInt32.toNat UInt32.ofNat rev32 := by
  refine Converts.of_bytes (fun v => UInt32.ofNat_toNat) (fun v => v.toNat_lt) ?_
  intro v
  have hval : v.toUInt64.toNat < 2 ^ 32 := v.toNat_lt
  obtain ⟨hbytes, hbelow, _⟩ := @rev_reverses 32 (by decide) _ hval
  have hsame : (rev32 v).toNat = (rev v.toUInt64 32).toNat := Nat.mod_eq_of_lt hbelow
  rw [hsame]
  exact hbytes

theorem rev64_converts : Converts 8 UInt64.toNat UInt64.ofNat rev64 := by
  refine Converts.of_bytes (fun v => UInt64.ofNat_toNat) (fun v => v.toNat_lt) ?_
  intro v
  exact (@rev_reverses 64 (by decide) v v.toNat_lt).bytes

theorem rev_swaps_bytes (bits : Nat) (hbits : bits ∈ [16, 32, 64]) (val : UInt64)
    (hval : val.toNat < 2 ^ bits) :
    Reverses bits val (rev val bits) ∧ Converts 2 UInt16.toNat UInt16.ofNat rev16 ∧
      Converts 4 UInt32.toNat UInt32.ofNat rev32 ∧ Converts 8 UInt64.toNat UInt64.ofNat rev64 :=
  ⟨rev_reverses hbits hval, rev16_converts, rev32_converts, rev64_converts⟩

/-- A number of three bytes, as one of four. -/
theorem rev_threeBytes : Reverses 32 0x030201 (rev 0x030201 32) ∧
    Converts 2 UInt16.toNat UInt16.ofNat rev16 ∧ Converts 4 UInt32.toNat UInt32.ofNat rev32 ∧
      Converts 8 UInt64.toNat UInt64.ofNat rev64 :=
  rev_swaps_bytes 32 (by decide) 0x030201 (by decide)

/-! `load_image` -/

def fwCfgDmaCtlRead : UInt32 := 0x02
def fwCfgDmaCtlSelect : UInt32 := 0x08

/-- The descriptor of a transfer -/
structure Dma where
  control : UInt32
  length : UInt32
  address : UInt64
  deriving DecidableEq

/-- The registers of `FW_CFG`, as the loads and stores of the CPU reach them; a store to the last
of them starts a transfer, and leaves a new `control` in its descriptor. -/
structure CfgRegisters (σ : Type) where
  storeCtl : UInt16 → σ → σ
  loadData : σ → UInt32 × σ
  storeDma : UInt64 → Dma → σ → UInt32 × σ

def loadImage {σ : Type} (cfg : CfgRegisters σ) (addr : UInt64) (cfgData cfgSize : UInt16)
    (dma : UInt64) (s : σ) : Bool × σ :=
  let control := rev32 (fwCfgDmaCtlRead ||| fwCfgDmaCtlSelect ||| cfgData.toUInt32 <<< 16)
  let s := cfg.storeCtl (rev16 cfgSize) s
  let (data, s) := cfg.loadData s
  let length := rev32 data
  if length = 0 then (false, s)
  else
    let address := rev64 addr
    let (control, s) := cfg.storeDma (rev64 dma) ⟨control, length, address⟩ s
    if control ≠ 0 then (false, s) else (true, s)

/-- The interface in its own terms: an item is selected, its first four bytes are loaded, and a
transfer ends with a status. -/
structure FwCfg (σ : Type) where
  select : Nat → σ → σ
  size : σ → UInt32 × σ
  transfer : Nat → Nat → Nat → Nat → σ → UInt32 × σ

/-- The registers of a big-endian interface. -/
def FwCfg.registers {σ : Type} (d : FwCfg σ) : CfgRegisters σ where
  storeCtl v s := d.select (beNat (leBytes 2 v.toNat)) s
  loadData := d.size
  storeDma p dma s :=
    let (status, s) := d.transfer (beNat (leBytes 8 p.toNat)) (beNat (leBytes 4 dma.control.toNat))
      (beNat (leBytes 4 dma.length.toNat)) (beNat (leBytes 8 dma.address.toNat)) s
    (UInt32.ofNat (leNat (beBytes 4 status.toNat)), s)

theorem Converts.read {α : Type} {n : Nat} {toNat : α → Nat} {ofNat : Nat → α} {f : α → α}
    (h : Converts n toNat ofNat f) {v : α} (hv : toNat v < 256 ^ n) :
    beNat (leBytes n (toNat (f v))) = toNat v := by
  rw [h.stored, beNat_beBytes hv]

theorem beBytes_zero (n : Nat) : leNat (beBytes n 0) = 0 := by
  have hzero : leNat (leBytes n 0) = 0 := by rw [leNat_leBytes, Nat.zero_mod]
  rw [leNat_eq_zero] at hzero ⊢
  exact fun b hb => hzero b (List.mem_reverse.mp hb)

theorem rev32_zero : rev32 0 = 0 := by
  have hloaded := rev32_converts.loaded 0
  rwa [UInt32.toNat_zero, beBytes_zero] at hloaded

theorem rev32_eq_zero {v : UInt32} : rev32 v = 0 ↔ v = 0 := by
  constructor
  · intro h
    rw [← rev32_converts.inverse v, h, rev32_zero]
  · rintro rfl
    exact rev32_zero

/-- Only a status of 0 is found to be 0. -/
theorem loaded_eq_zero {v : UInt32} : UInt32.ofNat (leNat (beBytes 4 v.toNat)) = 0 ↔ v = 0 := by
  rw [← rev32_eq_zero, rev32_converts.loaded]

/-- The interface gets its numbers in its own order: the item of the size, and then a transfer of
that many bytes of the item of the data, to the address of the image. -/
theorem loadImage_asks {σ : Type} (d : FwCfg σ) (addr : UInt64) (cfgData cfgSize : UInt16)
    (dma : UInt64) (s : σ) : loadImage d.registers addr cfgData cfgSize dma s =
      let (size, s) := d.size (d.select cfgSize.toNat s)
      if size = 0 then (false, s)
      else
        let (status, s) := d.transfer dma.toNat
          (fwCfgDmaCtlRead ||| fwCfgDmaCtlSelect ||| cfgData.toUInt32 <<< 16).toNat size.toNat
          addr.toNat s
        if status ≠ 0 then (false, s) else (true, s) := by
  have h16 : ∀ v : UInt16, beNat (leBytes 2 (rev16 v).toNat) = v.toNat :=
    fun v => rev16_converts.read v.toNat_lt
  have h32 : ∀ v : UInt32, beNat (leBytes 4 (rev32 v).toNat) = v.toNat :=
    fun v => rev32_converts.read v.toNat_lt
  have h64 : ∀ v : UInt64, beNat (leBytes 8 (rev64 v).toNat) = v.toNat :=
    fun v => rev64_converts.read v.toNat_lt
  simp only [loadImage, FwCfg.registers, h16, h32, h64, ne_eq, loaded_eq_zero, rev32_eq_zero]

end ExternalTrusty.TestRunner
