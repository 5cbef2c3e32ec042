import ExternalTrusty.Bytes

namespace CMemory

variable {α β : Type}

/-- A format: how values are written and read back, and which of them come back unchanged. -/
structure Codec (α : Type) where
  encode : α → List UInt8
  decode : List UInt8 → Option (α × List UInt8)
  Fits : α → Prop
  roundTrip : ∀ a, Fits a → ∀ rest, decode (encode a ++ rest) = some (a, rest)

namespace Codec

/-- What is read back is the value alone. -/
theorem decode_encode (c : Codec α) {a : α} (h : c.Fits a) :
    c.decode (c.encode a) = some (a, []) := by
  have whole := c.roundTrip a h []
  rwa [List.append_nil] at whole

/-- A 32-bit number in little-endian order. -/
def uint32 : Codec UInt32 where
  encode v := leBytes 4 v.toNat
  decode bs :=
    if 4 ≤ bs.length then some (UInt32.ofNat (leNat (bs.take 4)), bs.drop 4) else none
  Fits _ := True
  roundTrip v _ rest := by
    have len := leBytes_length 4 v.toNat
    have back : v.toNat % 256 ^ 4 = v.toNat := Nat.mod_eq_of_lt v.toNat_lt
    rw [if_pos (by rw [List.length_append]; omega), List.take_left' len, List.drop_left' len,
      leNat_leBytes, back, UInt32.ofNat_toNat]

/-- A byte string behind its length. -/
def sized : Codec (List UInt8) where
  encode bs := leBytes 4 bs.length ++ bs
  decode bs := do
    let (n, bs) ← uint32.decode bs
    if n.toNat ≤ bs.length then some (bs.take n.toNat, bs.drop n.toNat) else none
  Fits bs := bs.length < 2 ^ 32
  roundTrip bs short rest := by
    have count : (UInt32.ofNat bs.length).toNat = bs.length := UInt32.toNat_ofNat_of_lt short
    have head := uint32.roundTrip (UInt32.ofNat bs.length) trivial (bs ++ rest)
    change uint32.decode (leBytes 4 (UInt32.ofNat bs.length).toNat ++ (bs ++ rest)) = _ at head
    rw [count] at head
    rw [List.append_assoc, head, Option.bind_eq_bind, Option.bind_some]
    simp only [count]
    rw [if_pos (by rw [List.length_append]; omega), List.take_left, List.drop_left]

/-- One value after the other. -/
def pair (c : Codec α) (d : Codec β) : Codec (α × β) where
  encode ab := c.encode ab.1 ++ d.encode ab.2
  decode bs := do
    let (a, bs) ← c.decode bs
    let (b, bs) ← d.decode bs
    some ((a, b), bs)
  Fits ab := c.Fits ab.1 ∧ d.Fits ab.2
  roundTrip ab fits rest := by
    simp only [List.append_assoc, c.roundTrip ab.1 fits.1, Option.bind_eq_bind, Option.bind_some,
      d.roundTrip ab.2 fits.2]

end Codec

end CMemory
