import ExternalTrusty.ControlScan

namespace ExternalTrusty

open CMemory

/-- The bytes of a C string. -/
def cString (bs : List UInt8) : List UInt8 := bs.takeWhile (· ≠ 0)

theorem cString_append {bs : List UInt8} (h : ∀ b ∈ bs, b ≠ 0) (cs : List UInt8) :
    cString (bs ++ cs) = bs ++ cString cs :=
  List.takeWhile_append_of_pos (by simpa using h)

/-- What follows the first 0 is not of the string. -/
theorem cString_terminated (bs cs : List UInt8) : cString (bs ++ 0 :: cs) = cString bs := by
  unfold cString
  rw [List.takeWhile_append]
  split
  next h =>
    rw [List.takeWhile_cons_of_neg (by simp), List.append_nil]
    exact ((List.takeWhile_prefix _).eq_of_length h).symm
  next => rfl

theorem cString_eq_nil {bs : List UInt8} : cString bs = [] ↔ ∀ b, bs[0]? = some b → b = 0 := by
  cases bs with
  | nil => simp [cString]
  | cons b bs => simp [cString, List.takeWhile_cons]

/-- The string that `memcpy` and the final 0 leave in a name. -/
theorem copyName_string (p : Port) (src : List UInt8) (n : Fin maxPortNameSize)
    (h : n ≤ src.length) :
    cString ((p.copyName src n).setName n 0).name = cString (src.take n) := by
  have hlen : (src.take n).length = n := by
    rw [List.length_take]
    exact Nat.min_eq_left h
  obtain ⟨old, rest, hrest⟩ : ∃ old rest, p.name.drop n = old :: rest :=
    List.exists_cons_of_ne_nil (by
      rw [ne_eq, List.drop_eq_nil_iff, p.size]
      exact Nat.not_le.mpr n.isLt)
  have hname : ((p.copyName src n).setName n 0).name = src.take n ++ 0 :: rest := by
    show (overlay (src.take n) p.name).set n 0 = _
    rw [overlay, hlen, hrest, List.set_append_right _ _ (Nat.le_of_eq hlen), hlen, Nat.sub_self]
    rfl
  rw [hname, cString_terminated]

/-- The bytes after the header, of which there are as many as the message says. -/
def HostMessage.name (m : HostMessage) : List UInt8 := m.msg.drop 8

/-- A `PORT_NAME` with a name that fits, for a port of the table. -/
structure HostMessage.NamesPort (m : HostMessage) : Prop where
  event : m.event = VirtioConsoleEvent.portName.code
  inTable : m.id.toNat < maxPorts
  nonzero : ∀ b ∈ m.name, b ≠ 0
  short : m.name.length ≤ 63

/-- The name that the last message leaves, as a C string. -/
def nameAfter (ports : Nat → Port) (slots : Fin vqSize → Cmsg) (before : List HostMessage)
    (m : HostMessage) : List UInt8 :=
  cString ((controlScan ports slots (before ++ [m])).ports m.id.toNat).name

/-- The byte that follows the message in its buffer. -/
def byteBehind (ports : Nat → Port) (slots : Fin vqSize → Cmsg) (before : List HostMessage)
    (m : HostMessage) : UInt8 :=
  (((controlScan ports slots before).slots (slotOf before.length)).bytes[m.msg.length]?).getD 0

section Names

variable {m : HostMessage}

theorem HostMessage.msg_length (m : HostMessage) : m.msg.length = 8 + m.name.length := by
  have hheader := m.header
  rw [HostMessage.name, List.length_drop]
  omega

/-- What is copied is the name, and then what follows the message in the buffer. -/
theorem put_name (h : m.NamesPort) (c : Cmsg) :
    ((c.put m).bytes.drop 8).take (nameBytes m.msg.length) =
      m.name ++ (c.bytes.drop m.msg.length).take (min 8 (63 - m.name.length)) := by
  have hheader := m.header
  have hlen := m.msg_length
  have hshort := h.short
  have hdrop : (c.put m).bytes.drop 8 = m.name ++ c.bytes.drop m.msg.length :=
    List.drop_append_of_le_length hheader
  have hbytes : (nameBytes m.msg.length : Nat) = min m.msg.length 63 := rfl
  rw [hdrop, List.take_append, hbytes, List.take_of_length_le (by omega)]
  congr 2
  omega

theorem nameAfter_eq (h : m.NamesPort) (ports : Nat → Port) (slots : Fin vqSize → Cmsg)
    (before : List HostMessage) : nameAfter ports slots before m =
      m.name ++ cString ((((controlScan ports slots before).slots
        (slotOf before.length)).bytes.drop m.msg.length).take (min 8 (63 - m.name.length))) := by
  have hother : ¬VirtioConsoleEvent.portName.code = VirtioConsoleEvent.deviceAdd.code := by decide
  have hremove : ¬VirtioConsoleEvent.portName.code = VirtioConsoleEvent.deviceRemove.code := by
    decide
  have hlen := m.msg_length
  let w := controlScan ports slots before
  let c := w.slots (slotOf before.length)
  have hports : (controlScan ports slots (before ++ [m])).ports m.id.toNat =
      m.changes c (w.ports m.id.toNat) := by
    rw [controlScan, controlLoop_append, Nat.zero_add]
    show (controlMsg w (slotOf before.length) m).ports m.id.toNat = _
    rw [(controlMsg_spec w (slotOf before.length) m).1, Function.update_self]
  have hroom : (nameBytes m.msg.length : Nat) ≤ ((c.put m).bytes.drop 8).length := by
    have hbytes : (nameBytes m.msg.length : Nat) = min m.msg.length 63 := rfl
    rw [List.length_drop, (c.put m).size]
    omega
  rw [nameAfter, hports, HostMessage.changes, h.event, if_neg hother, if_neg hremove, if_pos rfl,
    copyName_string _ _ _ hroom, put_name h c, cString_append h.nonzero]

end Names

/-- The host's name is what is left exactly if nothing of the buffer's old contents is copied, or
its first byte is 0. -/
theorem nameAfter_exact_iff {m : HostMessage} (h : m.NamesPort) (ports : Nat → Port)
    (slots : Fin vqSize → Cmsg) (before : List HostMessage) :
    nameAfter ports slots before m = m.name ↔
      m.name.length = 63 ∨ byteBehind ports slots before m = 0 := by
  have hlen := m.msg_length
  have hshort := h.short
  have hbehind : byteBehind ports slots before m = 0 ↔ ∀ b,
      (((controlScan ports slots before).slots (slotOf before.length)).bytes.drop
        m.msg.length)[0]? = some b → b = 0 := by
    rw [byteBehind, List.getElem?_drop, Nat.add_zero]
    cases ((controlScan ports slots before).slots (slotOf before.length)).bytes[m.msg.length]? with
    | none => simp
    | some b => simp
  rw [nameAfter_eq h, List.append_right_eq_self, cString_eq_nil, hbehind]
  by_cases hfull : m.name.length = 63
  · rw [hfull]
    simp
  · rw [List.getElem?_take_of_lt (by omega)]
    simp [hfull]

def filledCmsg (b : UInt8) : Cmsg := ⟨List.replicate 72 b, List.length_replicate⟩

theorem byteBehind_filled {m : HostMessage} (b : UInt8) (h : m.msg.length < 72) :
    byteBehind (fun _ => blankPort) (fun _ => filledCmsg b) [] m = b := by
  show ((List.replicate 72 b)[m.msg.length]?).getD 0 = b
  rw [List.getElem?_replicate_of_lt h]
  rfl

/-- The result is the same for all old contents exactly if nothing of them is copied. -/
theorem nameAfter_const_iff {m : HostMessage} (h : m.NamesPort) :
    (∀ ports slots before ports' slots' before',
      nameAfter ports slots before m = nameAfter ports' slots' before' m) ↔
        m.name.length = 63 := by
  have hlen := m.msg_length
  have hshort := h.short
  constructor
  · intro hsame
    by_contra hpart
    have hbyte : ∀ b, byteBehind (fun _ => blankPort) (fun _ => filledCmsg b) [] m = b :=
      fun b => byteBehind_filled b (by omega)
    have hzero := (nameAfter_exact_iff h (fun _ => blankPort) (fun _ => filledCmsg 0) []).mpr
      (Or.inr (hbyte 0))
    rw [hsame _ _ _ (fun _ => blankPort) (fun _ => filledCmsg 1) []] at hzero
    rcases (nameAfter_exact_iff h _ _ _).mp hzero with hfull | hone
    · exact hpart hfull
    · rw [hbyte] at hone
      exact absurd hone (by decide)
  · intro hfull ports slots before ports' slots' before'
    rw [(nameAfter_exact_iff h ports slots before).mpr (Or.inl hfull),
      (nameAfter_exact_iff h ports' slots' before').mpr (Or.inl hfull)]

/-- Both for a buffer, and over all of them. -/
theorem portName_copied {m : HostMessage} (h : m.NamesPort) :
    (∀ ports slots before, nameAfter ports slots before m = m.name ↔
      m.name.length = 63 ∨ byteBehind ports slots before m = 0) ∧
    ((∀ ports slots before ports' slots' before',
      nameAfter ports slots before m = nameAfter ports' slots' before' m) ↔
        m.name.length = 63) :=
  ⟨nameAfter_exact_iff h, nameAfter_const_iff h⟩

/-- A `PORT_NAME` of one byte for port 0. -/
def shortPortName : HostMessage := ⟨[0, 0, 0, 0, 7, 0, 0, 0, 97], by decide, by decide, blankCmsg⟩

theorem shortPortName_names : shortPortName.NamesPort := by
  refine ⟨by decide, by decide, ?_, by decide⟩
  intro b hb
  change b ∈ ([97] : List UInt8) at hb
  rw [List.mem_singleton.mp hb]
  decide

theorem shortPortName_copied :
    (∀ ports slots before, nameAfter ports slots before shortPortName = [97] ↔
      shortPortName.name.length = 63 ∨ byteBehind ports slots before shortPortName = 0) ∧
    ((∀ ports slots before ports' slots' before',
      nameAfter ports slots before shortPortName = nameAfter ports' slots' before' shortPortName) ↔
        shortPortName.name.length = 63) :=
  portName_copied shortPortName_names

theorem staleByte_kept : shortPortName.NamesPort ∧
    nameAfter (fun _ => blankPort) (fun _ => filledCmsg 98) [] shortPortName =
      [97, 98, 98, 98, 98, 98, 98, 98, 98] ∧ shortPortName.name = [97] := by
  refine ⟨shortPortName_names, ?_, rfl⟩
  rw [nameAfter_eq shortPortName_names]
  decide

end ExternalTrusty
