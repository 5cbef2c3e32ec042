import ExternalTrusty.VirtqCalls
import Mathlib.Data.List.Nodup
import Mathlib.Data.List.Perm.Subperm

namespace ExternalTrusty

open CProgram

/-- `CMSG_IN_MAX`, of a `struct console_control` and the longest name of a port. -/
def cmsgInMax : UInt64 := 8 + 64

/-- The address of `cmsg_buf[idx]`. -/
def cmsgBuf (base : UInt64) (idx : Fin vqSize) : UInt64 := base + UInt64.ofNat idx * cmsgInMax

def vqQuickReady : VqProg Bool := do
  let ready ← vqReady
  onlyIf (ready = false) vqKick
  vqReady

/-- The message, its size and its index, or nothing where the source returns `NULL`. -/
def getControlMsg (base : UInt64) : VqProg (Option (UInt64 × UInt32 × Fin vqSize)) := do
  let old : UInt16 ← call VqOp.oldUsedIdx
  let ready ← vqQuickReady
  if ready = false then return none
  else
    let bufSize ← vqAdv
    return some (cmsgBuf base (vqSlot old), bufSize, vqSlot old)

def releaseControlMsg (base : UInt64) (idx : Fin vqSize) : VqProg Unit := do
  vqSetBufW idx (cmsgBuf base idx) cmsgInMax
  vqMakeAvail idx

/-- `control_setup`, after `vq_init`. -/
def controlSetup (base : UInt64) : VqProg Unit :=
  forever 0 fun idx => do
    if h : idx < vqSize then
      vqSetBufW ⟨idx, h⟩ (cmsgBuf base ⟨idx, h⟩) cmsgInMax
      vqMakeAvail ⟨idx, h⟩
      return .inl (idx + 1)
    else return .inr ()

/-- A caller that gets control messages and releases each of them before it asks for the next. -/
def controlMsgs (base : UInt64) : VqProg Unit :=
  forever () fun _ => do
    match ← getControlMsg base with
    | none => return .inl ()
    | some (msg, bufSize, idx) => do
      call (VqOp.event (.got msg bufSize idx))
      call (VqOp.event (.released idx))
      releaseControlMsg base idx
      return .inl ()

def ControlEvent.msg? : ControlEvent → Option (UInt64 × UInt32 × Fin vqSize)
  | .got msg bufSize idx => some (msg, bufSize, idx)
  | .released _ => none

/-- The messages that were returned, in order. -/
def gotten (events : List ControlEvent) : List (UInt64 × UInt32 × Fin vqSize) :=
  events.filterMap ControlEvent.msg?

/-- The descriptors that the device may use. -/
def VqWorld.available (w : VqWorld) : List (Fin vqSize) :=
  (w.published.drop w.used.length).map fun p => vqSlot p.id

/-- The descriptors that the device has used and whose message nobody has got. -/
def VqWorld.unread (w : VqWorld) : List (Fin vqSize) :=
  (w.used.drop (gotten w.events).length).map fun u => slotOf u.id.toNat

/-- The descriptors whose message was got and which are not available again yet: whatever was made
available after the first 32 had been released. -/
def VqWorld.held (w : VqWorld) : List (Fin vqSize) :=
  ((gotten w.events).drop (w.published.length - vqSize)).map fun msg => msg.2.2

/-- The `k`-th descriptor that the control queue makes available. -/
def controlEntry (base : UInt64) (k : Nat) : Published :=
  entry true k (cmsgBuf base (slotOf k)) cmsgInMax

/-- A descriptor with its own buffer. -/
def controlDesc (base : UInt64) (i : Fin vqSize) : VirtqDesc :=
  ⟨cmsgBuf base i, cmsgInMax.toUInt32, virtqDescFWrite⟩

/-- A control queue from which `n` messages were got. -/
structure View.Served (base : UInt64) (n : Nat) (v : View) : Prop where
  flags : ∀ i, (v.desc i).flags = virtqDescFWrite
  order : ∀ (k : Nat) (p : Published), v.published[k]? = some p → p = controlEntry base k
  count : (gotten v.events).length = n
  got : ∀ (k : Nat) (msg : UInt64 × UInt32 × Fin vqSize), (gotten v.events)[k]? = some msg →
    ∃ u, v.seen[k]? = some u ∧ msg = (cmsgBuf base (slotOf k), u.len, slotOf k)

namespace View.Served

variable {base : UInt64} {n : Nat} {v : View}

theorem setDesc (h : v.Served base n) {i : Fin vqSize} {d : VirtqDesc}
    (flags : d.flags = virtqDescFWrite) : (v.setDesc i d).Served base n :=
  { h with
    flags := by
      intro j
      show (Function.update v.desc i d j).flags = _
      by_cases same : j = i
      · rw [same, Function.update_self, flags]
      · rw [Function.update_of_ne same, h.flags] }

theorem sees {v' : View} (h : v.Served base n) (found : v.Sees v') : v'.Served base n := by
  obtain ⟨_, rfl, ⟨later, rfl⟩, _⟩ := found
  exact { h with
    got := by
      intro k msg there
      obtain ⟨u, seen, same⟩ := h.got k msg there
      have inside : k < v.seen.length := (List.getElem?_eq_some_iff.mp seen).1
      refine ⟨u, ?_, same⟩
      show (v.seen ++ later)[k]? = some u
      rw [List.getElem?_append_left inside, seen] }

/-- The next descriptor with its own buffer is made available. -/
theorem makeAvail (h : v.Served base n) {i : Fin vqSize} (next : i = slotOf v.published.length)
    (filled : v.desc i = controlDesc base i) :
    (v.makeAvail i).Served base n :=
  { h with
    order := by
      intro k p there
      rw [makeAvail_published] at there
      rcases getElem?_snoc there with before | ⟨rfl, rfl⟩
      · exact h.order k p before
      · rw [filled, next]
        rfl }

theorem got_next (h : v.Served base n) {u : VirtqUsedElem} (there : v.seen[n]? = some u) :
    (v.tell (.got (cmsgBuf base (slotOf n)) u.len (slotOf n))).Served base (n + 1) := by
  have events : gotten (v.events ++ [.got (cmsgBuf base (slotOf n)) u.len (slotOf n)]) =
      gotten v.events ++ [(cmsgBuf base (slotOf n), u.len, slotOf n)] := List.filterMap_append
  exact { h with
    count := by
      show (gotten (v.events ++ [_])).length = n + 1
      rw [events, List.length_append, h.count]
      rfl
    got := by
      intro k msg got
      change (gotten (v.events ++ [_]))[k]? = some msg at got
      rw [events] at got
      rcases getElem?_snoc got with before | ⟨rfl, rfl⟩
      · exact h.got k msg before
      · rw [h.count]
        exact ⟨u, there, rfl⟩ }

theorem released (h : v.Served base n) (idx : Fin vqSize) :
    (v.tell (.released idx)).Served base n := by
  have events : gotten (v.events ++ [.released idx]) = gotten v.events := by
    rw [gotten, List.filterMap_append]
    exact List.append_nil _
  exact { h with
    count := by
      show (gotten (v.events ++ [_])).length = n
      rw [events, h.count]
    got := by
      show ∀ (k : Nat) (msg : UInt64 × UInt32 × Fin vqSize),
        (gotten (v.events ++ [_]))[k]? = some msg → _
      rw [events]
      exact h.got }

end View.Served

/-- The queue while `control_setup` has filled the first `idx` descriptors. -/
structure View.Filling (base : UInt64) (idx : Nat) (v : View) : Prop where
  served : v.Served base 0
  published : v.published.length = idx
  read : v.read = 0
  events : v.events = []
  filled : ∀ i : Fin vqSize, i.val < idx → v.desc i = controlDesc base i

theorem controlSetup_does {live : Prop} {base : UInt64} {v : View} (fresh : v.Filling base 0) :
    Does live (fun _ => True) v (controlSetup base) fun _ v' => v'.Filling base vqSize := by
  refine keeps_variant View.Inv.stable (J := fun idx v' => idx ≤ vqSize ∧ v'.Filling base idx)
    (R := fun _ v' => v'.Filling base vqSize) (fun idx => vqSize - idx) (fun _ _ _ => trivial)
    ?_ ?_ ⟨Nat.zero_le _, fresh⟩
  rotate_left
  · intro _ v' last
    exact keeps_ret View.Inv.stable trivial last
  rintro idx v' ⟨bound, filling⟩
  by_cases h : idx < vqSize
  · rw [dif_pos h]
    have found := filling.served.flags ⟨idx, h⟩
    let filled := v'.setDesc ⟨idx, h⟩ (controlDesc base ⟨idx, h⟩)
    refine keeps_bind (R := fun _ u => u = filled) ?_ ?_
    · refine vqSetBuf_does trivial trivial trivial (fun differ => absurd found differ) ?_
      rw [found]
      intro _
      rfl
    rintro _ _ rfl
    have place : filled.published.length = idx := filling.published
    have next : (⟨idx, h⟩ : Fin vqSize) = slotOf filled.published.length := by
      rw [place]
      exact Fin.ext (Nat.mod_eq_of_lt h).symm
    refine keeps_bind (R := fun _ u => u = filled.makeAvail ⟨idx, h⟩) ?_ ?_
    · refine vqMakeAvail_does ?_ trivial trivial trivial rfl
      rw [place]
      show idx < v'.read + 32
      rw [filling.read]
      exact h
    rintro _ _ rfl
    refine keeps_ret View.Inv.stable trivial
      ⟨⟨h, ?_, ?_, filling.read, filling.events, ?_⟩, Nat.sub_succ_lt_self vqSize idx h⟩
    · exact (filling.served.setDesc rfl).makeAvail next (View.setDesc_self _ _ _)
    · rw [View.makeAvail_published, List.length_append, place]
      rfl
    · intro i bound
      show Function.update v'.desc ⟨idx, h⟩ (controlDesc base ⟨idx, h⟩) i = _
      by_cases same : i = ⟨idx, h⟩
      · rw [same, Function.update_self]
      · have apart : i.val ≠ idx := fun equal => same (Fin.ext equal)
        rw [Function.update_of_ne same]
        exact filling.filled i (by omega)
  · rw [dif_neg h]
    have all : idx = vqSize := Nat.le_antisymm bound (Nat.le_of_not_lt h)
    rw [all] at filling
    exact keeps_ret View.Inv.stable trivial filling

/-- Every descriptor is available or used, and `n` messages were got. -/
structure View.Ready (base : UInt64) (n : Nat) (v : View) : Prop where
  served : v.Served base n
  filled : ∀ i, v.desc i = controlDesc base i
  full : v.published.length = n + 32
  nothing : ∀ e, v.events.getLast? = some e → e.msg? = none

/-- The driver has the descriptor of the `n`-th message. -/
structure View.Holding (base : UInt64) (n : Nat) (v : View) : Prop where
  served : v.Served base (n + 1)
  filled : ∀ i, v.desc i = controlDesc base i
  full : v.published.length = n + 32
  last : ∀ e, v.events.getLast? = some e → ∀ msg, e.msg? = some msg → msg.2.2 = slotOf n

def View.Owned (base : UInt64) (v : View) : Prop :=
  ∃ n, v.Ready base n ∨ v.Holding base n

section Messages

variable {base : UInt64} {n : Nat} {v : View}

theorem View.Ready.sees {v' : View} (h : v.Ready base n) (found : v.Sees v') :
    v'.Ready base n := by
  have served := h.served.sees found
  obtain ⟨_, rfl, _⟩ := found
  exact { h with served }

theorem vqQuickReady_does {live : Prop} {good : View → Prop} {Q : Bool → View → Prop}
    (now : good v) (sees : ∀ v', v.Sees v' → good v')
    (last : ∀ v', v.Sees v' → Q (decide (v'.read < v'.seen.length)) v') :
    Does live good v vqQuickReady Q := by
  refine keeps_bind (R := fun _ u => v.Sees u) (vqReady_does now sees fun _ found => found) ?_
  intro ready u found
  refine keeps_bind (R := fun _ z => z = u) ?_ ?_
  · cases ready with
    | true => exact keeps_ret View.Inv.stable (sees u found) rfl
    | false =>
      exact keeps_last View.Inv.stable (sees u found) (fun w held => ⟨held, rfl⟩) (sees u found)
  rintro _ u rfl
  exact vqReady_does (sees u found) (fun z later => sees z (found.trans later))
    fun z later => last z (found.trans later)

/-- What `get_control_msg` returns: nothing, or the message in the next buffer. -/
def View.Gets (base : UInt64) (n : Nat) (v : View) : Option (UInt64 × UInt32 × Fin vqSize) → Prop
  | none => v.read = n
  | some msg => v.read = n + 1 ∧
    ∃ u, v.seen[n]? = some u ∧ msg = (cmsgBuf base (slotOf n), u.len, slotOf n)

/-- A message whose descriptor is known to be used is returned. -/
theorem getControlMsg_does {live : Prop} (ready : v.Ready base n) (read : v.read = n) :
    Does live (View.Owned base) v (getControlMsg base) fun msg v' =>
      v'.Ready base n ∧ v'.Gets base n msg ∧ (n < v.seen.length → msg ≠ none) := by
  have owned : ∀ u : View, u.Ready base n → u.Owned base := fun u on => ⟨n, Or.inl on⟩
  refine keeps_act View.Inv.stable (owned v ready) (fun w held => ⟨held.oldUsedIdx, held⟩) ?_
  rw [read]
  refine keeps_bind (R := fun found u => v.Sees u ∧ found = decide (u.read < u.seen.length))
    (vqQuickReady_does (owned v ready) (fun u found => owned u (ready.sees found))
      fun u found => ⟨found, rfl⟩) ?_
  rintro _ u ⟨found, rfl⟩
  have on := ready.sees found
  have same : u.read = n := by
    obtain ⟨_, rfl, _⟩ := found
    exact read
  rw [same]
  by_cases more : n < u.seen.length
  · rw [if_neg (by simpa using more)]
    have there : u.seen[u.read]? = some u.seen[n] := by
      rw [same, List.getElem?_eq_getElem more]
    have after : u.acknowledge.Ready base n := { on with served := { on.served with } }
    refine keeps_bind (R := fun got z => got = u.seen[n].len ∧ z = u.acknowledge)
      (vqAdv_does there (owned u on) (owned _ after) ⟨rfl, rfl⟩) ?_
    rintro _ _ ⟨rfl, rfl⟩
    refine keeps_ret View.Inv.stable (owned _ after)
      ⟨after, ⟨?_, u.seen[n], ?_, ?_⟩, fun _ => nofun⟩
    · show u.read + 1 = n + 1
      rw [same]
    · exact List.getElem?_eq_getElem more
    · rw [vqSlot_ofNat]
  · rw [if_pos (by simpa using more)]
    refine keeps_ret View.Inv.stable (owned u on) ⟨on, same, ?_⟩
    intro before
    obtain ⟨_, rfl, longer, _⟩ := found
    exact absurd (Nat.lt_of_lt_of_le before longer.length_le) more

theorem releaseControlMsg_does {live : Prop} (holding : v.Holding base n) (read : v.read = n + 1)
    (released : ∀ e, v.events.getLast? = some e → e.msg? = none) :
    Does live (View.Owned base) v (releaseControlMsg base (slotOf n)) fun _ v' =>
      v'.Ready base (n + 1) ∧ v'.read = n + 1 := by
  have owned : ∀ u : View, u.Holding base n → u.Owned base := fun u on => ⟨n, Or.inr on⟩
  have same : ∀ d, d = controlDesc base (slotOf n) → (v.setDesc (slotOf n) d).Holding base n := by
    rintro _ rfl
    have served := holding.served.setDesc (i := slotOf n) (d := controlDesc base (slotOf n)) rfl
    refine { holding with served, filled := ?_ }
    intro i
    show Function.update v.desc (slotOf n) (controlDesc base (slotOf n)) i = _
    by_cases here : i = slotOf n
    · rw [here, Function.update_self]
    · rw [Function.update_of_ne here, holding.filled]
  have found := holding.filled (slotOf n)
  let filled := v.setDesc (slotOf n) (controlDesc base (slotOf n))
  have on : filled.Holding base n := same _ rfl
  refine keeps_bind (R := fun _ u => u = filled) ?_ ?_
  · refine vqSetBuf_does (owned v holding) (owned _ (same _ ?_)) (owned _ (same _ ?_))
      (fun differ => absurd (congrArg VirtqDesc.flags found) differ) ?_
    · rw [found]
      rfl
    · rw [found]
      rfl
    · rw [found]
      intro _
      rfl
  rintro _ _ rfl
  have next : slotOf n = slotOf filled.published.length := by
    rw [on.full]
    exact Fin.ext (Nat.add_mod_right n 32).symm
  have full : (filled.makeAvail (slotOf n)).published.length = n + 1 + 32 := by
    rw [View.makeAvail_published, List.length_append, on.full]
    show n + 32 + 1 = _
    omega
  have ready : (filled.makeAvail (slotOf n)).Ready base (n + 1) :=
    { served := on.served.makeAvail next (View.setDesc_self _ _ _)
      filled := on.filled
      full := full
      nothing := released }
  refine vqMakeAvail_does ?_ (owned filled on) (owned _ ?_) ⟨n + 1, Or.inl ready⟩ ⟨ready, read⟩
  · rw [on.full]
    show n + 32 < v.read + 32
    rw [read]
    omega
  · exact { on with served := { on.served with } }

theorem controlMsgs_does {Q : Unit → View → Prop} (ready : v.Ready base n) (read : v.read = n) :
    Does False (View.Owned base) v (controlMsgs base) Q := by
  have idle : ∀ {k : Nat} {u : View}, u.Ready base k → u.Owned base := fun on => ⟨_, Or.inl on⟩
  refine keeps_loop View.Inv.stable (J := fun _ u => ∃ k, u.Ready base k ∧ u.read = k)
    (R := fun _ _ => False) ?_ ?_ (fun alive => alive.elim) (fun _ _ never => never.elim)
    ⟨n, ready, read⟩
  · rintro _ u ⟨k, ready, _⟩
    exact idle ready
  rintro _ u ⟨k, ready, read⟩
  refine keeps_bind (getControlMsg_does ready read) ?_
  rintro msg u ⟨ready, gets, _⟩
  cases msg with
  | none => exact keeps_ret View.Inv.stable (idle ready) ⟨k, ready, gets⟩
  | some msg =>
    obtain ⟨read, used, there, rfl⟩ := gets
    let got := u.tell (.got (cmsgBuf base (slotOf k)) used.len (slotOf k))
    have holding : got.Holding base k :=
      { served := ready.served.got_next there
        filled := ready.filled
        full := ready.full
        last := by
          intro e last msg found
          have same : got.events.getLast? = some _ := List.getLast?_concat
          rw [same] at last
          cases last
          cases found
          rfl }
    refine keeps_act View.Inv.stable (u := got) (r := ()) (idle ready)
      (fun w held => ⟨rfl, held.event _⟩) ?_
    let given := got.tell (.released (slotOf k))
    have released : ∀ e, given.events.getLast? = some e → e.msg? = none := by
      intro e last
      have same : given.events.getLast? = some _ := List.getLast?_concat
      rw [same] at last
      cases last
      rfl
    have holding' : given.Holding base k :=
      { served := holding.served.released _
        filled := ready.filled
        full := ready.full
        last := by
          intro e last msg found
          rw [released e last] at found
          cases found }
    refine keeps_act View.Inv.stable (u := given) (r := ()) ⟨k, Or.inr holding⟩
      (fun w held => ⟨rfl, held.event _⟩) ?_
    refine keeps_bind (releaseControlMsg_does holding' read released) ?_
    rintro _ z ⟨ready, read⟩
    exact keeps_ret View.Inv.stable (idle ready) ⟨k + 1, ready, read⟩

end Messages

theorem map_drop_slots {α : Type} {xs : List α} {f : α → Fin vqSize}
    (each : ∀ (k : Nat) (x : α), xs[k]? = some x → f x = slotOf k) (a : Nat) :
    (xs.drop a).map f = (List.range' a (xs.length - a)).map slotOf := by
  apply List.ext_getElem
  · rw [List.length_map, List.length_map, List.length_drop, List.length_range']
  · intro i before _
    rw [List.length_map, List.length_drop] at before
    rw [List.getElem_map, List.getElem_map, List.getElem_drop, List.getElem_range', Nat.one_mul]
    exact each (a + i) _ (List.getElem?_eq_getElem (by omega))

theorem range'_join {a b c : Nat} (low : a ≤ b) (high : b ≤ c) :
    List.range' a (b - a) ++ List.range' b (c - b) = List.range' a (c - a) := by
  have joined := List.range'_append_1 (s := a) (m := b - a) (n := c - b)
  rwa [Nat.add_sub_cancel' low, Nat.add_comm (b - a), Nat.sub_add_sub_cancel high low] at joined

/-- Any 32 entries in a row take every place of the ring once. -/
theorem slots_perm (a : Nat) :
    ((List.range' a vqSize).map slotOf).Perm (List.finRange vqSize) := by
  have nodup : ((List.range' a vqSize).map slotOf).Nodup := by
    refine List.Nodup.map_on ?_ List.nodup_range'
    intro x hx y hy same
    rw [List.mem_range'_1] at hx hy
    have near : vqSize = 32 := rfl
    rcases Nat.lt_trichotomy x y with below | equal | above
    · exact absurd same (slotOf_ne below (by omega))
    · exact equal
    · exact absurd same.symm (slotOf_ne above (by omega))
  have all : ((List.range' a vqSize).map slotOf).length = (List.finRange vqSize).length := by
    rw [List.length_map, List.length_range', List.length_finRange]
  exact (List.Nodup.subperm nodup fun i _ => List.mem_finRange i).perm_of_length_le
    (Nat.le_of_eq all.symm)

/-- Every descriptor of the control queue has one owner at any time; the messages come in the
order in which the device has used their descriptors, each in the buffer of its descriptor; and
the device has no access to a message that was got and not released yet. -/
structure VqWorld.Owned (base : UInt64) (w : VqWorld) : Prop where
  availIdx : w.raw.availIdx = UInt16.ofNat w.published.length
  usedIdx : w.raw.usedIdx = UInt16.ofNat w.used.length
  ring : ∀ (k : Nat) (p : Published), w.published[k]? = some p → w.used.length ≤ k →
    w.raw.availRing (slotOf k) = p.id
  buffers : ∀ i, w.raw.desc i = controlDesc base i
  owners : (w.available ++ w.unread ++ w.held).Perm (List.finRange vqSize)
  one : w.held.length ≤ 1
  order : ∀ (k : Nat) (msg : UInt64) (bufSize : UInt32) (idx : Fin vqSize),
    (gotten w.events)[k]? = some (msg, bufSize, idx) →
    idx = slotOf k ∧ msg = cmsgBuf base (slotOf k) ∧ ∃ u p, w.used[k]? = some u ∧
      u.id.toNat = k % vqSize ∧ u.len = bufSize ∧ w.published[k]? = some p ∧
      p.id.toUInt32 = u.id ∧ p.desc.addr = msg
  given : ∀ (msg : UInt64) (bufSize : UInt32) (idx : Fin vqSize),
    w.events.getLast? = some (.got msg bufSize idx) → w.held = [idx] ∧ idx ∉ w.available

namespace View.Inv

variable {base : UInt64} {n : Nat} {v : View} {w : VqWorld}

/-- The device's elements come in the order in which their descriptors were made available. -/
theorem used_control (h : v.Inv w) (served : v.Served base n) {k : Nat} {u : VirtqUsedElem}
    (there : w.used[k]? = some u) :
    w.published[k]? = some (controlEntry base k) ∧ (controlEntry base k).id.toUInt32 = u.id ∧
      u.id.toNat = k % vqSize := by
  have inside : k < v.published.length :=
    Nat.lt_of_lt_of_le (List.getElem?_eq_some_iff.mp there).1 h.used_le
  have published : v.published[k]? = some (controlEntry base k) := by
    rw [List.getElem?_eq_getElem inside]
    exact congrArg some (served.order k _ (List.getElem?_eq_getElem inside))
  have id := h.ids k u _ there published
  refine ⟨?_, id.symm, ?_⟩
  · rw [h.published, published]
  · rw [id, UInt16.toNat_toUInt32]
    exact toNat_slotOf k

theorem got_used (h : v.Inv w) (served : v.Served base n) {k : Nat}
    {msg : UInt64 × UInt32 × Fin vqSize} (there : (gotten w.events)[k]? = some msg) :
    ∃ u, w.used[k]? = some u ∧ msg = (cmsgBuf base (slotOf k), u.len, slotOf k) := by
  rw [h.events] at there
  obtain ⟨u, seen, same⟩ := served.got k msg there
  obtain ⟨later, all⟩ := h.seen
  refine ⟨u, ?_, same⟩
  rw [← all, List.getElem?_append_left (List.getElem?_eq_some_iff.mp seen).1, seen]

theorem got_le (h : v.Inv w) (served : v.Served base n) : n ≤ w.used.length := by
  apply Nat.le_of_not_lt
  intro below
  rw [← served.count, ← h.events] at below
  obtain ⟨u, there, _⟩ := h.got_used served (List.getElem?_eq_getElem below)
  exact absurd (List.getElem?_eq_some_iff.mp there).1 (Nat.lt_irrefl _)

/-- The three kinds of descriptors, each a part of the last 32 that were made available. -/
theorem owners_eq (h : v.Inv w) (served : v.Served base n) :
    w.available = (List.range' w.used.length (v.published.length - w.used.length)).map slotOf ∧
      w.unread = (List.range' n (w.used.length - n)).map slotOf ∧
      w.held = (List.range' (v.published.length - 32) (n - (v.published.length - 32))).map
        slotOf := by
  refine ⟨?_, ?_, ?_⟩
  · rw [VqWorld.available, map_drop_slots, h.published]
    rw [h.published]
    intro k p there
    rw [served.order k p there]
    exact vqSlot_descId _
  · rw [VqWorld.unread, map_drop_slots, h.events, served.count]
    intro k u there
    obtain ⟨_, _, id⟩ := h.used_control served there
    rw [id]
    exact Fin.ext (Nat.mod_mod k 32)
  · rw [VqWorld.held, map_drop_slots, h.events, served.count, h.published]
    · rfl
    intro k msg there
    obtain ⟨_, _, rfl⟩ := h.got_used served there
    rfl

theorem ownedBy (h : v.Inv w) (owned : v.Owned base) : w.Owned base := by
  obtain ⟨n, count, served, filled, full, near, last⟩ : ∃ n count, v.Served base count ∧
      (∀ i, v.desc i = controlDesc base i) ∧ v.published.length = n + 32 ∧
      (count = n ∨ count = n + 1) ∧ ∀ e, v.events.getLast? = some e → ∀ msg, e.msg? = some msg →
        count = n + 1 ∧ msg.2.2 = slotOf n := by
    obtain ⟨n, ready | holding⟩ := owned
    · refine ⟨n, n, ready.served, ready.filled, ready.full, Or.inl rfl, ?_⟩
      intro e last msg found
      rw [ready.nothing e last] at found
      cases found
    · refine ⟨n, n + 1, holding.served, holding.filled, holding.full, Or.inr rfl, ?_⟩
      intro e last msg found
      exact ⟨rfl, holding.last e last msg found⟩
  obtain ⟨available, unread, held⟩ := h.owners_eq served
  have usedLe := h.used_le
  have gotLe := h.got_le served
  rw [full] at available held usedLe
  rw [Nat.add_sub_cancel] at held
  -- the held ones come first, then the unread, then those that are available
  have all : w.held ++ w.unread ++ w.available = (List.range' n vqSize).map slotOf := by
    have first := range'_join (a := n) (b := count) (c := w.used.length) (by omega) gotLe
    have second := range'_join (a := n) (b := w.used.length) (c := n + 32) (by omega) usedLe
    rw [Nat.add_sub_cancel_left] at second
    rw [held, unread, available, ← List.map_append, ← List.map_append, first, second]
    rfl
  have owners : (w.available ++ w.unread ++ w.held).Perm (List.finRange vqSize) := by
    refine List.Perm.trans ?_ (slots_perm n)
    rw [← all, List.append_assoc w.held]
    exact List.perm_append_comm.trans (List.perm_append_comm.append_left w.held)
  refine ⟨?_, h.usedIdx, fun _ _ there later => h.named later there, ?_, owners, ?_, ?_, ?_⟩
  · rw [h.availIdx, h.published]
  · intro i
    rw [h.desc, filled]
  · rw [held, List.length_map, List.length_range']
    omega
  · intro k msg bufSize idx there
    obtain ⟨u, used, same⟩ := h.got_used served there
    cases same
    obtain ⟨published, id, place⟩ := h.used_control served used
    exact ⟨rfl, rfl, u, _, used, place, rfl, published, id, rfl⟩
  · intro msg bufSize idx got
    rw [h.events] at got
    obtain ⟨rfl, rfl⟩ := last _ got _ rfl
    have one : w.held = [slotOf n] := by
      rw [held, Nat.add_sub_cancel_left]
      rfl
    refine ⟨one, ?_⟩
    intro mem
    have nodup := owners.nodup_iff.mpr (List.nodup_finRange vqSize)
    rw [one] at nodup
    exact (List.nodup_append.mp nodup).2.2 _ (List.mem_append_left _ mem) _
      List.mem_cons_self rfl

end View.Inv

theorem controlSetup_ready {base : UInt64} {w : VqWorld}
    (setup : VqReaches (controlSetup base, vqInit true) (.ret (), w)) :
    ∃ v : View, v.Inv w ∧ v.Ready base 0 ∧ v.read = 0 := by
  have fresh : (View.start true).Filling base 0 :=
    ⟨⟨fun _ => rfl, nofun, rfl, nofun⟩, rfl, rfl, rfl, nofun⟩
  have fills : Does False _ _ _ _ := controlSetup_does fresh
  obtain ⟨v, held, filling⟩ := (fills _ (View.start_inv true) _ _ setup).2.1 () rfl
  refine ⟨v, held, ⟨filling.served, ?_, filling.published, ?_⟩, filling.read⟩
  · intro i
    exact filling.filled i i.isLt
  rw [filling.events]
  exact nofun

/-- Once the device has used a descriptor, the caller can get its message. -/
theorem controlMsgs_gets {base : UInt64} {n : Nat} {v : View} {w : VqWorld}
    (ready : v.Ready base n) (read : v.read = n) (held : v.Inv w) (used : n < w.used.length) :
    ∃ p w', VqReaches (controlMsgs base, w) (p, w') ∧
      ∃ msg bufSize idx, w'.events.getLast? = some (.got msg bufSize idx) := by
  have found : v.Sees (v.see w.used) := ⟨w.used, rfl, held.seen, held.usedIdx_seen.ok⟩
  have gets : Does True _ _ _ _ := getControlMsg_does (ready.sees found) read
  obtain ⟨msg, t, run⟩ := (gets w held.usedIdx_seen _ _ .refl).2.2 trivial
  obtain ⟨_, _, _, _, some⟩ := (gets w held.usedIdx_seen _ t run).2.1 msg rfl
  cases msg with
  | none => exact absurd rfl (some used)
  | some msg =>
    obtain ⟨msg, bufSize, idx⟩ := msg
    refine ⟨_, _, .head (.turn _ () _ w) (.tail ((run.bind _).bind _) (.act (VqOp.event
      (.got msg bufSize idx)) _ t)), msg, bufSize, idx, ?_⟩
    exact List.getLast?_concat

/-- The control queue after `control_setup`, at any moment of any run of messages. -/
theorem controlMsgs_owned {base : UInt64} {w₀ w : VqWorld} {p : VqProg Unit}
    (setup : VqReaches (controlSetup base, vqInit true) (.ret (), w₀))
    (run : VqReaches (controlMsgs base, w₀) (p, w)) : w.Owned base := by
  obtain ⟨v, held, ready, read⟩ := controlSetup_ready setup
  obtain ⟨⟨u, held, owned⟩, _⟩ := controlMsgs_does (Q := fun _ _ => True) ready read _ held _ _ run
  exact held.ownedBy owned

/-- The setup ends, and the driver comes to hold the first message. -/
theorem firstMsg_owned : ∃ w₀ w p,
    VqReaches (controlSetup 0x1000, vqInit true) (.ret (), w₀) ∧
      VqReaches (controlMsgs 0x1000, w₀) (p, w) ∧ w.Owned 0x1000 ∧
      ∃ msg bufSize idx, w.events.getLast? = some (.got msg bufSize idx) ∧ w.held = [idx] := by
  have fresh : (View.start true).Filling 0x1000 0 :=
    ⟨⟨fun _ => rfl, nofun, rfl, nofun⟩, rfl, rfl, rfl, nofun⟩
  have fills : Does True _ _ _ _ := controlSetup_does fresh
  obtain ⟨_, w₀, setup⟩ := (fills _ (View.start_inv true) _ _ .refl).2.2 trivial
  obtain ⟨v, held, ready, read⟩ := controlSetup_ready setup
  have waiting : v.read < v.published.length := by
    rw [read, ready.full]
    exact Nat.zero_lt_succ 31
  obtain ⟨w', later, used⟩ := held.answered waiting
  rw [read] at used
  obtain ⟨p, w, run, msg, bufSize, idx, got⟩ :=
    controlMsgs_gets ready read ((View.Inv.stable v).run held later) used
  have run := (Prog.Reaches.outside later (controlMsgs 0x1000)).trans run
  have owned := controlMsgs_owned setup run
  exact ⟨w₀, w, p, setup, run, owned, msg, bufSize, idx, got, (owned.given msg bufSize idx got).1⟩

end ExternalTrusty
