import ExternalTrusty.VirtqView

namespace ExternalTrusty

open CProgram

/-- The driver runs `p` from the view `v` of its queue, while the device goes on. -/
abbrev Does (live : Prop) (good : View → Prop) (v : View) {α : Type} (p : VqProg α)
    (Q : α → View → Prop) : Prop :=
  Keeps VqOp.perform VqDevice.Step live View.Inv good v p Q

abbrev VqReaches {α : Type} (c c' : VqProg α × VqWorld) : Prop :=
  Prog.Reaches VqOp.perform VqDevice.Step c c'

namespace View

/-- The view after the descriptor was made available in the next slot. -/
def makeAvail (v : View) (descId : Fin vqSize) : View :=
  (v.setRing (slotOf v.published.length) (UInt16.ofNat descId)).publish

theorem vqSlot_descId (descId : Fin vqSize) : vqSlot (UInt16.ofNat descId) = descId := by
  rw [vqSlot_ofNat]
  exact Fin.ext (Nat.mod_eq_of_lt descId.isLt)

@[simp] theorem makeAvail_published (v : View) (descId : Fin vqSize) :
    (v.makeAvail descId).published = v.published ++
      [⟨slotOf v.published.length, UInt16.ofNat descId, v.desc descId⟩] := by
  show v.published ++ [⟨slotOf v.published.length,
    Function.update v.ring (slotOf v.published.length) (UInt16.ofNat descId)
      (slotOf v.published.length), v.desc (vqSlot (Function.update v.ring
        (slotOf v.published.length) (UInt16.ofNat descId) (slotOf v.published.length)))⟩] = _
  rw [Function.update_self, vqSlot_descId]

/-- What the driver has found out when it has looked at the used ring again. -/
def Sees (v v' : View) : Prop := ∃ used, v' = v.see used ∧ v.seen <+: used ∧ v'.Ok

theorem Sees.trans {v v' v'' : View} (first : v.Sees v') (later : v'.Sees v'') : v.Sees v'' := by
  obtain ⟨used, rfl, longer, _⟩ := first
  obtain ⟨used', rfl, longer', ok⟩ := later
  exact ⟨used', rfl, longer.trans longer', ok⟩

end View

section Laws

variable {live : Prop} {good : View → Prop} {v : View}

theorem vqMakeAvail_does {descId : Fin vqSize} {Q : Unit → View → Prop}
    (room : v.published.length < v.read + 32) (now : good v)
    (between : good (v.setRing (slotOf v.published.length) (UInt16.ofNat descId)))
    (after : good (v.makeAvail descId)) (last : Q () (v.makeAvail descId)) :
    Does live good v (vqMakeAvail descId) Q := by
  refine keeps_act View.Inv.stable now (fun w held => ⟨held.availIdx, held⟩) ?_
  refine keeps_act View.Inv.stable now (r := ())
    (u := v.setRing (slotOf v.published.length) (UInt16.ofNat descId)) ?_ ?_
  · intro w held
    refine ⟨rfl, ?_⟩
    rw [vqSlot_ofNat]
    exact held.setAvailRing _ room
  refine keeps_act View.Inv.stable between (fun w held => ⟨held.availIdx, held⟩) ?_
  refine keeps_last View.Inv.stable between (fun w held => ⟨?_, last⟩) after
  rw [ofNat_succ]
  exact held.setAvailIdx room

/-- The two 16-bit indices tell whether there is something to acknowledge. -/
theorem vqReady_does {Q : Bool → View → Prop} (now : good v)
    (sees : ∀ v', v.Sees v' → good v')
    (last : ∀ v', v.Sees v' → Q (decide (v'.read < v'.seen.length)) v') :
    Does live good v vqReady Q := by
  refine keeps_call View.Inv.stable
    (R := fun used v' => v.Sees v' ∧ used = UInt16.ofNat v'.seen.length) now ?_ ?_
  · intro w held
    exact ⟨v.see w.used, held.usedIdx_seen,
      ⟨w.used, rfl, held.seen, held.usedIdx_seen.ok⟩, held.usedIdx⟩
  rintro used v' ⟨found, rfl⟩
  refine keeps_act View.Inv.stable (sees v' found) (fun w held => ⟨held.oldUsedIdx, held⟩) ?_
  have same : decide (UInt16.ofNat v'.seen.length ≠ UInt16.ofNat v'.read) =
      decide (v'.read < v'.seen.length) := by
    obtain ⟨_, _, _, ok⟩ := found
    have window := ok.window
    have readSeen := ok.readSeen
    have seenPublished := ok.seenPublished
    apply decide_eq_decide.mpr
    constructor
    · intro differ
      refine Nat.lt_of_le_of_ne readSeen ?_
      intro same
      exact differ (congrArg UInt16.ofNat same.symm)
    · intro below
      exact (ofNat_ne below (by omega)).symm
  rw [same]
  exact keeps_ret View.Inv.stable (sees v' found) (last v' found)

/-- What the device has not used is still in its slot of the ring. -/
theorem View.Inv.named {w : VqWorld} (h : v.Inv w) {k : Nat} {p : Published}
    (later : w.used.length ≤ k) (there : w.published[k]? = some p) :
    w.raw.availRing (slotOf k) = p.id := by
  rw [h.published] at there
  rw [h.ring]
  exact h.ok.named k p (Nat.le_trans h.ok.readSeen (Nat.le_trans h.seen_le later)) there

/-- When there is something to acknowledge, the device can still use it. -/
theorem View.Inv.answered {w : VqWorld} (h : v.Inv w) (waiting : v.read < v.published.length) :
    ∃ w', Relation.ReflTransGen VqDevice.Step w w' ∧ v.read < w'.used.length := by
  have count : ∀ w : VqWorld, v.Inv w → w.dev.written = true →
      ∃ w', Relation.ReflTransGen VqDevice.Step w w' ∧ v.read < w'.used.length := by
    intro w h written
    refine ⟨_, .single (.count written), ?_⟩
    have unread : v.read ≤ w.used.length := Nat.le_trans h.ok.readSeen h.seen_le
    show v.read < (w.used ++ [_]).length
    rw [List.length_append]
    exact Nat.lt_succ_of_le unread
  cases written : w.dev.written with
  | true => exact count w h written
  | false =>
    rcases Nat.lt_or_ge v.read w.used.length with done | behind
    · exact ⟨w, .refl, done⟩
    · have more : w.dev.lastAvail ≠ w.raw.availIdx := by
        have taken : w.taken = w.used.length := by
          rw [VqWorld.taken, written]
          rfl
        have window := h.ok.window
        have unread : v.read ≤ w.used.length := Nat.le_trans h.ok.readSeen h.seen_le
        rw [h.lastAvail, h.availIdx, taken]
        exact ofNat_ne (by omega) (by omega)
      have step := VqDevice.Step.write 0 written more
      obtain ⟨w', later, used⟩ := count _ (h.write written more) rfl
      exact ⟨w', .head step later, used⟩

/-- The driver waits until the device has used the next buffer, and the device can end that. -/
theorem vqWait_does {Q : Unit → View → Prop} (waiting : v.read < v.published.length)
    (self : v.Sees v) (sees : ∀ v', v.Sees v' → good v')
    (last : ∀ v', v.Sees v' → v'.read < v'.seen.length → Q () v') :
    Does live good v vqWait Q := by
  refine keeps_loop View.Inv.stable (J := fun _ v' => v.Sees v')
    (R := fun _ v' => v.Sees v' ∧ v'.read < v'.seen.length) ?_ ?_ ?_ ?_ self
  · intro _ v' found
    exact sees v' found
  · intro _ v' found
    refine keeps_bind (vqReady_does (sees v' found) ?_ ?_)
      (R := fun ready u => v.Sees u ∧ (ready = true ↔ u.read < u.seen.length)) ?_
    · intro u later
      exact sees u (found.trans later)
    · intro u later
      exact ⟨found.trans later, decide_eq_true_iff⟩
    · rintro ready u ⟨found, iff⟩
      refine keeps_ret View.Inv.stable (sees u found) ?_
      cases ready with
      | true => exact ⟨found, iff.mp rfl⟩
      | false => exact found
  · rintro _ _ v' w found held
    obtain ⟨used, rfl, longer, ok⟩ := found
    obtain ⟨w', run, done⟩ := held.answered waiting
    have there : (v.see used).Inv w' := (View.Inv.stable _).run held run
    refine ⟨(), w', ⟨v.see w'.used, there.usedIdx_seen, ?_, done⟩, ?_⟩
    · exact ⟨w'.used, rfl, longer.trans there.seen, there.usedIdx_seen.ok⟩
    have differ : w'.raw.usedIdx ≠ w'.oldUsedIdx := by
      rw [there.usedIdx, there.oldUsedIdx]
      exact (ofNat_ne done (Nat.le_trans there.used_le there.ok.window)).symm
    -- the next turn of the loop finds the two indices apart
    refine (Prog.Reaches.outside run _).trans ?_
    refine .head (.turn _ _ _ _) (.head (.act VqOp.usedIdx _ _) ?_)
    refine .head (.act VqOp.oldUsedIdx _ _) ?_
    have ready : decide (w'.raw.usedIdx ≠ w'.oldUsedIdx) = true := decide_eq_true differ
    show VqReaches (afterTurn _ _ (if decide (w'.raw.usedIdx ≠ w'.oldUsedIdx) = true
      then Sum.inr () else Sum.inl ()), w') _
    rw [if_pos ready]
    exact .refl
  · rintro _ v' ⟨found, done⟩
    exact keeps_ret View.Inv.stable (sees v' found) (last v' found done)

theorem does_of_ok {α : Type} {p : VqProg α} {Q : α → View → Prop}
    (h : v.Ok → Does live good v p Q) : Does live good v p Q :=
  fun w held => h held.ok w held

/-- The driver acknowledges the element that it has not read yet. -/
theorem vqAdv_does {Q : UInt32 → View → Prop} {u : VirtqUsedElem}
    (there : v.seen[v.read]? = some u) (now : good v) (after : good v.acknowledge)
    (last : Q u.len v.acknowledge) : Does live good v vqAdv Q := by
  apply does_of_ok
  intro ok
  have unread : v.read < v.seen.length := (List.getElem?_eq_some_iff.mp there).1
  refine keeps_act View.Inv.stable now (fun w held => ⟨held.oldUsedIdx, held⟩) ?_
  refine keeps_act View.Inv.stable now (r := ()) (u := v.acknowledge) ?_ ?_
  · intro w held
    rw [ofNat_succ]
    exact ⟨rfl, held.setOldUsedIdx unread⟩
  refine keeps_last View.Inv.stable after (fun w held => ⟨held, ?_⟩) after
  rw [vqSlot_ofNat, held.usedLen there ok.window]
  exact last

/-- The driver fills in a descriptor. It goes on only where the descriptor has the direction that
it asserts. -/
theorem vqSetBuf_does {flags : UInt16} {descId : Fin vqSize} {data len : UInt64}
    {Q : Unit → View → Prop} (now : good v)
    (between : good (v.setDesc descId ⟨data, (v.desc descId).len, (v.desc descId).flags⟩))
    (after : good (v.setDesc descId ⟨data, len.toUInt32, (v.desc descId).flags⟩))
    (dead : (v.desc descId).flags ≠ flags → ¬live)
    (last : (v.desc descId).flags = flags →
      Q () (v.setDesc descId ⟨data, len.toUInt32, (v.desc descId).flags⟩)) :
    Does live good v (vqSetBuf flags descId data len) Q := by
  refine keeps_act View.Inv.stable now (r := ())
    (u := v.setDesc descId ⟨data, (v.desc descId).len, (v.desc descId).flags⟩) ?_ ?_
  · intro w held
    refine ⟨rfl, ?_⟩
    rw [← held.desc]
    exact held.setDesc descId { w.raw.desc descId with addr := data }
  refine keeps_act View.Inv.stable between (r := ())
    (u := v.setDesc descId ⟨data, len.toUInt32, (v.desc descId).flags⟩) ?_ ?_
  · intro w held
    have there := held.desc
    have set := held.setDesc descId { w.raw.desc descId with len := len.toUInt32 }
    rw [View.setDesc_setDesc, there, View.setDesc_self] at set
    refine ⟨rfl, ?_⟩
    show View.Inv _ (w.setDesc descId { w.raw.desc descId with len := len.toUInt32 })
    rw [there, View.setDesc_self]
    exact set
  refine keeps_act View.Inv.stable after (r := (v.desc descId).flags)
    (u := v.setDesc descId ⟨data, len.toUInt32, (v.desc descId).flags⟩) ?_ ?_
  · intro w held
    refine ⟨?_, held⟩
    show (w.raw.desc descId).flags = _
    rw [held.desc, View.setDesc_self]
  by_cases same : (v.desc descId).flags = flags
  · rw [if_pos same]
    exact keeps_ret View.Inv.stable after (last same)
  · rw [if_neg same]
    exact keeps_hang View.Inv.stable after (dead same)

end Laws

end ExternalTrusty
