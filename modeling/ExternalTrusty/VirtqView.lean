import ExternalTrusty.Virtq

namespace ExternalTrusty

open CProgram

/-- The place of the `k`-th entry of a ring. -/
def slotOf (k : Nat) : Fin vqSize := ⟨k % vqSize, Nat.mod_lt _ (by decide)⟩

/-- The 16-bit index of the `k`-th entry leads to its place, however often it has wrapped. -/
theorem vqSlot_ofNat (k : Nat) : vqSlot (UInt16.ofNat k) = slotOf k := by
  apply Fin.ext
  show (UInt16.ofNat k).toNat % 32 = k % 32
  rw [UInt16.toNat_ofNat']
  omega

theorem slotOf_ne {j k : Nat} (below : j < k) (near : k < j + 32) : slotOf j ≠ slotOf k := by
  intro same
  have mod : j % 32 = k % 32 := congrArg Fin.val same
  omega

theorem ofNat_succ (k : Nat) : UInt16.ofNat k + 1 = UInt16.ofNat (k + 1) := by
  apply UInt16.toNat_inj.mp
  rw [UInt16.toNat_add, UInt16.toNat_ofNat', UInt16.toNat_ofNat']
  show (k % 2 ^ 16 + 1) % 2 ^ 16 = _
  omega

/-- Two 16-bit indices tell counts apart that are less than a wrap apart. -/
theorem ofNat_ne {j k : Nat} (below : j < k) (near : k ≤ j + 32) :
    UInt16.ofNat j ≠ UInt16.ofNat k := by
  rw [ne_eq, ← UInt16.toNat_inj, UInt16.toNat_ofNat', UInt16.toNat_ofNat']
  omega

/-- An entry of a list with a new end is one of the list's own, or the new one. -/
theorem getElem?_snoc {α : Type} {xs : List α} {k : Nat} {x y : α}
    (there : (xs ++ [x])[k]? = some y) : xs[k]? = some y ∨ k = xs.length ∧ y = x := by
  rcases Nat.lt_or_ge k xs.length with before | after
  · rw [List.getElem?_append_left before] at there
    exact Or.inl there
  · rw [List.getElem?_append_right after] at there
    obtain ⟨inside, same⟩ := List.getElem?_eq_some_iff.mp there
    have last : k = xs.length := by
      rw [List.length_singleton] at inside
      omega
    subst last
    simp only [Nat.sub_self, List.getElem_cons_zero] at same
    exact Or.inr ⟨rfl, same.symm⟩

/-- What the driver knows of a queue: its own part of it, how many used elements it has
acknowledged, and which elements it has found to be used. -/
structure View where
  desc : Fin vqSize → VirtqDesc
  ring : Fin vqSize → UInt16
  published : List Published
  seen : List VirtqUsedElem
  read : Nat
  events : List ControlEvent

/-- No more is available than there is room for, and the ring still names what is not
acknowledged. -/
structure View.Ok (v : View) : Prop where
  window : v.published.length ≤ v.read + 32
  named : ∀ (k : Nat) (p : Published), v.read ≤ k → v.published[k]? = some p →
    v.ring (slotOf k) = p.id
  readSeen : v.read ≤ v.seen.length
  seenPublished : v.seen.length ≤ v.published.length
  ids : ∀ (k : Nat) (u : VirtqUsedElem) (p : Published), v.seen[k]? = some u →
    v.published[k]? = some p → u.id = p.id.toUInt32

/-- How many descriptors the device has taken. -/
def VqWorld.taken (w : VqWorld) : Nat := w.used.length + w.dev.written.toNat

/-- A queue as the driver sees it, and what the device has done with it. -/
structure View.Inv (v : View) (w : VqWorld) : Prop where
  ok : v.Ok
  desc : w.raw.desc = v.desc
  ring : w.raw.availRing = v.ring
  published : w.published = v.published
  availIdx : w.raw.availIdx = UInt16.ofNat v.published.length
  oldUsedIdx : w.oldUsedIdx = UInt16.ofNat v.read
  events : w.events = v.events
  seen : v.seen <+: w.used
  usedIdx : w.raw.usedIdx = UInt16.ofNat w.used.length
  lastAvail : w.dev.lastAvail = UInt16.ofNat w.taken
  takenPublished : w.taken ≤ v.published.length
  ids : ∀ (k : Nat) (u : VirtqUsedElem) (p : Published), w.used[k]? = some u →
    v.published[k]? = some p → u.id = p.id.toUInt32
  recent : ∀ (k : Nat) (u : VirtqUsedElem), w.used[k]? = some u → w.taken ≤ k + 32 →
    w.raw.usedRing (slotOf k) = u
  pending : ∀ p : Published, w.dev.written = true → v.published[w.used.length]? = some p →
    (w.raw.usedRing (slotOf w.used.length)).id = p.id.toUInt32

namespace View

def setDesc (v : View) (i : Fin vqSize) (d : VirtqDesc) : View :=
  { v with desc := Function.update v.desc i d }

def setRing (v : View) (slot : Fin vqSize) (descId : UInt16) : View :=
  { v with ring := Function.update v.ring slot descId }

def publish (v : View) : View :=
  let slot := slotOf v.published.length
  let id := v.ring slot
  { v with published := v.published ++ [⟨slot, id, v.desc (vqSlot id)⟩] }

def see (v : View) (used : List VirtqUsedElem) : View := { v with seen := used }

def acknowledge (v : View) : View := { v with read := v.read + 1 }

def tell (v : View) (e : ControlEvent) : View := { v with events := v.events ++ [e] }

theorem setDesc_setDesc (v : View) (i : Fin vqSize) (d d' : VirtqDesc) :
    (v.setDesc i d).setDesc i d' = v.setDesc i d' := by
  show { v with desc := Function.update (Function.update v.desc i d) i d' } = v.setDesc i d'
  rw [Function.update_idem]
  rfl

@[simp] theorem setDesc_self (v : View) (i : Fin vqSize) (d : VirtqDesc) :
    (v.setDesc i d).desc i = d := by
  show Function.update v.desc i d i = d
  rw [Function.update_self]

end View

namespace View.Inv

variable {v : View} {w w' : VqWorld}

theorem seen_le (h : v.Inv w) : v.seen.length ≤ w.used.length := h.seen.length_le

theorem used_le (h : v.Inv w) : w.used.length ≤ v.published.length :=
  Nat.le_trans (Nat.le_add_right _ _) h.takenPublished

/-- The device keeps to its part of the queue. -/
theorem write (h : v.Inv w) {len : UInt32} (idle : w.dev.written = false)
    (more : w.dev.lastAvail ≠ w.raw.availIdx) :
    v.Inv { w with
      raw := { w.raw with
        usedRing := Function.update w.raw.usedRing (vqSlot w.raw.usedIdx)
          ⟨(w.raw.availRing (vqSlot w.dev.lastAvail)).toUInt32, len⟩ }
      dev := ⟨w.dev.lastAvail + 1, true⟩ } := by
  have taken : w.taken = w.used.length := by
    rw [VqWorld.taken, idle]
    rfl
  have before : w.used.length < v.published.length := by
    have bound := h.takenPublished
    have apart : w.used.length ≠ v.published.length := by
      intro same
      apply more
      rw [h.lastAvail, h.availIdx, taken, same]
    omega
  have unread : v.read ≤ w.used.length := Nat.le_trans h.ok.readSeen h.seen_le
  have here : vqSlot w.raw.usedIdx = slotOf w.used.length := by rw [h.usedIdx, vqSlot_ofNat]
  have next : vqSlot w.dev.lastAvail = slotOf w.used.length := by
    rw [h.lastAvail, taken, vqSlot_ofNat]
  exact { h with
    lastAvail := by
      show w.dev.lastAvail + 1 = UInt16.ofNat (w.used.length + 1)
      rw [h.lastAvail, taken, ofNat_succ]
    takenPublished := before
    recent := by
      intro k u used near
      have inside : k < w.used.length := (List.getElem?_eq_some_iff.mp used).1
      have near : w.used.length + 1 ≤ k + 32 := near
      show Function.update w.raw.usedRing (vqSlot w.raw.usedIdx) _ (slotOf k) = u
      rw [here, Function.update_of_ne (slotOf_ne inside (by omega))]
      exact h.recent k u used (by omega)
    pending := by
      intro p _ there
      show (Function.update w.raw.usedRing (vqSlot w.raw.usedIdx) _ (slotOf w.used.length)).id = _
      rw [here, Function.update_self, next, h.ring, h.ok.named _ p unread there] }

theorem count (h : v.Inv w) (written : w.dev.written = true) :
    v.Inv { w with
      raw := { w.raw with usedIdx := w.raw.usedIdx + 1 }
      dev := { w.dev with written := false }
      used := w.used ++ [w.raw.usedRing (vqSlot w.raw.usedIdx)] } := by
  have taken : w.taken = w.used.length + 1 := by
    rw [VqWorld.taken, written]
    rfl
  have here : vqSlot w.raw.usedIdx = slotOf w.used.length := by rw [h.usedIdx, vqSlot_ofNat]
  have len : (w.used ++ [w.raw.usedRing (vqSlot w.raw.usedIdx)]).length = w.used.length + 1 :=
    List.length_append
  -- an element used is one of those before, or the one that was written last
  have cases : ∀ (k : Nat) (u : VirtqUsedElem),
      (w.used ++ [w.raw.usedRing (vqSlot w.raw.usedIdx)])[k]? = some u →
      w.used[k]? = some u ∨ k = w.used.length ∧ u = w.raw.usedRing (slotOf w.used.length) := by
    intro k u there
    rw [here] at there
    exact getElem?_snoc there
  have left : VqWorld.taken { w with
      raw := { w.raw with usedIdx := w.raw.usedIdx + 1 }
      dev := { w.dev with written := false }
      used := w.used ++ [w.raw.usedRing (vqSlot w.raw.usedIdx)] } = w.taken := by
    rw [taken]
    exact len
  exact { h with
    seen := h.seen.trans (List.prefix_append _ _)
    usedIdx := by
      show w.raw.usedIdx + 1 = UInt16.ofNat (w.used ++ [_]).length
      rw [len, h.usedIdx, ofNat_succ]
    lastAvail := by
      rw [left]
      exact h.lastAvail
    takenPublished := by
      rw [left]
      exact h.takenPublished
    ids := by
      intro k u p used there
      rcases cases k u used with before | ⟨rfl, rfl⟩
      · exact h.ids k u p before there
      · exact h.pending p written there
    recent := by
      intro k u used near
      rw [left] at near
      rcases cases k u used with before | ⟨rfl, rfl⟩
      · exact h.recent k u before near
      · rfl
    pending := nofun }

/-- The device may go on at any time. -/
theorem stable (v : View) : Stable VqDevice.Step v.Inv := by
  intro w w' h step
  cases step with
  | write len idle more => exact h.write idle more
  | count written => exact h.count written

theorem setDesc (h : v.Inv w) (i : Fin vqSize) (d : VirtqDesc) :
    (v.setDesc i d).Inv (w.setDesc i d) :=
  { h with
    ok := { h.ok with }
    desc := by
      show Function.update w.raw.desc i d = Function.update v.desc i d
      rw [h.desc] }

/-- The slot behind the newest entry is free, unless the ring is full. -/
theorem setAvailRing (h : v.Inv w) (descId : UInt16) (room : v.published.length < v.read + 32) :
    (v.setRing (slotOf v.published.length) descId).Inv
      ((VqOp.setAvailRing (slotOf v.published.length) descId).perform w).2 :=
  { h with
    ok := { h.ok with
      named := by
        intro k p unread there
        have inside : k < v.published.length := (List.getElem?_eq_some_iff.mp there).1
        have unread : v.read ≤ k := unread
        show Function.update v.ring (slotOf v.published.length) descId (slotOf k) = p.id
        rw [Function.update_of_ne (slotOf_ne inside (by omega))]
        exact h.ok.named k p unread there }
    ring := by
      show Function.update w.raw.availRing _ descId = Function.update v.ring _ descId
      rw [h.ring] }

theorem setAvailIdx (h : v.Inv w) (room : v.published.length < v.read + 32) :
    v.publish.Inv ((VqOp.setAvailIdx (UInt16.ofNat (v.published.length + 1))).perform w).2 := by
  have len : v.publish.published.length = v.published.length + 1 := List.length_append
  have here : vqSlot w.raw.availIdx = slotOf v.published.length := by
    rw [h.availIdx, vqSlot_ofNat]
  have old : ∀ (k : Nat) (p : Published), k < v.published.length →
      v.publish.published[k]? = some p → v.published[k]? = some p := by
    intro k p before there
    rw [← there]
    exact (List.getElem?_append_left before).symm
  exact { h with
    ok := { h.ok with
      window := by
        rw [len]
        exact room
      named := by
        intro k p unread there
        rcases getElem?_snoc there with before | ⟨rfl, rfl⟩
        · exact h.ok.named k p unread before
        · rfl
      seenPublished := by
        rw [len]
        exact Nat.le_succ_of_le h.ok.seenPublished
      ids := by
        intro k u p used there
        have before := (List.getElem?_eq_some_iff.mp used).1
        exact h.ok.ids k u p used (old k p (Nat.lt_of_lt_of_le before h.ok.seenPublished) there) }
    published := by
      show w.published ++ [⟨vqSlot w.raw.availIdx, w.raw.availRing (vqSlot w.raw.availIdx),
        w.raw.desc (vqSlot (w.raw.availRing (vqSlot w.raw.availIdx)))⟩] = v.publish.published
      rw [here, h.published, h.ring, h.desc]
      rfl
    availIdx := by
      rw [len]
      rfl
    takenPublished := by
      rw [len]
      exact Nat.le_succ_of_le h.takenPublished
    ids := by
      intro k u p used there
      have before : k < w.used.length := (List.getElem?_eq_some_iff.mp used).1
      exact h.ids k u p used (old k p (Nat.lt_of_lt_of_le before h.used_le) there)
    pending := by
      intro p written there
      have written : w.dev.written = true := written
      have before : w.used.length + 1 ≤ v.published.length := by
        have bound := h.takenPublished
        rwa [VqWorld.taken, written] at bound
      exact h.pending p written (old _ p before there) }

/-- To read the index of the used ring is to find out what has been used. -/
theorem usedIdx_seen (h : v.Inv w) : (v.see w.used).Inv w :=
  { h with
    ok := { h.ok with
      readSeen := Nat.le_trans h.ok.readSeen h.seen_le
      seenPublished := h.used_le
      ids := h.ids }
    seen := List.prefix_rfl }

theorem setOldUsedIdx (h : v.Inv w) (unread : v.read < v.seen.length) :
    v.acknowledge.Inv ((VqOp.setOldUsedIdx (UInt16.ofNat (v.read + 1))).perform w).2 :=
  { h with
    ok := { h.ok with
      window := Nat.le_trans h.ok.window (by
        show v.read + 32 ≤ v.read + 1 + 32
        omega)
      named := fun k p later there => h.ok.named k p (Nat.le_of_succ_le later) there
      readSeen := unread }
    oldUsedIdx := rfl }

/-- An element that was found to be used is still in the ring, as long as no more is available
than comes before the next element in its place. -/
theorem usedLen (h : v.Inv w) {k : Nat} {u : VirtqUsedElem} (there : v.seen[k]? = some u)
    (near : v.published.length ≤ k + 32) : ((VqOp.usedLen (slotOf k)).perform w).1 = u.len := by
  obtain ⟨later, same⟩ := h.seen
  have inside := (List.getElem?_eq_some_iff.mp there).1
  have used : w.used[k]? = some u := by
    rw [← same, List.getElem?_append_left inside]
    exact there
  show (w.raw.usedRing (slotOf k)).len = u.len
  rw [h.recent k u used (Nat.le_trans h.takenPublished near)]

theorem event (h : v.Inv w) (e : ControlEvent) :
    (v.tell e).Inv ((VqOp.event e).perform w).2 :=
  { h with
    ok := { h.ok with }
    events := by
      show w.events ++ [e] = v.events ++ [e]
      rw [h.events] }

end View.Inv

end ExternalTrusty
