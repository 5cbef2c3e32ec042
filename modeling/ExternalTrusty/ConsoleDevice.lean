import ExternalTrusty.ConsoleOrder
import ExternalTrusty.VirtioMmio
import ExternalTrusty.VirtioPci
import Mathlib.Data.List.Induction

namespace ExternalTrusty.Console

open CProgram TestRunner

section Orderly

variable {keep : Virtio.Keep} {b : ConsoleTexts} {ports : Ports} {d : Virtio}

/-- The console's device, with operations of others that do not concern it. -/
abbrev consoleLayer (keep : Virtio.Keep) : Layer ConsoleOp ConsoleRes Virtio :=
  (Virtio.layer keep).beside

theorem record_eq (t : List (Event ConsoleOp ConsoleRes)) (m : Virtio × Prop) :
    (t.foldl (record keep) m).1 = (consoleLayer keep).after m.1 t := by
  induction t generalizing m with
  | nil => rfl
  | cons e t ih => exact ih _

theorem legal_of_starts (fresh : ∀ vq, d.queueId vq = none)
    {before after : List (Event ConsoleOp ConsoleRes)} {o : VirtioOp} {r : o.Res}
    (run : (bootConsole b ports).Starts (before ++ ⟨.inl o, r⟩ :: after)) :
    Legal ((consoleLayer keep).after d before) o := by
  have hgoes : Goes keep d.toSetup (bootConsole b ports) fun _ _ => True :=
    goes_bootConsole fresh ports
  rw [List.append_cons] at run
  have hgood := (hgoes d True (Or.inr rfl) trivial).1 _ run.of_append
  rw [List.foldl_append] at hgood
  have hlegal : Legal ((before.foldl (record keep) (d, True)).1) o := hgood.2
  rwa [record_eq] at hlegal

/-- An operation in order keeps the device sane, or makes it unknown. -/
theorem Legal.next {o : VirtioOp} {r : o.Res} (legal : Legal d o) (h : d.blind ∨ d.Sane) :
    (d.next keep ⟨o, r⟩).blind ∨ (d.next keep ⟨o, r⟩).Sane := by
  rcases h with hblind | hsane
  · exact Or.inl (Virtio.next_blind hblind _)
  rcases legal with hblind | ⟨hable, horderly⟩ | ⟨rfl, hnone⟩
  · exact Or.inl (Virtio.next_blind hblind _)
  · exact Or.inr (hsane.next hable horderly)
  · left
    simp only [Virtio.next, hnone]

theorem bootConsole_sane (fresh : ∀ vq, d.queueId vq = none) (sane : d.Sane)
    {t : List (Event ConsoleOp ConsoleRes)} (run : (bootConsole b ports).Starts t) :
    ((consoleLayer keep).after d t).blind ∨ ((consoleLayer keep).after d t).Sane := by
  induction t using List.reverseRecOn with
  | nil => exact Or.inr sane
  | append_singleton t e ih =>
    have hbefore := ih run.of_append
    obtain ⟨o, r⟩ := e
    rw [Layer.after_append]
    cases o with
    | inl o => exact (legal_of_starts fresh run).next hbefore
    | inr o => exact hbefore

theorem bootConsole_lawful (fresh : ∀ vq, d.queueId vq = none)
    {t : List (Event ConsoleOp ConsoleRes)} (run : (bootConsole b ports).Starts t) :
    (consoleLayer keep).Lawful (fun d => Sum.elim (fun o => d.blind ∨ d.Able o) fun _ => True) d
      t := by
  refine Layer.lawful_of_splits ?_
  rintro before ⟨o, r⟩ after rfl
  cases o with
  | inl o => exact (legal_of_starts fresh run).able
  | inr o => trivial

end Orderly

/-- What the device behind the registers has been told: each of its rings is in the memory of the
one queue of the driver that has its number, and no doorbell was rung but theirs. -/
structure Driven (pages : RawPages) (v : BusView) : Prop where
  rings : ∀ idx ring, v.rings idx = some ring → ∃ vq, ring = rawRing (pages.at_ vq) ∧
    (v.virtqs vq).queueId = idx.toUInt64 ∧ (v.virtqs vq).raw = pages.at_ vq
  notified : ∀ n ∈ v.notified, ∃ idx : UInt16, n = idx.toUInt32 ∧ (v.rings idx).isSome

theorem driven_of_shows {pages : RawPages} {d : Virtio} {v : BusView} (shows : Shows pages d v)
    (sane : d.Sane) : Driven pages v where
  rings idx ring h := by
    rw [shows.rings idx] at h
    obtain ⟨vq, hvq, rfl⟩ := Option.map_eq_some_iff.mp h
    have hid := sane.known idx vq hvq
    exact ⟨vq, rfl, shows.queueId vq idx hid, (shows.ready vq (sane.ready vq idx hid)).2⟩
  notified n hn := by
    rw [shows.notified] at hn
    obtain ⟨idx, hidx, rfl⟩ := List.mem_map.mp hn
    refine ⟨idx, rfl, ?_⟩
    rw [shows.rings idx, Option.isSome_map]
    exact sane.kicked idx hidx

/-- A device without queues, and a driver that has none either. -/
def Virtio.off (v : BusView) (pageSize : UInt32) : Virtio where
  asked := 0
  guest := v.guest
  pageSize := pageSize
  ready := fun _ => false
  queueId := fun _ => none
  rings := fun _ => none
  status := v.status
  host := v.host
  kicked := []
  blind := false

section Transports

variable {keep : Virtio.Keep} {b : ConsoleTexts} {ports : Ports} {pages : RawPages}

/-- What is left to show for a transport: this much of a run of `boot` has brought the device to
where it drives the driver's own queues, unless a report went out that came too early. The last
operation may still be under way. -/
def Brings (keep : Virtio.Keep) (b : ConsoleTexts) (ports : Ports) (pages : RawPages) {S : Type}
    (impl : (o : VirtioOp) → BusProg o.Res) (lower : Layer BusOp BusOp.Res S) (view : S → BusView)
    (d : Virtio) (m : S) (t : List (Event (BusOp ⊕ ConsoleOut) (Beside BusOp.Res ConsoleOut.Res))) :
    Prop :=
  ∃ u t₁ t₂, t = t₁ ++ t₂ ∧ (t₂ = [] ∨ ∃ o : ConsoleOp, (implBeside impl o).Starts t₂) ∧
    (bootConsole b ports).Starts u ∧ (consoleLayer keep).Plays d u ∧
    (((consoleLayer keep).after d u).blind ∨
      Shows pages ((consoleLayer keep).after d u) (view (lower.beside.after m t₁)) ∧
        Driven pages (view (lower.beside.after m t₁)))

theorem brings {S : Type} {impl : (o : VirtioOp) → BusProg o.Res}
    {lower : Layer BusOp BusOp.Res S} {view : S → BusView} {R : Virtio → S → Prop}
    (h : Implements impl (Virtio.layer keep) lower (fun d o => d.blind ∨ d.Able o) R)
    (hR : ∀ d m, R d m → d.blind ∨ Shows pages d (view m)) {d : Virtio} {m : S}
    (fresh : ∀ vq, d.queueId vq = none) (sane : d.Sane) (related : R d m)
    {t : List (Event (BusOp ⊕ ConsoleOut) (Beside BusOp.Res ConsoleOut.Res))}
    (run : ((bootConsole b ports).expand (implBeside impl)).Starts t)
    (plays : lower.beside.Plays m t) : Brings keep b ports pages impl lower view d m t := by
  obtain ⟨u, t₁, t₂, rfl, hstarts, hplays, hrel, hlast⟩ :=
    h.beside.starts (fun u hu => bootConsole_lawful fresh hu) run plays related
  refine ⟨u, t₁, t₂, rfl, hlast, hstarts, hplays, ?_⟩
  rcases hR _ _ hrel with hblind | shows
  · exact Or.inl hblind
  rcases bootConsole_sane fresh sane hstarts with hblind | hsane
  · exact Or.inl hblind
  · exact Or.inr ⟨shows, driven_of_shows shows hsane⟩

variable {t : List (Event (BusOp ⊕ ConsoleOut) (Beside BusOp.Res ConsoleOut.Res))}

end Transports

/-! A device with the features that are wanted, whose host connects no port. -/

/-- Each queue has its doorbell, four bytes behind that of the queue before it. -/
def someWindow : PciWindow where
  vio := 0x8040000000
  notifyBase := 0x8040003000
  notifyMultiplier := 4
  notifyOff := fun idx => idx
  inside idx := by
    have hlt := idx.toNat_lt
    show idx.toNat * 4 < 2 ^ 32
    omega
  below := by decide
  apart idx := by
    have hlt := idx.toNat_lt
    have haddr : (0x8040003000 + UInt64.ofNat (idx.toNat * 4) - 0x8040000000 : UInt64).toNat =
        0x3000 + idx.toNat * 4 := by
      rw [UInt64.toNat_sub, UInt64.toNat_add, UInt64.toNat_ofNat']
      have hbase : (0x8040003000 : UInt64).toNat = 0x8040003000 := rfl
      have hvio : (0x8040000000 : UInt64).toNat = 0x8040000000 := rfl
      omega
    refine List.find?_eq_none.mpr ?_
    intro r _ hsame
    have hoff : r.offset.toNat < 0x40 := by
      cases r with
      | feature r => cases r <;> decide
      | _ => decide
    have heq : r.offset.toNat = 0x3000 + idx.toNat * 4 := by
      rw [← haddr, of_decide_eq_true hsame]
      rfl
    omega

/-- A register holds no more than its bits. -/
theorem load_lt (m : PciDevice) (r : PciReg) : (m.load someWindow r).toNat < 2 ^ r.width := by
  cases r with
  | feature r => exact (m.features.load r).toNat_lt
  | deviceStatus => exact m.status.toNat_lt
  | queueNotifyOff => exact m.queueSel.toNat_lt
  | _ => exact Nat.two_pow_pos _

end ExternalTrusty.Console
