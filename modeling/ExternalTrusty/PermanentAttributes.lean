import ExternalTrusty.AvbResponse

namespace ExternalTrusty

open CMemory

variable {w : World Script} {size : UInt32}

/-- Every receive of the response fills the header and the buffer, and nothing else. -/
theorem avbReadResponse_elsewhere {cmd : Nat} {r : Ptr Obj} {len : UInt32} :
    ∃ rc w', avbReadResponse scriptTransport avbMsg cmd (some r) len w = some (rc, w') ∧
      (∀ q k, q.block ≠ .avbMsg → q.block ≠ r.block → w'.mem.read q k = w.mem.read q k) ∧
      ((¬∃ f, w.env.recvs.headD .closed = .frame f) → rc < 0) := by
  let iovs := twoIovs avbMsg 8 (some r) len.toUInt64
  cases hd : w.env.recvs.headD .closed with
  | failed rc hneg =>
    have hrun := @scriptRecv_failed .avb iovs true _ _ _ hd
    refine ⟨rc, w.received .avb w.mem, ?_, fun _ _ _ _ => rfl, fun _ => hneg⟩
    simp only [avbReadResponse, scriptTransport, Option.bind_eq_bind]
    rw [hrun, Option.bind_some, if_pos hneg]
  | frame f =>
    let w' := w.received .avb (scatter w.mem (segs iovs) f.bytes)
    obtain ⟨rc, hrun⟩ : ∃ rc, scriptRecv .avb iovs true w = some (rc, w') :=
      ⟨_, scriptRecv_frame hd⟩
    have hmem : ∀ q k, q.block ≠ .avbMsg → q.block ≠ r.block →
        (scatter w.mem (segs iovs) f.bytes).read q k = w.mem.read q k := by
      intro q k hmsg hr
      apply read_scatter_apart
      simp [iovs, twoIovs, Apart, avbMsg, Ne.symm hmsg, Ne.symm hr]
    simp only [avbReadResponse, scriptTransport, Option.bind_eq_bind]
    rw [hrun, Option.bind_some]
    split
    next => exact ⟨_, w', rfl, hmem, fun h => absurd ⟨f, rfl⟩ h⟩
    next =>
      split
      next => exact ⟨_, w', rfl, hmem, fun h => absurd ⟨f, rfl⟩ h⟩
      next => exact ⟨_, w', rfl, hmem, fun h => absurd ⟨f, rfl⟩ h⟩

/-- Whatever comes of it, a request fills its own header, the size and the buffer it was given,
and it fails when the client was not set up, could not send, or received nothing. -/
theorem avbDoTipc_elsewhere {cmd : Nat} {req : Option (Ptr Obj)} {reqSize : UInt32} {r : Ptr Obj}
    (hcmd : cmd ≠ avbGetVersionCmd) :
    ∃ rc w', avbDoTipc scriptTransport cmd req reqSize (some r) (some avbRespSize) w =
        some (rc, w') ∧
      (∀ q k, q.block ≠ .avbMsg → q.block ≠ .avbRespSize → q.block ≠ r.block →
        w'.mem.read q k = w.mem.read q k) ∧
      ((¬∃ f, w.initialized .avb = true ∧ Answers w f) → rc < 0) := by
  have hgeneric : trustyErrGeneric < 0 := by decide
  let w₀ := w.setMem ((w.mem.store avbMsg 4 cmd).store avbMsgResult 4 0)
  have hframe : ∀ q k, q.block ≠ .avbMsg → w₀.mem.read q k = w.mem.read q k :=
    fun q k hq => avbRequest_elsewhere w.mem cmd k hq
  simp only [avbDoTipc, Option.bind_eq_bind]
  by_cases hinit : w.initialized .avb = false
  · rw [if_pos ⟨hinit, hcmd⟩]
    exact ⟨_, w₀, rfl, fun q k hq _ _ => hframe q k hq, fun _ => hgeneric⟩
  · obtain ⟨w₁, hsent, hmem₁, hrecvs₁⟩ : ∃ w₁,
        avbSendRequest scriptTransport avbMsg req reqSize w₀ =
          some (w.env.sends.headD trustyErrNone, w₁) ∧ w₁.mem = w₀.mem ∧
        w₁.env.recvs = w.env.recvs := ⟨_, rfl, rfl, rfl⟩
    rw [if_neg fun h => hinit h.1, hsent, Option.bind_some]
    by_cases hneg : w.env.sends.headD trustyErrNone < 0
    · rw [if_pos hneg]
      exact ⟨_, w₁, rfl, fun q k hq _ _ => hmem₁ ▸ hframe q k hq, fun _ => hneg⟩
    · rw [if_neg hneg]
      obtain ⟨rc, w₂, hread, hmem₂, hrc⟩ := @avbReadResponse_elsewhere w₁ cmd r
        (((some avbRespSize).map fun p => UInt32.ofNat (w₁.mem.load p 4)).getD 0)
      have hkept : ∀ q k, q.block ≠ .avbMsg → q.block ≠ r.block →
          w₂.mem.read q k = w.mem.read q k := by
        intro q k hq hr
        rw [hmem₂ q k hq hr, hmem₁, hframe q k hq]
      rw [hread, Option.bind_some]
      have hfail : (¬∃ f, w.initialized .avb = true ∧ Answers w f) → rc < 0 := by
        intro hno
        apply hrc
        rintro ⟨f, hf⟩
        rw [hrecvs₁] at hf
        refine hno ⟨f, (Bool.not_eq_false _).mp hinit, by omega, ?_⟩
        cases hrecvs : w.env.recvs with
        | nil => exact Delivery.noConfusion ((congrArg (List.headD · .closed) hrecvs).symm.trans hf)
        | cons d ds =>
          rw [hrecvs] at hf
          exact congrArg some hf
      by_cases hneg₂ : rc < 0
      · rw [if_pos hneg₂]
        exact ⟨rc, w₂, rfl, fun q k hq _ hr => hkept q k hq hr, fun _ => hneg₂⟩
      · obtain ⟨w₃, hfin, hframe₃, _⟩ := @avbFinish_spec rc w₂
        rw [if_neg hneg₂, hfin]
        refine ⟨_, w₃, rfl, ?_, fun hno => absurd (hfail hno) hneg₂⟩
        intro q k hq hsize hr
        rw [hframe₃ q k hsize, hkept q k hq hr]

/-- The client is set up, the request goes out, and it is answered by attributes of just the
caller's size, which fit the buffer that they pass through. -/
def AttributesAnswered (size : UInt32) (w : World Script) (f : Frame) : Prop :=
  w.initialized .avb = true ∧ Answers w f ∧
    AvbFull readPermanentAttributes size.toNat f.bytes ∧ size.toNat ≤ avbMaxBufferLength

theorem Answers.unique {f g : Frame} (h : Answers w f) (h' : Answers w g) : f = g :=
  Delivery.frame.inj (Option.some.inj (h.2.symm.trans h'.2))

/-- Success exactly when the attributes came, which the output then starts with; otherwise an
error, and the caller's memory as it was. -/
def ReadsAttributes (out : Ptr Obj) (size : UInt32) (w : World Script)
    (r : Option (Int × World Script)) : Prop :=
  ∃ rc w', r = some (rc, w') ∧ (rc = trustyErrNone ↔ ∃ f, AttributesAnswered size w f) ∧
    (∀ f, AttributesAnswered size w f → w'.mem.read out size.toNat = f.bytes.drop 8) ∧
    (rc ≠ trustyErrNone →
      rc < 0 ∧ ∀ q k m, q.block = .caller m → w'.mem.read q k = w.mem.read q k)

theorem ReadsAttributes.failed {out : Ptr Obj} {rc : Int} {w' : World Script} (hneg : rc < 0)
    (hno : ∀ f, ¬AttributesAnswered size w f)
    (hkept : ∀ q k m, q.block = .caller m → w'.mem.read q k = w.mem.read q k) :
    ReadsAttributes out size w (some (rc, w')) := by
  refine ⟨rc, w', rfl, ?_, fun f hf => absurd hf (hno f), fun _ => ⟨hneg, hkept⟩⟩
  constructor
  · intro hrc
    unfold trustyErrNone at hrc
    omega
  · rintro ⟨f, hf⟩
    exact absurd hf (hno f)

/-- A call into the caller's own memory reads the attributes exactly when a full response of the
right size answers it. -/
theorem trustyReadPermanentAttributes_reads (w : World Script) (n off : Nat) (size : UInt32) :
    ReadsAttributes ⟨.caller n, off⟩ size w
      (trustyReadPermanentAttributes scriptTransport ⟨.caller n, off⟩ size w) := by
  let out : Ptr Obj := ⟨.caller n, off⟩
  let w₀ := w.setMem (w.mem.store avbRespSize 4 avbMaxBufferLength)
  have hmax : avbMaxBufferLength = 2048 := rfl
  have hstart : ∀ q k m, q.block = .caller m → w₀.mem.read q k = w.mem.read q k := by
    intro q k m hq
    refine Mem.read_write_apart w.mem (Or.inl ?_)
    rw [hq]
    exact Obj.noConfusion
  obtain ⟨rc, w₁, hrun, hmem, hfail⟩ := @avbDoTipc_elsewhere w₀ readPermanentAttributes none 0
    avbResp (by decide)
  have hkept : ∀ q k m, q.block = .caller m → w₁.mem.read q k = w.mem.read q k := by
    intro q k m hq
    rw [hmem q k (by rw [hq]; exact Obj.noConfusion) (by rw [hq]; exact Obj.noConfusion)
      (by rw [hq]; exact Obj.noConfusion), hstart q k m hq]
  simp only [trustyReadPermanentAttributes, Option.bind_eq_bind]
  rw [hrun, Option.bind_some]
  by_cases hans : ∃ f, w.initialized .avb = true ∧ Answers w f
  · obtain ⟨f, hinit, ha⟩ := hans
    have hroom : w₀.mem.load avbRespSize 4 = (2048 : UInt32).toNat :=
      Mem.load_store_self _ _ (by decide)
    obtain ⟨rc', w₁', hrun', hacc, hrej, hread, hsize⟩ := @avbDoTipc_answered
      readPermanentAttributes none 0 avbResp 2048 w₀ f hinit ha (by decide) (by decide) hroom
      (by decide)
    obtain ⟨rfl, rfl⟩ := Prod.mk.inj (Option.some.inj (hrun.symm.trans hrun'))
    have hunique : ∀ g, AttributesAnswered size w g → g = f := fun g hg => hg.2.1.unique ha
    by_cases haccepts : AvbAccepts readPermanentAttributes 2048 f.bytes
    · have hzero : rc = 0 := hacc haccepts
      have hrest : w₁.mem.load avbRespSize 4 = f.bytes.length - 8 := hsize haccepts
      obtain ⟨hlong, hshort, hcmd, hres⟩ := haccepts
      rw [if_neg (not_not_intro hzero), hrest]
      by_cases hlen : size.toNat = f.bytes.length - 8
      · have hgot : AttributesAnswered size w f :=
          ⟨hinit, ha, ⟨by omega, hcmd, hres⟩, by omega⟩
        have hdrop : (f.bytes.drop 8).length = size.toNat := by rw [List.length_drop, hlen]
        have hwhole : (f.bytes.drop 8).take 2048 = f.bytes.drop 8 :=
          List.take_of_length_le (by omega)
        have hpayload : w₁.mem.read avbResp size.toNat = f.bytes.drop 8 := by
          rw [show (2048 : UInt32).toNat = 2048 from rfl, hwhole] at hread
          rw [← Mem.read_take w₁.mem avbResp (by omega : size.toNat ≤ 2048), hread, overlay,
            ← hdrop, List.take_left]
        rw [if_neg (not_not_intro hlen), ← hlen, hpayload]
        refine ⟨rc, _, rfl, ?_, ?_, fun h => absurd hzero h⟩
        · exact ⟨fun _ => ⟨f, hgot⟩, fun _ => hzero⟩
        · intro g hg
          rw [hunique g hg, ← hdrop]
          exact Mem.read_write_self _ _ _
      · rw [if_pos hlen]
        apply ReadsAttributes.failed (by decide) _ hkept
        intro g hg
        have hlength := hg.2.2.1.1
        rw [hunique g hg] at hlength
        omega
    · have hneg : rc < 0 := hrej haccepts
      rw [if_pos (by omega)]
      apply ReadsAttributes.failed hneg _ hkept
      intro g hg
      obtain ⟨hlen, hcmd, hres⟩ := hg.2.2.1
      have hle := hg.2.2.2
      rw [hunique g hg] at hlen hcmd hres
      exact haccepts ⟨by omega, by omega, hcmd, hres⟩
  · have hneg : rc < 0 := hfail hans
    rw [if_pos (by omega)]
    exact ReadsAttributes.failed hneg (fun f hf => hans ⟨f, hf.1, hf.2.1⟩) hkept

end ExternalTrusty
