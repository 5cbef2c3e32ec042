import ExternalTrusty.KmDataChecked

namespace ExternalTrusty

open CMemory

theorem messageVersion_supported {major minor subminor : UInt8} :
    trustyKmVersion ≤ messageVersion major minor subminor ↔
      major = 2 ∨ (major = 1 ∧ minor = 1) := by
  unfold messageVersion trustyKmVersion
  split
  next h0 => simp [h0]
  next h0 =>
    split
    next h1 =>
      split
      next m0 => simp [h1, m0]
      next m0 =>
        split
        next m1 => simp [h1, m1]
        next m1 => simp [h1, m1]
    next h1 =>
      split
      next h2 => simp [h2]
      next h2 => simp [h1, h2]

/-- The version bytes of a `struct km_get_version_resp` name a supported version. -/
def Supported (bs : List UInt8) : Prop :=
  trustyKmVersion ≤ messageVersion (bs.getD 4 0) (bs.getD 5 0) (bs.getD 6 0)

instance (bs : List UInt8) : Decidable (Supported bs) := inferInstanceAs (Decidable (_ ≤ _))

/-- The version bytes that are there rule out a supported version, whatever follows them. -/
def Unsupported (got : List UInt8) : Prop :=
  5 ≤ got.length ∧ got.getD 4 0 ≠ 2 ∧ (got.getD 4 0 = 1 → 6 ≤ got.length ∧ got.getD 5 0 ≠ 1)

instance (got : List UInt8) : Decidable (Unsupported got) :=
  inferInstanceAs (Decidable (_ ∧ _))

theorem overlay_getD {got fill : List UInt8} {i : Nat} :
    (overlay got fill).getD i 0 = if i < got.length then got.getD i 0 else fill.getD i 0 := by
  rw [overlay, List.getD_eq_getElem?_getD, List.getElem?_append]
  by_cases h : i < got.length
  · rw [if_pos h, if_pos h, List.getD_eq_getElem?_getD]
  · rw [if_neg h, if_neg h, List.getElem?_drop, List.getD_eq_getElem?_getD]
    congr 3
    omega

theorem supported_overlay_iff {got : List UInt8} (hlen : got.length ≤ 7) :
    (∃ fill : List UInt8, fill.length = 7 ∧ Supported (overlay got fill)) ↔ ¬Unsupported got := by
  constructor
  · rintro ⟨fill, _, hok⟩ ⟨hfive, hmajor, hminor⟩
    rw [Supported, messageVersion_supported, overlay_getD, overlay_getD,
      if_pos (by omega : 4 < got.length)] at hok
    rcases hok with htwo | ⟨hone, hsub⟩
    · exact hmajor htwo
    · obtain ⟨hsix, hne⟩ := hminor hone
      rw [if_pos (by omega)] at hsub
      exact hne hsub
  · intro hnot
    refine ⟨[0, 0, 0, 0, 2, 1, 0], rfl, ?_⟩
    rw [Supported, messageVersion_supported, overlay_getD, overlay_getD]
    by_cases hfive : 4 < got.length
    · rw [if_pos hfive]
      by_cases htwo : got.getD 4 0 = 2
      · exact Or.inl htwo
      · have hone : got.getD 4 0 = 1 := by
          by_contra hne
          exact hnot ⟨hfive, htwo, fun h => absurd h hne⟩
        refine Or.inr ⟨hone, ?_⟩
        split
        next hsix =>
          by_contra hne
          exact hnot ⟨hfive, htwo, fun _ => ⟨hsix, hne⟩⟩
        next => rfl
    · rw [if_neg hfive]
      exact Or.inl rfl

/-- A version response of which `got` arrived is checked when it is whole and without an error, or
when its version is refused. -/
theorem version_settled_iff {got : List UInt8} (hlen : got.length ≤ 7) :
    (∀ fill : List UInt8, fill.length = 7 → Supported (overlay got fill) →
      (got.length = 7 ∧ leNat (got.take 4) = kmErrorOk ∧ Supported got) ∧
        ∀ other : List UInt8, other.length = 7 → Supported (overlay got other)) ↔
      (got.length = 7 ∧ leNat (got.take 4) = kmErrorOk) ∨ Unsupported got := by
  constructor
  · intro h
    by_cases hun : Unsupported got
    · exact Or.inr hun
    · obtain ⟨fill, hfill, hok⟩ := (supported_overlay_iff hlen).mpr hun
      obtain ⟨⟨hfull, herr, _⟩, _⟩ := h fill hfill hok
      exact Or.inl ⟨hfull, herr⟩
  · rintro (⟨hfull, herr⟩ | hun) fill hfill hok
    · have hover : ∀ other : List UInt8, other.length = 7 → overlay got other = got :=
        fun other ho => overlay_full (by omega)
      rw [hover fill hfill] at hok
      exact ⟨⟨hfull, herr, hok⟩, fun other ho => by rw [hover other ho]; exact hok⟩
    · exact absurd hun ((supported_overlay_iff hlen).mp ⟨fill, hfill, hok⟩)

/-- The payloads of the taken frames are a whole version response, without an error and with a
supported version. -/
def CarriesVersion (taken : List Delivery) : Prop :=
  (taken.flatMap (Delivery.payload 4)).length = sizeofKmGetVersionResp ∧
    leNat ((taken.flatMap (Delivery.payload 4)).take 4) = kmErrorOk ∧
    Supported (taken.flatMap (Delivery.payload 4))

/-- A version response is read without an error, though it is neither whole and free of an error
itself nor has a version that is refused. -/
def LooseVersion (ds : List Delivery) : Prop :=
  (rawRun kmGetVersionCmd sizeofKmGetVersionResp 0 ds).ended = .complete ∧
    ¬(((rawRun kmGetVersionCmd sizeofKmGetVersionResp 0 ds).data.length = 7 ∧
        leNat ((rawRun kmGetVersionCmd sizeofKmGetVersionResp 0 ds).data.take 4) = kmErrorOk) ∨
      Unsupported (rawRun kmGetVersionCmd sizeofKmGetVersionResp 0 ds).data)

theorem read_getD {m : Mem Obj} {p : Ptr Obj} {n i : Nat} (h : i < n) :
    (m.read p n).getD i 0 = m.bytes p.block (p.off + i) := by
  rw [List.getD_eq_getElem?_getD, List.getElem?_eq_getElem (by rw [Mem.read_length]; exact h),
    Option.getD_some, Mem.read_getElem]

/-- What asking for the version comes to: an error of the send or of the read, or the version the
bytes of the struct now name. -/
theorem kmGetVersion_script {fuel : Nat} {version : Int} {w : World Script}
    (hfuel : w.env.recvs.length < fuel) (hsend : ¬w.env.sends.headD trustyErrNone < 0) :
    ∃ w', w'.env.recvs =
        w.env.recvs.drop (rawRun kmGetVersionCmd sizeofKmGetVersionResp 0 w.env.recvs).taken ∧
      ((rawRun kmGetVersionCmd sizeofKmGetVersionResp 0 w.env.recvs).ended = .complete →
        ∃ v, kmGetVersion scriptTransport fuel version w = some (trustyErrNone, v, w') ∧
          (trustyKmVersion ≤ v ↔
            Supported (overlay (rawRun kmGetVersionCmd sizeofKmGetVersionResp 0 w.env.recvs).data
              (w.mem.read kmVersionResp 7)))) ∧
      ((rawRun kmGetVersionCmd sizeofKmGetVersionResp 0 w.env.recvs).ended ≠ .complete →
        (rawRun kmGetVersionCmd sizeofKmGetVersionResp 0 w.env.recvs).rc 0 < 0 ∧
        kmGetVersion scriptTransport fuel version w =
          some ((rawRun kmGetVersionCmd sizeofKmGetVersionResp 0 w.env.recvs).rc 0, version,
            w')) := by
  obtain ⟨w₁, hrun, hrecvs, hframe⟩ := kmSendRequest_script kmGetVersionCmd none 0 w
  obtain ⟨w₂, hraw, hread, hleft⟩ := kmReadRawResponse_struct
    (n := sizeofKmGetVersionResp) (p := kmVersionResp) (w := w₁) (by decide)
    (by decide) (by rw [hrecvs]; exact hfuel)
  rw [hrecvs] at hraw hread hleft
  rw [hframe kmVersionResp sizeofKmGetVersionResp (by decide)] at hread
  have hrc := @rawRun_rc_nonneg kmGetVersionCmd sizeofKmGetVersionResp w.env.recvs (by decide)
  refine ⟨w₂, hleft, ?_, ?_⟩
  · intro hend
    have hpos := hrc.mpr hend
    refine ⟨messageVersion (w₂.mem.bytes .kmVersionResp 4) (w₂.mem.bytes .kmVersionResp 5)
      (w₂.mem.bytes .kmVersionResp 6), ?_, ?_⟩
    · simp only [kmGetVersion, hrun, Option.bind_eq_bind, Option.bind_some, hraw]
      rw [if_neg hsend, if_neg (by omega)]
    · rw [show sizeofKmGetVersionResp = 7 from rfl] at hread
      rw [sizeofKmGetVersionResp, ← hread hend, Supported, read_getD (by omega),
        read_getD (by omega), read_getD (by omega)]
      rfl
  · intro hend
    have hneg : (rawRun kmGetVersionCmd sizeofKmGetVersionResp 0 w.env.recvs).rc 0 < 0 := by
      by_contra hpos
      exact hend (hrc.mp (by omega))
    refine ⟨hneg, ?_⟩
    simp only [kmGetVersion, hrun, Option.bind_eq_bind, Option.bind_some, hraw]
    rw [if_neg hsend, if_pos hneg]

theorem kmTipcInit_checked_iff {fuel : Nat} {w : World Script}
    (hfuel : w.env.recvs.length < fuel) :
    ErrorChecked w .kmVersionResp CarriesVersion (kmTipcInit scriptTransport fuel) ↔
      w.env.connects.headD 1 < 0 ∨ w.env.sends.headD trustyErrNone < 0 ∨
        ¬LooseVersion w.env.recvs := by
  have hconn : ∀ s, ∃ w₁, scriptTransport.connect .km keymasterPort
        (trustyIpcChanInit .km (w.withStack .kmVersionResp s)) =
        some (w.env.connects.headD 1, w₁) ∧ w₁.mem = (w.withStack .kmVersionResp s).mem ∧
      w₁.env.recvs = w.env.recvs ∧ w₁.env.sends = w.env.sends :=
    fun s => ⟨_, rfl, rfl, rfl, rfl⟩
  by_cases hconnect : w.env.connects.headD 1 < 0
  · refine iff_of_true ?_ (Or.inl hconnect)
    apply errorChecked_of_fails hconnect
    intro s
    obtain ⟨w₁, hrun, _⟩ := hconn s
    refine ⟨w₁, ?_⟩
    simp only [kmTipcInit, hrun, Option.bind_eq_bind, Option.bind_some]
    exact if_pos hconnect
  rw [or_iff_right hconnect]
  by_cases hsend : w.env.sends.headD trustyErrNone < 0
  · refine iff_of_true ?_ (Or.inl hsend)
    apply errorChecked_of_fails hsend
    intro s
    obtain ⟨w₁, hrun, _, _, hsends⟩ := hconn s
    obtain ⟨w₂, hreq, _⟩ := kmSendRequest_script kmGetVersionCmd none 0 (w₁.setInitialized .km true)
    have hfirst : (w₁.setInitialized .km true).env.sends = w.env.sends := hsends
    rw [hfirst] at hreq
    refine ⟨w₂, ?_⟩
    simp only [kmTipcInit, hrun, Option.bind_eq_bind, Option.bind_some, kmGetVersion, hreq]
    rw [if_neg hconnect]
    simp only [if_pos hsend, Option.bind_some]
  rw [or_iff_right hsend]
  have hstep : ∀ s, ∃ w₁ w₂, scriptTransport.connect .km keymasterPort
        (trustyIpcChanInit .km (w.withStack .kmVersionResp s)) =
        some (w.env.connects.headD 1, w₁) ∧
      takenSince w w₂ =
        w.env.recvs.take (rawRun kmGetVersionCmd sizeofKmGetVersionResp 0 w.env.recvs).taken ∧
      ((rawRun kmGetVersionCmd sizeofKmGetVersionResp 0 w.env.recvs).ended = .complete →
        ∃ v, kmGetVersion scriptTransport fuel (-1) (w₁.setInitialized .km true) =
            some (trustyErrNone, v, w₂) ∧ (trustyKmVersion ≤ v ↔
          Supported (overlay (rawRun kmGetVersionCmd sizeofKmGetVersionResp 0 w.env.recvs).data
            ((w.withStack .kmVersionResp s).mem.read kmVersionResp 7)))) ∧
      ((rawRun kmGetVersionCmd sizeofKmGetVersionResp 0 w.env.recvs).ended ≠ .complete →
        (rawRun kmGetVersionCmd sizeofKmGetVersionResp 0 w.env.recvs).rc 0 < 0 ∧
        kmGetVersion scriptTransport fuel (-1) (w₁.setInitialized .km true) =
          some ((rawRun kmGetVersionCmd sizeofKmGetVersionResp 0 w.env.recvs).rc 0, -1, w₂)) := by
    intro s
    obtain ⟨w₁, hrun, hmem, hrecvs, hsends⟩ := hconn s
    have hkept : (w₁.setInitialized .km true).env.recvs = w.env.recvs := hrecvs
    have hfirst : (w₁.setInitialized .km true).env.sends = w.env.sends := hsends
    have hbytes : (w₁.setInitialized .km true).mem = (w.withStack .kmVersionResp s).mem := hmem
    obtain ⟨w₂, hleft, hcomplete, hrejected⟩ := kmGetVersion_script
      (w := w₁.setInitialized .km true) (by rw [hkept]; exact hfuel) (by rw [hfirst]; exact hsend)
    rw [hkept] at hleft hcomplete hrejected
    rw [hbytes] at hcomplete
    exact ⟨w₁, w₂, hrun, takenSince_drop hleft (rawRun_taken_le _ _ _ _), hcomplete, hrejected⟩
  by_cases hend : (rawRun kmGetVersionCmd sizeofKmGetVersionResp 0 w.env.recvs).ended = .complete
  · obtain ⟨hle, hdata⟩ := rawRun_complete
      (by decide : sizeofKmGetVersionResp < 2 ^ 32) (Nat.zero_le _) hend
    rw [@errorChecked_iff_of_tests _ (.kmVersionResp) _ _ Supported _
      ((rawRun kmGetVersionCmd sizeofKmGetVersionResp 0 w.env.recvs).data) kmVersionResp 7 _
      rfl,
      version_settled_iff]
    · unfold LooseVersion
      simp only [hend, true_and, not_not]
    · unfold sizeofKmGetVersionResp at hle ⊢
      omega
    · intro s
      obtain ⟨w₁, w₂, hrun, htaken, hcomplete, _⟩ := hstep s
      obtain ⟨v, hversion, hsupported⟩ := hcomplete hend
      refine ⟨w₂, ?_, ?_⟩
      · simp only [kmTipcInit, hrun, Option.bind_eq_bind, Option.bind_some, hversion]
        rw [if_neg hconnect, if_neg (by decide)]
        by_cases hok : trustyKmVersion ≤ v
        · rw [if_neg (by omega), if_pos (hsupported.mp hok)]
        · rw [if_pos (by omega), if_neg (fun hs => hok (hsupported.mpr hs))]
      · rw [htaken, CarriesVersion, ← hdata]
        rfl
  · refine iff_of_true ?_ (fun hloose => hend hloose.1)
    obtain ⟨_, _, _, _, _, hrejected⟩ := hstep fun _ => 0
    apply errorChecked_of_fails (hrejected hend).1
    intro s
    obtain ⟨w₁, w₂, hrun, _, _, hrejected⟩ := hstep s
    obtain ⟨hneg, hversion⟩ := hrejected hend
    refine ⟨w₂, ?_⟩
    simp only [kmTipcInit, hrun, Option.bind_eq_bind, Option.bind_some, hversion]
    rw [if_neg hconnect, if_pos hneg]

/-- The calls that judge a keymaster response. -/
inductive KmCall
  | noData (cmd : Nat) (req : Option (Ptr Obj)) (reqLen : UInt32) (len : Option (Ptr Obj))
  | withData (cmd : Nat) (req : Option (Ptr Obj)) (reqLen : UInt32) (data len : Ptr Obj)
    (places : DataPlaces kmRespHeader data len)
  | init

/-- The response struct on the stack of the call. -/
def KmCall.respStruct : KmCall → Obj
  | .noData .. => .kmRespHeader
  | .withData .. => .kmRespHeader
  | .init => .kmVersionResp

/-- What the frames have to carry for a success. -/
def KmCall.Carries : KmCall → List Delivery → Prop
  | .noData .. => CarriesOk
  | .withData .. => FirstCarriesOk
  | .init => CarriesVersion

def KmCall.run (fuel : Nat) : KmCall → World Script → Option (Int × World Script)
  | .noData cmd req reqLen len => kmDoTipc scriptTransport fuel cmd req reqLen none len
  | .withData cmd req reqLen data len _ =>
    kmDoTipc scriptTransport fuel cmd req reqLen (some data) (some len)
  | .init => kmTipcInit scriptTransport fuel

/-- The request is not sent. -/
def KmCall.Unsent (w : World Script) : KmCall → Prop
  | .noData .. => w.env.sends.headD trustyErrNone < 0
  | .withData .. => w.env.sends.headD trustyErrNone < 0
  | .init => w.env.connects.headD 1 < 0 ∨ w.env.sends.headD trustyErrNone < 0

/-- The frames are accepted, and leave the struct's test to what was on the stack, or pass it
without what it should rest on. -/
def KmCall.Loose (w : World Script) : KmCall → Prop
  | .noData cmd _ _ _ => ShortNoData cmd w.env.recvs
  | .withData cmd _ _ _ len _ => ShortData cmd (w.mem.load len 4) w.env.recvs
  | .init => LooseVersion w.env.recvs

/-- Exactly when a call's success rests on what it received, and its result on nothing else. -/
theorem kmCall_checked_iff (c : KmCall) (fuel : Nat) (w : World Script)
    (hfuel : w.env.recvs.length < fuel) :
    ErrorChecked w c.respStruct c.Carries (c.run fuel) ↔ c.Unsent w ∨ ¬c.Loose w := by
  cases c with
  | noData cmd req reqLen len => exact @kmDoTipc_noData_checked_iff _ _ _ _ len _ hfuel
  | withData cmd req reqLen data len places => exact kmDoTipc_data_checked_iff places hfuel
  | init =>
    rw [KmCall.Unsent, or_assoc]
    exact kmTipcInit_checked_iff hfuel

def versionFrame : Frame := ⟨[31, 0, 0, 0, 0, 0, 0, 0, 2, 0, 0], by decide⟩

theorem versionFrame_checked :
    ErrorChecked (roomForSixteen [.frame versionFrame]) .kmVersionResp CarriesVersion
      (kmTipcInit scriptTransport 2) := by
  refine (kmCall_checked_iff .init 2 (roomForSixteen [.frame versionFrame]) (by decide)).mpr ?_
  exact Or.inr fun hloose => hloose.2 (Or.inl (by decide))

/-- A frame that is only a header, with the stop bit. -/
def headerFrame : Frame := ⟨[3, 64, 0, 0], by decide⟩

theorem headerFrame_unchecked :
    ¬ErrorChecked (roomForSixteen [.frame headerFrame]) .kmRespHeader CarriesOk
      (kmDoTipc scriptTransport 2 kmSetBootParams none 0 none none) := by
  rw [kmDoTipc_noData_checked_iff (by decide)]
  have hdata : (rawRun kmSetBootParams sizeofKmNoResponse 0
      (roomForSixteen [.frame headerFrame]).env.recvs).data = [] := rfl
  rintro (hsend | hloose)
  · exact absurd hsend (by decide)
  · refine hloose ⟨by decide, by decide, ?_⟩
    rw [hdata]
    exact List.forall_mem_nil _

end ExternalTrusty
