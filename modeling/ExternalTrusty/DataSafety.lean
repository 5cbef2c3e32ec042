import ExternalTrusty.DataResponse

namespace ExternalTrusty

open CMemory

theorem rawRun_taken_le (cmd maxRespLen respLen : Nat) (ds : List Delivery) :
    (rawRun cmd maxRespLen respLen ds).taken ≤ ds.length := by
  induction ds generalizing respLen with
  | nil => simp [rawRun]
  | cons d ds ih =>
    cases d with
    | failed rc neg => simp [rawRun]
    | frame f =>
      rw [rawRun]
      have hnext := ih (respLen + ((f.bytes.drop 4).take (rawRoom maxRespLen respLen)).length)
      simp only [List.length_cons]
      split
      next => simp
      next =>
        split
        next => simp
        next => exact Nat.succ_le_succ hnext

/-- The later frames bring the rest of the announced data, all of it. -/
def LaterComplete (cmd cap : Nat) (bytes : List UInt8) (ds : List Delivery) : Prop :=
  (laterRun cmd cap bytes ds).ended = .complete ∧
    (laterRun cmd cap bytes ds).data.length = remainingData cap bytes ∧
    remainingData cap bytes < 2 ^ 31

theorem laterResult_eq_none {cmd cap : Nat} {bytes : List UInt8} {ds : List Delivery} :
    laterResult cap bytes (laterRun cmd cap bytes ds) = trustyErrNone ↔
      LaterComplete cmd cap bytes ds := by
  have hlen := claimedLen_lt cap bytes
  have hrem := remainingData_lt cap bytes
  have hfirst : firstDataBytes bytes < 2 ^ 32 := by
    unfold firstDataBytes u32
    omega
  have hnone : ∀ rc : Int, rc < 0 → rc ≠ trustyErrNone := by
    intro rc hneg
    unfold trustyErrNone
    omega
  have hgeneric := hnone trustyErrGeneric (by decide)
  unfold laterResult LaterComplete
  cases hend : (laterRun cmd cap bytes ds).ended with
  | rejected rc =>
    have hneg : rc < 0 := rawRun_rejected hend
    have hrc : (laterRun cmd cap bytes ds).rc 0 = rc := by
      rw [RawRun.rc, hend]
    rw [hrc, if_pos hneg]
    refine iff_of_false (hnone rc hneg) ?_
    rintro ⟨complete, _⟩
    cases complete
  | complete =>
    have hbound : (laterRun cmd cap bytes ds).data.length ≤ remainingData cap bytes := by
      have h := (rawRun_complete hrem (Nat.zero_le _) hend).1
      rwa [Nat.zero_add] at h
    have hrc :
        (laterRun cmd cap bytes ds).rc 0 = toInt (laterRun cmd cap bytes ds).data.length := by
      rw [RawRun.rc, hend, Nat.zero_add]
    rw [hrc]
    by_cases hbig : 2 ^ 31 ≤ (laterRun cmd cap bytes ds).data.length
    · have hneg := toInt_neg hbig (by omega)
      rw [if_pos hneg]
      exact iff_of_false (hnone _ hneg) (fun h => by omega)
    · rw [toInt_of_lt (by omega), if_neg (by omega), Int.toNat_natCast]
      have hsum : claimedLen cap bytes = u32 (firstDataBytes bytes +
          (laterRun cmd cap bytes ds).data.length) ↔
          (laterRun cmd cap bytes ds).data.length = remainingData cap bytes := by
        unfold u32
        unfold remainingData u32Sub at hbound hrem ⊢
        omega
      by_cases heq : (laterRun cmd cap bytes ds).data.length = remainingData cap bytes
      · rw [if_neg (not_not_intro (hsum.mpr heq))]
        exact iff_of_true rfl ⟨rfl, heq, by omega⟩
      · rw [if_pos (fun h => heq (hsum.mp h))]
        exact iff_of_false hgeneric (fun h => heq h.2.1)

/-- The data bytes of a response: what the first frame carries past its error and length words,
then what the others carry past their headers. -/
def dataParts : List Delivery → List UInt8
  | [] => []
  | d :: ds => d.payload 12 ++ ds.flatMap (Delivery.payload 4)

/-- The deliveries that `w'` has taken since `w`. -/
def takenSince (w w' : World Script) : List Delivery :=
  w.env.recvs.take (w.env.recvs.length - w'.env.recvs.length)

/-- Stores stay inside the caller's buffer, and success means that the length names the data
received, and the buffer starts with it. -/
def DataSafe (data len : Ptr Obj) (cap : Nat) (w : World Script)
    (r : Option (Int × World Script)) : Prop :=
  ∃ rc w', r = some (rc, w') ∧
    (∀ i, Covers .store (w'.mem.since w.mem) data.block i → data.off ≤ i ∧ i < data.off + cap) ∧
    (rc = trustyErrNone →
      w'.mem.load len 4 ≤ cap ∧ w'.mem.load len 4 = (dataParts (takenSince w w')).length ∧
      w'.mem.read data (dataParts (takenSince w w')).length = dataParts (takenSince w w'))

/-- The lengths of an accepted response agree: a sole frame carries as much data as it claims;
else the later frames' data, which is put after what the first one is counted to hold, ends
inside the buffer, and a first frame too short to hold a length is not made good by them. -/
def DataFits (cmd cap : Nat) (ds : List Delivery) : Prop :=
  ∀ f rest, ds = .frame f :: rest → FirstOk cmd cap f.bytes →
    (isStop (leNat (f.bytes.take 4)) → claimedLen cap f.bytes = f.bytes.length - 12) ∧
    (¬isStop (leNat (f.bytes.take 4)) →
      ((laterRun cmd cap f.bytes rest).data = [] ∨
        firstDataBytes f.bytes + (laterRun cmd cap f.bytes rest).data.length ≤ cap) ∧
      (f.bytes.length < 12 → ¬LaterComplete cmd cap f.bytes rest))

theorem dataSafe_rejected {cmd fuel : Nat} {error data len : Ptr Obj} {w : World Script}
    (h : DataPlaces error data len)
    (hrej : ∀ f ds, w.env.recvs = .frame f :: ds → ¬FirstOk cmd (w.mem.load len 4) f.bytes) :
    DataSafe data len (w.mem.load len 4) w
      (kmReadDataResponse scriptTransport fuel cmd error data len w) := by
  obtain ⟨w', bs, hrun, hneg, hle, hstored⟩ := kmReadDataResponse_rejected h hrej
  refine ⟨_, w', hrun, ?_, ?_⟩
  · intro i hi
    have := (hstored.covers i).mp hi
    omega
  · intro hrc
    unfold trustyErrNone at hrc
    omega

theorem takenSince_cons {w w' : World Script} {d : Delivery} {ds : List Delivery} {n : Nat}
    (h : w.env.recvs = d :: ds) (h' : w'.env.recvs = ds.drop n) (hn : n ≤ ds.length) :
    takenSince w w' = d :: ds.take n := by
  have hlen : ds.length + 1 - (ds.drop n).length = n + 1 := by
    rw [List.length_drop]
    omega
  rw [takenSince, h, h', List.length_cons, hlen, List.take_succ_cons]

theorem dataSafe_stop_iff {cmd fuel : Nat} {error data len : Ptr Obj} {w : World Script}
    {f : Frame} {ds : List Delivery} (h : DataPlaces error data len)
    (hds : w.env.recvs = .frame f :: ds) (hok : FirstOk cmd (w.mem.load len 4) f.bytes)
    (hstop : isStop (leNat (f.bytes.take 4))) :
    DataSafe data len (w.mem.load len 4) w
        (kmReadDataResponse scriptTransport fuel cmd error data len w) ↔
      claimedLen (w.mem.load len 4) f.bytes = f.bytes.length - 12 := by
  obtain ⟨w', hrun, hrecvs, hread⟩ := kmReadDataResponse_stop h hds hok hstop
  have htaken : takenSince w w' = [.frame f] := takenSince_cons (n := 0) hds hrecvs (Nat.zero_le _)
  have hparts : dataParts (takenSince w w') = f.bytes.drop 12 := by
    rw [htaken]
    simp [dataParts, Delivery.payload]
  have hhi := hok.2.1
  rw [hrun]
  constructor
  · rintro ⟨rc, w'', heq, _, hnone⟩
    obtain ⟨rfl, rfl⟩ := Prod.mk.inj (Option.some.inj heq)
    obtain ⟨_, hlen, _⟩ := hnone rfl
    rw [hparts, hread.gotLen, List.length_drop] at hlen
    exact hlen
  · intro hlen
    refine ⟨trustyErrNone, w', rfl, ?_, fun _ => ?_⟩
    · intro i hi
      have hcov := (hread.gotData.covers i).mp hi
      rw [List.length_drop] at hcov
      omega
    · rw [hparts, hread.gotLen, hread.gotData.reads, hlen, List.length_drop]
      exact ⟨by omega, rfl, rfl⟩

/-- The bytes a data read stores: the first frame's data at the start, the later frames' where
the count of the first one puts them. -/
theorem dataStores_iff {cmd cap : Nat} {error data len : Ptr Obj} {bytes later : List UInt8}
    {m m₁ m₂ : Mem Obj} (hok : FirstOk cmd cap bytes)
    (hread : FirstRead error data len cap bytes m m₁)
    (hlater : Stored m₁ m₂ (data.add (firstDataBytes bytes)) later [.kmRawHeader]) :
    (∀ i, Covers .store (m₂.since m) data.block i → data.off ≤ i ∧ i < data.off + cap) ↔
      later = [] ∨ firstDataBytes bytes + later.length ≤ cap := by
  have hhi := hok.2.1
  obtain ⟨new, hlog, hcov⟩ := hread.gotData.stores
  obtain ⟨new', hlog', hcov'⟩ := hlater.stores
  have hsince : m₂.since m = new' ++ new := Mem.since_eq (by rw [hlog', hlog, List.append_assoc])
  have hall : ∀ i, Covers .store (m₂.since m) data.block i ↔
      (data.off + firstDataBytes bytes ≤ i ∧
        i < data.off + firstDataBytes bytes + later.length) ∨
      (data.off ≤ i ∧ i < data.off + (bytes.length - 12)) := by
    intro i
    have hmore := hcov' i
    rw [Ptr.add_block, Ptr.add_off] at hmore
    rw [hsince, covers_append, hcov, hmore, List.length_drop]
  constructor
  · intro hin
    by_cases hnil : later = []
    · exact Or.inl hnil
    · have hpos : 0 < later.length := List.length_pos_iff.mpr hnil
      obtain ⟨_, hlast⟩ := hin (data.off + firstDataBytes bytes + later.length - 1)
        ((hall _).mpr (Or.inl (by omega)))
      exact Or.inr (by omega)
  · intro hfits i hi
    have hlen : later.length = 0 ∨ firstDataBytes bytes + later.length ≤ cap := by
      rcases hfits with rfl | hle
      · exact Or.inl rfl
      · exact Or.inr hle
    rcases (hall i).mp hi with h | h
    · omega
    · omega

theorem dataSafe_more_iff {cmd fuel : Nat} {error data len : Ptr Obj} {w : World Script}
    {f : Frame} {ds : List Delivery} (h : DataPlaces error data len)
    (hds : w.env.recvs = .frame f :: ds) (hfuel : ds.length < fuel)
    (hok : FirstOk cmd (w.mem.load len 4) f.bytes)
    (hmore : ¬isStop (leNat (f.bytes.take 4))) :
    DataSafe data len (w.mem.load len 4) w
        (kmReadDataResponse scriptTransport fuel cmd error data len w) ↔
      ((laterRun cmd (w.mem.load len 4) f.bytes ds).data = [] ∨
        firstDataBytes f.bytes + (laterRun cmd (w.mem.load len 4) f.bytes ds).data.length ≤
          w.mem.load len 4) ∧
      (f.bytes.length < 12 → ¬LaterComplete cmd (w.mem.load len 4) f.bytes ds) := by
  obtain ⟨m₁, w', hrun, hread, hlater, hrecvs⟩ := kmReadDataResponse_more h hds hfuel hok hmore
  have hstores := dataStores_iff hok hread hlater
  have hlen : w'.mem.load len 4 = claimedLen (w.mem.load len 4) f.bytes := by
    rw [← hread.gotLen, Mem.load, Mem.load, hlater.frame len 4 (by simpa using h.len_raw)
      (Or.inl (by rw [Ptr.add_block]; exact h.data_ne.2.2))]
  have htaken : takenSince w w' = .frame f ::
      ds.take (laterRun cmd (w.mem.load len 4) f.bytes ds).taken :=
    takenSince_cons hds hrecvs (rawRun_taken_le _ _ _ _)
  have hparts : LaterComplete cmd (w.mem.load len 4) f.bytes ds → dataParts (takenSince w w') =
      f.bytes.drop 12 ++ (laterRun cmd (w.mem.load len 4) f.bytes ds).data := by
    intro hcomp
    rw [htaken, dataParts, laterRun,
      (rawRun_complete (remainingData_lt _ _) (Nat.zero_le _) hcomp.1).2]
    rfl
  have hcap : w.mem.load len 4 < 2 ^ 32 := Mem.load_lt _ _ _
  have hclaim := claimedLen_lt (w.mem.load len 4) f.bytes
  have hhi := hok.2.1
  have hlo := hok.1
  have hrem : remainingData (w.mem.load len 4) f.bytes =
      (claimedLen (w.mem.load len 4) f.bytes + 2 ^ 32 - firstDataBytes f.bytes) % 2 ^ 32 := rfl
  rw [hrun]
  constructor
  · rintro ⟨rc, w'', heq, hin, hnone⟩
    obtain ⟨rfl, rfl⟩ := Prod.mk.inj (Option.some.inj heq)
    refine ⟨hstores.mp hin, ?_⟩
    intro hshort hcomp
    -- the count of a short first frame has wrapped, so the claimed length is not the data's
    obtain ⟨_, hclaimed, _⟩ := hnone (laterResult_eq_none.mpr hcomp)
    have hcount := firstDataBytes_short hshort hlo
    have hgot := hcomp.2.1
    rw [hlen, hparts hcomp, List.length_append, List.length_drop] at hclaimed
    omega
  · rintro ⟨hfits, hshort⟩
    refine ⟨_, w', rfl, hstores.mpr hfits, ?_⟩
    intro hrc
    have hcomp := laterResult_eq_none.mp hrc
    have hfull : 12 ≤ f.bytes.length := by
      by_contra hlt
      exact hshort (by omega) hcomp
    have hcount := firstDataBytes_full hfull hok.2.2.1
    have hgot := hcomp.2.1
    have hsum : claimedLen (w.mem.load len 4) f.bytes = f.bytes.length - 12 +
        (laterRun cmd (w.mem.load len 4) f.bytes ds).data.length ∧
        claimedLen (w.mem.load len 4) f.bytes ≤ w.mem.load len 4 := by
      rcases hfits with hnil | hle
      · rw [hnil, List.length_nil] at hgot ⊢
        omega
      · omega
    have hwhole : Stored m₁ w'.mem (data.add (f.bytes.drop 12).length)
        (laterRun cmd (w.mem.load len 4) f.bytes ds).data [.kmRawHeader] := by
      rw [List.length_drop, ← hcount]
      exact hlater
    have hfirst : Stored w.mem m₁ data (f.bytes.drop 12)
        [.kmDataHeader, error.block, len.block, .kmRawHeader] := hread.gotData.mono (by simp)
    have hrest : Stored m₁ w'.mem (data.add (f.bytes.drop 12).length)
        (laterRun cmd (w.mem.load len 4) f.bytes ds).data
        [.kmDataHeader, error.block, len.block, .kmRawHeader] := hwhole.mono (by simp)
    have hout : data.block ∉ [Obj.kmDataHeader, error.block, len.block, .kmRawHeader] := by
      have hne := h.data_ne
      simp only [List.mem_cons, List.not_mem_nil, or_false, not_or]
      exact ⟨hne.1, hne.2.1, hne.2.2, h.data_raw⟩
    rw [hparts hcomp, hlen]
    refine ⟨hsum.2, ?_, (hfirst.trans hout hrest).reads⟩
    rw [List.length_append, List.length_drop]
    exact hsum.1

/-- Exactly when reading a data response is safe, over every capacity and every run of frames. -/
theorem kmReadDataResponse_safe_iff (cmd fuel : Nat) (error data len : Ptr Obj)
    (w : World Script) (h : DataPlaces error data len) (hfuel : w.env.recvs.length < fuel) :
    DataSafe data len (w.mem.load len 4) w
        (kmReadDataResponse scriptTransport fuel cmd error data len w) ↔
      DataFits cmd (w.mem.load len 4) w.env.recvs := by
  by_cases hrej : ∀ f ds, w.env.recvs = .frame f :: ds →
      ¬FirstOk cmd (w.mem.load len 4) f.bytes
  · refine iff_of_true (dataSafe_rejected h hrej) ?_
    intro f ds hds hok
    exact absurd hok (hrej f ds hds)
  · simp only [not_forall, not_not] at hrej
    obtain ⟨f, ds, hds, hok⟩ := hrej
    have hsame : ∀ f' ds', w.env.recvs = .frame f' :: ds' → f' = f ∧ ds' = ds := by
      intro f' ds' h'
      have hcons := h'.symm.trans hds
      simp only [List.cons.injEq, Delivery.frame.injEq] at hcons
      exact hcons
    by_cases hstop : isStop (leNat (f.bytes.take 4))
    · rw [dataSafe_stop_iff h hds hok hstop]
      constructor
      · intro hlen f' ds' h' _
        obtain ⟨rfl, rfl⟩ := hsame f' ds' h'
        exact ⟨fun _ => hlen, fun hno => absurd hstop hno⟩
      · intro hfits
        exact (hfits f ds hds hok).1 hstop
    · have hlt : ds.length < fuel := by
        rw [hds, List.length_cons] at hfuel
        omega
      rw [dataSafe_more_iff h hds hlt hok hstop]
      constructor
      · intro hfit f' ds' h' _
        obtain ⟨rfl, rfl⟩ := hsame f' ds' h'
        exact ⟨fun hs => absurd hs hstop, fun _ => hfit⟩
      · intro hfits
        exact (hfits f ds hds hok).2 hstop

/-- A caller with room for 16 bytes, and these frames to come. -/
def roomForSixteen (ds : List Delivery) : World Script where
  mem := ⟨fun b i => if b = .caller 1 ∧ i = 0 then 16 else 0, []⟩
  chans := fun _ => ⟨1, 0, .sync⟩
  initialized := fun _ => true
  env := ⟨[], [], ds, [], []⟩

theorem callerPlaces : DataPlaces kmRespHeader ⟨.caller 0, 0⟩ ⟨.caller 1, 0⟩ := by
  constructor <;> decide

def soleFrame : Frame := ⟨[3, 0, 1, 0, 0, 0, 0, 0, 2, 0, 0, 0, 7, 9], by decide⟩

theorem soleFrame_safe :
    DataSafe ⟨.caller 0, 0⟩ ⟨.caller 1, 0⟩ 16 (roomForSixteen [.frame soleFrame])
      (kmReadDataResponse scriptTransport 2 kmAtapGetCaRequest kmRespHeader ⟨.caller 0, 0⟩
        ⟨.caller 1, 0⟩ (roomForSixteen [.frame soleFrame])) := by
  refine (kmReadDataResponse_safe_iff kmAtapGetCaRequest 2 _ _ ⟨.caller 1, 0⟩
    (roomForSixteen [.frame soleFrame]) callerPlaces (by decide)).mpr ?_
  intro f rest hds _
  obtain ⟨rfl, rfl⟩ : soleFrame = f ∧ [] = rest := by simpa [roomForSixteen] using hds
  exact ⟨fun _ => by decide, fun hmore => absurd (by decide) hmore⟩

/-- The first frame claims 4096 bytes and carries none, the second brings twenty. -/
def claimsTooMuch : List Delivery :=
  [.frame ⟨[1, 0, 1, 0, 0, 0, 0, 0, 0, 16, 0, 0], by decide⟩,
    .frame ⟨[1, 0, 1, 0] ++ List.replicate 20 7, by decide⟩]

theorem claimsTooMuch_unsafe :
    ¬DataSafe ⟨.caller 0, 0⟩ ⟨.caller 1, 0⟩ 16 (roomForSixteen claimsTooMuch)
      (kmReadDataResponse scriptTransport 3 kmAtapGetCaRequest kmRespHeader ⟨.caller 0, 0⟩
        ⟨.caller 1, 0⟩ (roomForSixteen claimsTooMuch)) := by
  intro h
  obtain ⟨hfits, _⟩ := (dataSafe_more_iff (w := roomForSixteen claimsTooMuch)
    callerPlaces rfl (by decide) ⟨by decide, by decide, by decide, by decide⟩ (by decide)).mp h
  have hstored : (laterRun kmAtapGetCaRequest 16 [1, 0, 1, 0, 0, 0, 0, 0, 0, 16, 0, 0]
      [.frame ⟨[1, 0, 1, 0] ++ List.replicate 20 7, by decide⟩]).data = List.replicate 20 7 := by
    decide
  have hcap : (roomForSixteen claimsTooMuch).mem.load ⟨.caller 1, 0⟩ 4 = 16 := by decide
  rw [hcap, hstored] at hfits
  exact absurd hfits (by decide)

end ExternalTrusty
