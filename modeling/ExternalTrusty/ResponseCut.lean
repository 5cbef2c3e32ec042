import ExternalTrusty.DataSafety

namespace ExternalTrusty

open CMemory

/-- The header of a response frame: `cmd` with the response bit, and the stop bit on the last
frame only. No word is one for a command that has the stop bit itself. -/
structure HeaderOf (cmd : Nat) (last : Prop) (h : Nat) : Prop where
  word : h < 2 ^ 32
  clear : clearStop h = cmd ||| keymasterRespBit
  stop : isStop h ↔ last

/-- The first frame: the error word and the whole length come before the first chunk. -/
def firstBytes (h error size : Nat) (chunk : List UInt8) : List UInt8 :=
  leBytes 4 h ++ (leBytes 4 error ++ (leBytes 4 size ++ chunk))

def laterBytes (h : Nat) (chunk : List UInt8) : List UInt8 := leBytes 4 h ++ chunk

/-- Frames that carry the data from some point on to its end, the last chunk not being empty. -/
inductive LaterFrames (cmd : Nat) : List UInt8 → List Delivery → Prop
  | last {h : Nat} {chunk : List UInt8} {f : Frame} (header : HeaderOf cmd True h)
    (bytes : f.bytes = laterBytes h chunk) (size : chunk.length ≤ 4076) (some : chunk ≠ []) :
    LaterFrames cmd chunk [.frame f]
  | more {h : Nat} {chunk rest : List UInt8} {f : Frame} {fs : List Delivery}
    (header : HeaderOf cmd False h) (bytes : f.bytes = laterBytes h chunk)
    (size : chunk.length ≤ 4076) (tail : LaterFrames cmd rest fs) :
    LaterFrames cmd (chunk ++ rest) (.frame f :: fs)

/-- A response with error word `error` and this data, cut into frames in any way. -/
inductive ResponseCut (cmd error : Nat) : List UInt8 → List Delivery → Prop
  | sole {h : Nat} {chunk : List UInt8} {f : Frame} (header : HeaderOf cmd True h)
    (bytes : f.bytes = firstBytes h error chunk.length chunk) (size : chunk.length ≤ 4068) :
    ResponseCut cmd error chunk [.frame f]
  | more {h : Nat} {chunk rest : List UInt8} {f : Frame} {fs : List Delivery}
    (header : HeaderOf cmd False h)
    (bytes : f.bytes = firstBytes h error (chunk ++ rest).length chunk)
    (size : chunk.length ≤ 4068) (tail : LaterFrames cmd rest fs) :
    ResponseCut cmd error (chunk ++ rest) (.frame f :: fs)

theorem laterBytes_header {h : Nat} (hw : h < 2 ^ 32) (chunk : List UInt8) :
    leNat ((laterBytes h chunk).take 4) = h ∧ (laterBytes h chunk).drop 4 = chunk ∧
      (laterBytes h chunk).length = 4 + chunk.length := by
  have hlen : (leBytes 4 h).length = 4 := leBytes_length 4 h
  refine ⟨?_, List.drop_left' hlen, ?_⟩
  · rw [laterBytes, List.take_left' hlen, leNat_leBytes]
    exact Nat.mod_eq_of_lt hw
  · rw [laterBytes, List.length_append, hlen]

theorem LaterFrames.ne_nil {cmd : Nat} {data : List UInt8} {fs : List Delivery}
    (h : LaterFrames cmd data fs) : data ≠ [] := by
  induction h with
  | last _ _ _ some => exact some
  | more _ _ _ _ ih =>
    intro hnil
    exact ih (List.append_eq_nil_iff.mp hnil).2

/-- A later frame that still fits is accepted, and stores its chunk. -/
theorem laterFrame_ok {cmd maxRespLen respLen h : Nat} {last : Prop} {chunk bytes : List UInt8}
    (header : HeaderOf cmd last h) (hb : bytes = laterBytes h chunk) (hsize : chunk.length ≤ 4076)
    (hfit : respLen + chunk.length ≤ maxRespLen) (hmax : maxRespLen < 2 ^ 31) :
    0 ≤ frameResult cmd (rawRoom maxRespLen respLen) bytes ∧
      (isStop (leNat (bytes.take 4)) ↔ last) ∧
      (bytes.drop 4).take (rawRoom maxRespLen respLen) = chunk := by
  obtain ⟨hword, hdrop, hlen⟩ := laterBytes_header header.word chunk
  have hroom := @rawRoom_eq maxRespLen respLen (by omega) (by omega)
  rw [if_pos (by omega)] at hroom
  have hok : FrameOk cmd (rawRoom maxRespLen respLen) (laterBytes h chunk) := by
    refine ⟨by omega, by omega, by omega, ?_⟩
    rw [hword]
    exact header.clear
  rw [hb]
  refine ⟨(frameResult_nonneg_iff (by omega)).mpr hok, ?_, ?_⟩
  · rw [hword]
    exact header.stop
  · rw [(hok.data_length (by omega) (by omega)).1, hdrop]

/-- Reading the later frames takes all of them, and brings the rest of the data. -/
theorem LaterFrames.rawRun_eq {cmd maxRespLen : Nat} {data : List UInt8} {fs : List Delivery}
    (h : LaterFrames cmd data fs) (hmax : maxRespLen < 2 ^ 31) {respLen : Nat}
    (hdata : respLen + data.length = maxRespLen) (rest : List Delivery) :
    rawRun cmd maxRespLen respLen (fs ++ rest) = ⟨.complete, data, fs.length⟩ := by
  induction h generalizing respLen with
  | @last h chunk f header bytes size some =>
    obtain ⟨hpos, hstop, htake⟩ := @laterFrame_ok _ _ respLen _ _ _ _ header bytes size (by omega)
      hmax
    rw [List.singleton_append, rawRun]
    simp only [htake]
    rw [if_neg (not_lt.mpr hpos), if_pos (Or.inl (hstop.mpr trivial))]
    rfl
  | @more h chunk tail f fs header bytes size hrest ih =>
    have hne := List.length_pos_iff.mpr hrest.ne_nil
    rw [List.length_append] at hdata
    obtain ⟨hpos, hstop, htake⟩ := @laterFrame_ok _ _ respLen _ _ _ _ header bytes size (by omega)
      hmax
    have hgo : ¬(isStop (leNat (f.bytes.take 4)) ∨ maxRespLen ≤ respLen + chunk.length) := by
      rintro (hs | hfull)
      · exact hstop.mp hs
      · omega
    rw [List.cons_append, rawRun]
    simp only [htake]
    rw [if_neg (not_lt.mpr hpos), if_neg hgo, ih (by omega)]
    rfl

theorem firstBytes_header {h error size : Nat} (hw : h < 2 ^ 32) (chunk : List UInt8) :
    leNat ((firstBytes h error size chunk).take 4) = h ∧
      ((firstBytes h error size chunk).drop 4).take 4 = leBytes 4 error ∧
      ((firstBytes h error size chunk).drop 8).take 4 = leBytes 4 size ∧
      (firstBytes h error size chunk).drop 12 = chunk ∧
      (firstBytes h error size chunk).length = 12 + chunk.length := by
  have hlen : ∀ n, (leBytes 4 n).length = 4 := leBytes_length 4
  have hpast : ∀ {n k : Nat} (xs : List UInt8), (leBytes 4 n ++ xs).drop (4 + k) = xs.drop k := by
    intro n k xs
    rw [← List.drop_drop, List.drop_left' (hlen n)]
  refine ⟨?_, ?_, ?_, ?_, ?_⟩
  · rw [firstBytes, List.take_left' (hlen h), leNat_leBytes]
    exact Nat.mod_eq_of_lt hw
  · rw [firstBytes, List.drop_left' (hlen h), List.take_left' (hlen error)]
  · rw [firstBytes, show 8 = 4 + (4 + 0) by rfl, hpast, hpast, List.drop_zero,
      List.take_left' (hlen size)]
  · rw [firstBytes, show 12 = 4 + (4 + (4 + 0)) by rfl, hpast, hpast, hpast, List.drop_zero]
  · simp only [firstBytes, List.length_append, hlen]
    omega

/-- The first frame of a response that fits is accepted, and its fields are read as they are. -/
theorem firstFrame_ok {cmd cap error h size : Nat} {last : Prop} {chunk bytes : List UInt8}
    (header : HeaderOf cmd last h) (hb : bytes = firstBytes h error size chunk)
    (hchunk : chunk.length ≤ 4068) (hfit : chunk.length ≤ size) (hsize : size ≤ cap)
    (hcap : cap < 2 ^ 31) :
    FirstOk cmd cap bytes ∧ (isStop (leNat (bytes.take 4)) ↔ last) ∧
      claimedLen cap bytes = size ∧ firstDataBytes bytes = chunk.length ∧
      remainingData cap bytes = size - chunk.length := by
  obtain ⟨hword, _, hlen, _, htotal⟩ := firstBytes_header
    header.word chunk
  rw [← hb] at hword hlen htotal
  have hclaimed : claimedLen cap bytes = size := by
    rw [claimedLen, hlen, overlay_full (by rw [leBytes_length, leBytes_length]), leNat_leBytes]
    exact Nat.mod_eq_of_lt (by omega)
  have hcount : firstDataBytes bytes = chunk.length := by
    rw [firstDataBytes_full (by omega) (by omega), htotal]
    omega
  refine ⟨⟨by omega, by omega, by omega, ?_⟩, ?_, hclaimed, hcount, ?_⟩
  · rw [hword]
    exact header.clear
  · rw [hword]
    exact header.stop
  · rw [remainingData, hclaimed, hcount, u32Sub]
    omega

/-- What the first frame of a response leaves behind, in the fields' own terms. -/
theorem firstRead_values {cap error size h : Nat} {dataErr data len : Ptr Obj}
    {chunk bytes : List UInt8} {m m' : Mem Obj} (hw : h < 2 ^ 32)
    (hb : bytes = firstBytes h error size chunk) (herr : error < 2 ^ 32)
    (hread : FirstRead dataErr data len cap bytes m m') :
    m'.load dataErr 4 = error ∧
      Stored m m' data chunk [.kmDataHeader, dataErr.block, len.block] := by
  obtain ⟨_, hword, _, hdata, _⟩ := firstBytes_header hw chunk
  rw [← hb] at hword hdata
  constructor
  · rw [Mem.load, hread.gotError, hword,
      overlay_full (by rw [leBytes_length, Mem.read_length]), leNat_leBytes]
    exact Nat.mod_eq_of_lt herr
  · have hgot := hread.gotData
    rwa [hdata] at hgot

/-- A response with error word `error` and data `data` has been read whole: its frames are taken,
no more, and nothing of the caller's buffer is changed past the data. -/
def ReadWhole (error : Nat) (bytes : List UInt8) (rest : List Delivery)
    (errorPtr data len : Ptr Obj) (w : World Script) (r : Option (Int × World Script)) : Prop :=
  ∃ w', r = some (trustyErrNone, w') ∧ w'.mem.load errorPtr 4 = error ∧
    w'.mem.load len 4 = bytes.length ∧ w'.mem.read data bytes.length = bytes ∧
    (∀ n, w'.mem.read (data.add bytes.length) n = w.mem.read (data.add bytes.length) n) ∧
    w'.env.recvs = rest

theorem readWhole_sole {cmd cap error h fuel : Nat} {chunk : List UInt8} {f : Frame}
    {errorPtr data len : Ptr Obj} {w : World Script} {rest : List Delivery}
    (hp : DataPlaces errorPtr data len) (hw : w.env.recvs = .frame f :: rest)
    (hlen : w.mem.load len 4 = cap) (hcap : cap < 2 ^ 31) (herr : error < 2 ^ 32)
    (header : HeaderOf cmd True h) (hb : f.bytes = firstBytes h error chunk.length chunk)
    (hsize : chunk.length ≤ 4068) (hfit : chunk.length ≤ cap) :
    ReadWhole error chunk rest errorPtr data len w
      (kmReadDataResponse scriptTransport fuel cmd errorPtr data len w) := by
  obtain ⟨hok, hstop, hclaimed, _, _⟩ := firstFrame_ok header hb hsize le_rfl hfit hcap
  rw [← hlen] at hok hclaimed
  obtain ⟨w', hrun, hrecvs, hread⟩ := kmReadDataResponse_stop hp hw hok
    (hstop.mpr trivial)
  obtain ⟨hgotErr, hstored⟩ := firstRead_values header.word hb herr hread
  refine ⟨w', hrun, hgotErr, ?_, hstored.reads, ?_, hrecvs⟩
  · rw [hread.gotLen, hclaimed]
  · intro n
    exact hstored.frame _ n hp.data_scratch (Or.inr (by simp))

theorem readWhole_more {cmd cap error h fuel : Nat} {chunk tail : List UInt8} {f : Frame}
    {fs : List Delivery} {errorPtr data len : Ptr Obj} {w : World Script} {rest : List Delivery}
    (hp : DataPlaces errorPtr data len) (hw : w.env.recvs = .frame f :: (fs ++ rest))
    (hfuel : (fs ++ rest).length < fuel) (hlen : w.mem.load len 4 = cap) (hcap : cap < 2 ^ 31)
    (herr : error < 2 ^ 32) (header : HeaderOf cmd False h)
    (hb : f.bytes = firstBytes h error (chunk ++ tail).length chunk)
    (hsize : chunk.length ≤ 4068) (htail : LaterFrames cmd tail fs)
    (hfit : (chunk ++ tail).length ≤ cap) :
    ReadWhole error (chunk ++ tail) rest errorPtr data len w
      (kmReadDataResponse scriptTransport fuel cmd errorPtr data len w) := by
  have hchunk : chunk.length + tail.length = (chunk ++ tail).length := List.length_append.symm
  obtain ⟨hok, hstop, hclaimed, hcount, hrem⟩ := firstFrame_ok header hb hsize (by omega) hfit hcap
  rw [← hlen] at hok hclaimed hrem
  obtain ⟨w₁, w', hrun, hread, hlater, hrecvs⟩ := kmReadDataResponse_more hp hw hfuel hok
    (fun hs => hstop.mp hs)
  have hall : laterRun cmd (w.mem.load len 4) f.bytes (fs ++ rest) =
      ⟨.complete, tail, fs.length⟩ := by
    rw [laterRun, hrem]
    exact htail.rawRun_eq (by omega) (by omega) rest
  have hnone : laterResult (w.mem.load len 4) f.bytes
      (laterRun cmd (w.mem.load len 4) f.bytes (fs ++ rest)) = trustyErrNone := by
    refine laterResult_eq_none.mpr ⟨?_, ?_, by omega⟩
    · rw [hall]
    · rw [hall, hrem]
      show tail.length = _
      omega
  rw [hnone] at hrun
  rw [hall, hcount] at hlater
  rw [hall] at hrecvs
  obtain ⟨hgotErr, hfirst⟩ := firstRead_values header.word hb herr hread
  have hout : data.block ∉ [Obj.kmDataHeader, errorPtr.block, len.block, .kmRawHeader] := by
    obtain ⟨hd, he, hl⟩ := hp.data_ne
    simp only [List.mem_cons, List.not_mem_nil, or_false, not_or]
    exact ⟨hd, he, hl, hp.data_raw⟩
  have hwhole := (hfirst.mono
    (by simp)).trans hout (hlater.mono (by simp))
  have hkeep : ∀ q : Ptr Obj, q.block ≠ .kmRawHeader → q.block ≠ data.block →
      w'.mem.load q 4 = w₁.load q 4 := by
    intro q hraw hdata
    rw [Mem.load, Mem.load, hlater.frame q 4 (by simpa using hraw)
      (Or.inl (by rw [Ptr.add_block]; exact Ne.symm hdata))]
  refine ⟨w', hrun, ?_, ?_, hwhole.reads, ?_, ?_⟩
  · rw [hkeep errorPtr hp.error_raw (Ne.symm hp.data_ne.2.1), hgotErr]
  · rw [hkeep len hp.len_raw (Ne.symm hp.data_ne.2.2), hread.gotLen, hclaimed]
  · intro n
    exact hwhole.frame _ n hout (Or.inr (by simp))
  · rw [hrecvs]
    exact List.drop_left' rfl

/-- However a response is cut into frames, reading it gives back its error word and its data. -/
theorem kmReadDataResponse_cut {cmd error cap fuel : Nat} {bytes : List UInt8}
    {frames rest : List Delivery} {errorPtr data len : Ptr Obj} {w : World Script}
    (hp : DataPlaces errorPtr data len) (hcut : ResponseCut cmd error bytes frames)
    (hw : w.env.recvs = frames ++ rest) (hfuel : (frames ++ rest).length < fuel)
    (hlen : w.mem.load len 4 = cap) (hcap : cap < 2 ^ 31) (herr : error < 2 ^ 32)
    (hfit : bytes.length ≤ cap) :
    ReadWhole error bytes rest errorPtr data len w
      (kmReadDataResponse scriptTransport fuel cmd errorPtr data len w) := by
  cases hcut with
  | sole header hb hsize =>
    exact readWhole_sole hp hw hlen hcap herr header hb hsize hfit
  | more header hb hsize tail =>
    rw [List.cons_append, List.length_cons] at hfuel
    exact readWhole_more hp hw (by omega) hlen hcap herr header hb hsize tail hfit

/-- Two bytes of data, one in each frame. -/
def twoFrames : List Delivery :=
  [.frame ⟨[1, 0, 1, 0, 5, 0, 0, 0, 2, 0, 0, 0, 7], by decide⟩,
    .frame ⟨[3, 0, 1, 0, 9], by decide⟩]

theorem twoFrames_cut : ResponseCut kmAtapGetCaRequest 5 [7, 9] twoFrames := by
  have hmore : HeaderOf kmAtapGetCaRequest False 65537 := ⟨by decide, by decide, by decide⟩
  have hlast : HeaderOf kmAtapGetCaRequest True 65539 := ⟨by decide, by decide, by decide⟩
  exact @ResponseCut.more _ _ _ [7] [9] _ _ hmore (by decide) (by decide)
    (.last hlast (by decide) (by decide) (by decide))

theorem twoFrames_read :
    ReadWhole 5 [7, 9] [] kmRespHeader ⟨.caller 0, 0⟩ ⟨.caller 1, 0⟩ (roomForSixteen twoFrames)
      (kmReadDataResponse scriptTransport 3 kmAtapGetCaRequest kmRespHeader ⟨.caller 0, 0⟩
        ⟨.caller 1, 0⟩ (roomForSixteen twoFrames)) :=
  @kmReadDataResponse_cut _ _ 16 _ _ _ _ _ _ _ _ callerPlaces twoFrames_cut rfl (by decide)
    (by decide) (by decide) (by decide) (by decide)

end ExternalTrusty
