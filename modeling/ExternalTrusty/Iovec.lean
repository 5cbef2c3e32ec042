import ExternalTrusty.World

namespace ExternalTrusty

open CMemory

def iovecSize (iovs : List Iovec) : Nat :=
  iovs.foldl (fun cb v => usize (cb + v.len.toNat)) 0

/-- `iovec_to_buf`: gather into the page from `buf`, with `bufLen` bytes of room left and
`bufPos` bytes done. -/
def iovecToBuf (m : Mem Obj) (page : Mem Page) (buf : Ptr Page) :
    Nat → Nat → List Iovec → Nat × Mem Obj × Mem Page
  | bufPos, _, [] => (bufPos, m, page)
  | bufPos, bufLen, v :: vs =>
    if v.len = 0 then iovecToBuf m page buf bufPos bufLen vs
    else
      let toCopy := if bufLen < v.len.toNat then bufLen else v.len.toNat
      let page := page.write (buf.add bufPos) (m.read v.base toCopy)
      let m := m.touch v.base toCopy
      if bufLen - toCopy = 0 then (bufPos + toCopy, m, page)
      else iovecToBuf m page buf (bufPos + toCopy) (bufLen - toCopy) vs

/-- The loop of `buf_to_iovec`, at `bufPtr` with `bufLen` bytes left. -/
def bufToIovecLoop (page : Mem Page) (m : Mem Obj) :
    Nat → Ptr Page → Nat → List Iovec → Nat × Mem Page × Mem Obj
  | copied, _, _, [] => (copied, page, m)
  | copied, bufPtr, bufLen, v :: vs =>
    let toCopy := if v.len.toNat < bufLen then v.len.toNat else bufLen
    if toCopy = 0 then bufToIovecLoop page m copied bufPtr bufLen vs
    else
      let m := m.write v.base (page.read bufPtr toCopy)
      let page := page.touch bufPtr toCopy
      if bufLen - toCopy = 0 then (copied + toCopy, page, m)
      else bufToIovecLoop page m (copied + toCopy) (bufPtr.add toCopy) (bufLen - toCopy) vs

def bufToIovec (page : Mem Page) (m : Mem Obj) (iovs : List Iovec) (buf : Ptr Page) (bufLen : Nat) :
    Nat × Mem Page × Mem Obj :=
  if iovs = [] ∨ bufLen = 0 then (0, page, m) else bufToIovecLoop page m 0 buf bufLen iovs

theorem iovecSize_eq (iovs : List Iovec) : iovecSize iovs = usize (total (segs iovs)) := by
  have hfold : ∀ cb, iovs.foldl (fun cb v => usize (cb + v.len.toNat)) (usize cb) =
      usize (cb + total (segs iovs)) := by
    induction iovs with
    | nil => intro cb; simp
    | cons v vs ih =>
      intro cb
      have hstep : usize (usize cb + v.len.toNat) = usize (cb + v.len.toNat) := by
        unfold usize; omega
      rw [List.foldl_cons, hstep, ih, segs_cons, total_cons, Iovec.seg_len, Nat.add_assoc]
  have hzero : usize 0 = 0 := rfl
  have h := hfold 0
  rw [hzero, Nat.zero_add] at h
  exact h

/-- Gathering a list that fits leaves in the page the bytes of one write of its concatenation. -/
theorem iovecToBuf_spec {m : Mem Obj} {page : Mem Page} {buf : Ptr Page} {bufPos bufLen : Nat}
    {iovs : List Iovec} (h : total (segs iovs) ≤ bufLen) :
    (iovecToBuf m page buf bufPos bufLen iovs).1 = bufPos + total (segs iovs) ∧
    (iovecToBuf m page buf bufPos bufLen iovs).2.1.bytes = m.bytes ∧
    (iovecToBuf m page buf bufPos bufLen iovs).2.2.bytes =
      (page.write (buf.add bufPos) (gather m (segs iovs))).bytes ∧
    Footprint .store page (iovecToBuf m page buf bufPos bufLen iovs).2.2 fun b i =>
      buf.block = b ∧ buf.off + bufPos ≤ i ∧ i < buf.off + bufPos + total (segs iovs) := by
  induction iovs generalizing m page bufPos bufLen with
  | nil =>
    refine ⟨by simp [iovecToBuf], rfl, (Mem.write_nil_bytes _ _).symm, ?_⟩
    apply (Footprint.refl _ page).congr
    intro b i
    simp only [segs_nil, total_nil, false_iff]
    omega
  | cons v vs ih =>
    rw [segs_cons, total_cons, Iovec.seg_len] at h
    rw [iovecToBuf]
    by_cases hz : v.len = 0
    · have hlen : v.len.toNat = 0 := by simp [hz]
      rw [if_pos hz, segs_cons, total_cons, Iovec.seg_len, hlen, Nat.zero_add, gather_cons,
        Iovec.seg_len, hlen, Mem.read_zero, List.nil_append]
      exact ih (by omega)
    · have hpos : v.len.toNat ≠ 0 := fun hn => hz (UInt64.toNat_inj.mp hn)
      have hcopy : (if bufLen < v.len.toNat then bufLen else v.len.toNat) = v.len.toNat :=
        if_neg (by omega)
      simp only [if_neg hz, hcopy]
      have hstore := Footprint.write page (buf.add bufPos) (m.read v.base v.len.toNat)
      have hbytes : ∀ rest : List UInt8,
          ((page.write (buf.add bufPos) (m.read v.base v.len.toNat)).write
            (buf.add (bufPos + v.len.toNat)) rest).bytes =
          (page.write (buf.add bufPos) (m.read v.base v.len.toNat ++ rest)).bytes := by
        intro rest
        have hw := Mem.write_write_bytes page (buf.add bufPos) (m.read v.base v.len.toNat) rest
        rw [Mem.read_length] at hw
        simpa only [Ptr.add, Nat.add_assoc] using hw
      split
      next hfull =>
        -- the room is used up, so every segment that is left is empty
        have hrest : total (segs vs) = 0 := by omega
        have hnil : gather m (segs vs) = [] := List.eq_nil_of_length_eq_zero (by simp [hrest])
        refine ⟨by simp [hrest], rfl, ?_, ?_⟩
        · simp only [segs_cons, gather_cons, Iovec.seg_base, Iovec.seg_len, hnil, List.append_nil]
        · apply hstore.congr
          intro b i
          simp only [Ptr.add, Mem.read_length, segs_cons, total_cons, Iovec.seg_len, hrest,
            Nat.add_zero]
      next =>
        obtain ⟨hpos', hmem, hpage, hfoot⟩ := @ih
          (m.touch v.base v.len.toNat) (page.write (buf.add bufPos) (m.read v.base v.len.toNat))
          (bufPos + v.len.toNat) (bufLen - v.len.toNat) (by omega)
        refine ⟨?_, hmem, ?_, ?_⟩
        · rw [hpos', segs_cons, total_cons, Iovec.seg_len]
          omega
        · rw [hpage, hbytes, @gather_congr _ (m.touch v.base v.len.toNat) m rfl,
            segs_cons, gather_cons, Iovec.seg_base, Iovec.seg_len]
        · apply (hstore.trans hfoot).congr
          intro b i
          simp only [Ptr.add, Mem.read_length, segs_cons, total_cons, Iovec.seg_len]
          constructor
          · rintro (⟨hb, h1, h2⟩ | ⟨hb, h1, h2⟩) <;> exact ⟨hb, by omega, by omega⟩
          · rintro ⟨hb, h1, h2⟩
            by_cases hi : i < buf.off + bufPos + v.len.toNat
            · exact Or.inr ⟨hb, h1, hi⟩
            · exact Or.inl ⟨hb, by omega, by omega⟩

theorem bufToIovecLoop_spec {page : Mem Page} {m : Mem Obj} {copied : Nat} {buf : Ptr Page}
    {bufLen : Nat} {iovs : List Iovec} :
    (bufToIovecLoop page m copied buf bufLen iovs).1 =
      copied + min (total (segs iovs)) bufLen ∧
    (bufToIovecLoop page m copied buf bufLen iovs).2.2 =
      scatter m (segs iovs) (page.read buf bufLen) ∧
    (bufToIovecLoop page m copied buf bufLen iovs).2.1.bytes = page.bytes ∧
    ∃ new, (bufToIovecLoop page m copied buf bufLen iovs).2.1.log = new ++ page.log ∧
      moved .load new = min (total (segs iovs)) bufLen ∧
      ∀ b i, Covers .load new b i ↔
        buf.block = b ∧ buf.off ≤ i ∧ i < buf.off + min (total (segs iovs)) bufLen := by
  induction iovs generalizing page m copied buf bufLen with
  | nil =>
    refine ⟨by simp [bufToIovecLoop], rfl, rfl, [], rfl, by simp [moved], ?_⟩
    intro b i
    simp only [covers_nil, segs_nil, total_nil, Nat.zero_min, false_iff]
    omega
  | cons v vs ih =>
    have hchunk : (page.read buf bufLen).take v.len.toNat =
        page.read buf (if v.len.toNat < bufLen then v.len.toNat else bufLen) := by
      split
      next hlt => exact Mem.read_take page buf (by omega)
      next hge => exact List.take_of_length_le (by simp; omega)
    rw [bufToIovecLoop, segs_cons, total_cons, Iovec.seg_len, scatter, Iovec.seg_base,
      Iovec.seg_len, hchunk]
    generalize hcopy : (if v.len.toNat < bufLen then v.len.toNat else bufLen) = toCopy
    have hle : toCopy ≤ bufLen := by rw [← hcopy]; split <;> omega
    have hlev : toCopy ≤ v.len.toNat := by rw [← hcopy]; split <;> omega
    have hmin : toCopy = v.len.toNat ∨ toCopy = bufLen := by rw [← hcopy]; split <;> simp
    by_cases hz : toCopy = 0
    · have hput : m.put v.base (page.read buf toCopy) = m := by simp [Mem.put, hz]
      rw [if_pos hz, hput]
      rcases hmin with hv | hb
      · have hv0 : v.len.toNat = 0 := by omega
        rw [hv0, Nat.zero_add, List.drop_zero]
        exact ih
      · have hb0 : bufLen = 0 := by omega
        have hi := @ih page m copied buf bufLen
        simp only [hb0, Mem.read_zero, Nat.min_zero, scatter_nil_bytes, List.drop_nil] at hi ⊢
        exact hi
    · have hput : m.put v.base (page.read buf toCopy) = m.write v.base (page.read buf toCopy) := by
        apply if_neg
        intro hnil
        have := congrArg List.length hnil
        simp only [Mem.read_length, List.length_nil] at this
        exact hz this
      simp only [if_neg hz, hput]
      have hdrop : (page.read buf bufLen).drop v.len.toNat =
          (page.touch buf toCopy).read (buf.add toCopy) (bufLen - toCopy) := by
        rw [Mem.read_touch]
        rcases hmin with hv | hb
        · rw [← hv, Mem.read_drop page buf hle]
        · rw [hb, Nat.sub_self, Mem.read_zero, List.drop_eq_nil_of_le (by simp; omega)]
      split
      next hfull =>
        have hall : min (v.len.toNat + total (segs vs)) bufLen = toCopy := by omega
        have hb : bufLen - toCopy = 0 := hfull
        rw [hall, hdrop, hb, Mem.read_zero, scatter_nil_bytes]
        refine ⟨rfl, rfl, rfl, [⟨.load, buf.block, buf.off, toCopy⟩], rfl, by simp [moved], ?_⟩
        intro b i
        simp [covers_cons]
      next hmore =>
        have hv : toCopy = v.len.toNat := by omega
        obtain ⟨hpos, hmem, hpage, new, hlog, hmoved, hcov⟩ := @ih
          (page.touch buf toCopy) (m.write v.base (page.read buf toCopy)) (copied + toCopy)
          (buf.add toCopy) (bufLen - toCopy)
        have hsum : min (v.len.toNat + total (segs vs)) bufLen =
            toCopy + min (total (segs vs)) (bufLen - toCopy) := by omega
        rw [hsum, hdrop]
        refine ⟨by rw [hpos, Nat.add_assoc], hmem, hpage,
          new ++ [⟨.load, buf.block, buf.off, toCopy⟩],
          by rw [hlog, List.append_assoc]; rfl, ?_, ?_⟩
        · rw [moved_append, hmoved]
          simp [moved]
          omega
        · intro b i
          rw [covers_append, hcov]
          simp only [covers_cons, covers_nil, or_false, eq_self, true_and, Ptr.add_block,
            Ptr.add_off]
          constructor
          · rintro (⟨hb, h1, h2⟩ | ⟨hb, h1, h2⟩) <;> exact ⟨hb, by omega, by omega⟩
          · rintro ⟨hb, h1, h2⟩
            by_cases hi : i < buf.off + toCopy
            · exact Or.inr ⟨hb, h1, hi⟩
            · exact Or.inl ⟨hb, by omega, by omega⟩

/-- `buf_to_iovec` fills the caller's buffers from the page, reading exactly as many bytes from
`buf` on as it reports. -/
theorem bufToIovec_spec {page : Mem Page} {m : Mem Obj} {buf : Ptr Page} {bufLen : Nat}
    {iovs : List Iovec} :
    (bufToIovec page m iovs buf bufLen).1 = min (total (segs iovs)) bufLen ∧
    (bufToIovec page m iovs buf bufLen).2.2 = scatter m (segs iovs) (page.read buf bufLen) ∧
    (bufToIovec page m iovs buf bufLen).2.1.bytes = page.bytes ∧
    ∃ new, (bufToIovec page m iovs buf bufLen).2.1.log = new ++ page.log ∧
      moved .load new = min (total (segs iovs)) bufLen ∧
      ∀ b i, Covers .load new b i ↔
        buf.block = b ∧ buf.off ≤ i ∧ i < buf.off + min (total (segs iovs)) bufLen := by
  unfold bufToIovec
  split
  next hempty =>
    have hmin : min (total (segs iovs)) bufLen = 0 := by
      rcases hempty with rfl | rfl <;> simp
    have hscatter : scatter m (segs iovs) (page.read buf bufLen) = m := by
      rcases hempty with rfl | rfl
      · rfl
      · exact scatter_nil_bytes m _
    rw [hmin, hscatter]
    refine ⟨rfl, rfl, rfl, [], rfl, rfl, ?_⟩
    intro b i
    simp only [covers_nil, false_iff]
    omega
  next =>
    have h := @bufToIovecLoop_spec page m 0 buf bufLen iovs
    simpa only [Nat.zero_add] using h

end ExternalTrusty
