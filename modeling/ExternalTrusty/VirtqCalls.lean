import ExternalTrusty.VirtqLaws

namespace ExternalTrusty

open CProgram

/-- A call of `recv_vq`, for an input queue, or of `send_vq`. -/
structure VqCall where
  isInput : Bool
  data : UInt64
  len : UInt64
  deriving DecidableEq

def VqCall.run (c : VqCall) : VqProg Int :=
  if c.isInput then recvVq c.data c.len else sendVq c.data c.len

def runCalls : List VqCall → VqProg (List Int)
  | [] => return []
  | c :: cs => do
    let ret ← c.run
    let rets ← runCalls cs
    return ret :: rets

def vqFlags (isInput : Bool) : UInt16 := if isInput then virtqDescFWrite else 0

/-- What `send_vq` and `recv_vq` have in common. -/
def transferVq (flags : UInt16) (data len : UInt64) (result : UInt32 → Int) : VqProg Int := do
  let idx : UInt16 ← call VqOp.oldUsedIdx
  if len = 0 then return 0
  else
    vqSetBuf flags (vqSlot idx) data len
    vqMakeAvail (vqSlot idx)
    vqKick
    vqWait
    vqSetBuf flags (vqSlot idx) 0 0
    let got ← vqAdv
    return result got

/-- The value that a call returns when the device reports `got`. -/
def VqCall.returns (c : VqCall) (got : UInt32) : Int :=
  if c.isInput then got.toNat else ssize c.len

theorem VqCall.run_eq (c : VqCall) :
    c.run = transferVq (vqFlags c.isInput) c.data c.len c.returns := by
  rcases c with ⟨isInput, data, len⟩
  cases isInput with
  | false => rfl
  | true => rfl

/-- The descriptor that holds a caller's buffer, as the `n`-th that the queue publishes. -/
def entry (isInput : Bool) (n : Nat) (data len : UInt64) : Published :=
  ⟨slotOf n, UInt16.ofNat (slotOf n), ⟨data, len.toUInt32, vqFlags isInput⟩⟩

/-- The descriptors that the calls publish, the first of them as the `n`-th of the queue. -/
def wanted (isInput : Bool) : Nat → List VqCall → List Published
  | _, [] => []
  | n, c :: cs =>
    if c.len = 0 then wanted isInput n cs
    else entry isInput n c.data c.len :: wanted isInput (n + 1) cs

/-- What the calls return when the device uses these elements for them. -/
inductive Answered : Nat → List VqCall → List Int → List VirtqUsedElem → Prop
  | done {n : Nat} : Answered n [] [] []
  | nothing {n : Nat} {c : VqCall} {cs : List VqCall} {rets : List Int}
    {used : List VirtqUsedElem} (empty : c.len = 0) (rest : Answered n cs rets used) :
    Answered n (c :: cs) (0 :: rets) used
  | moved {n : Nat} {c : VqCall} {cs : List VqCall} {rets : List Int}
    {used : List VirtqUsedElem} (u : VirtqUsedElem) (some : c.len ≠ 0)
    (id : u.id = (UInt16.ofNat (slotOf n)).toUInt32) (rest : Answered (n + 1) cs rets used) :
    Answered n (c :: cs) (c.returns u.len :: rets) (u :: used)

/-- A queue whose `n` buffers are all used and acknowledged. -/
structure View.Idle (isInput : Bool) (n : Nat) (v : View) : Prop where
  published : v.published.length = n
  seen : v.seen.length = n
  read : v.read = n
  desc : ∀ i, v.desc i = ⟨0, 0, vqFlags isInput⟩

/-- The queue at any moment of the calls: only `whole` is published, in this order; what the
device has not used yet is as it was published; and no descriptor changes its direction. -/
structure View.Calls (isInput : Bool) (whole : List Published) (v : View) : Prop where
  order : v.published <+: whole
  flags : ∀ i, (v.desc i).flags = vqFlags isInput
  kept : ∀ (k : Nat) (p : Published), v.published[k]? = some p → v.seen.length ≤ k →
    v.desc (vqSlot p.id) = p.desc

namespace View.Calls

variable {isInput : Bool} {whole : List Published} {v : View}

theorem setDesc (h : v.Calls isInput whole) (idle : v.published.length ≤ v.seen.length)
    {i : Fin vqSize} {d : VirtqDesc} (flags : d.flags = vqFlags isInput) :
    (v.setDesc i d).Calls isInput whole where
  order := h.order
  flags := by
    intro j
    show (Function.update v.desc i d j).flags = _
    by_cases same : j = i
    · rw [same, Function.update_self, flags]
    · rw [Function.update_of_ne same, h.flags]
  kept := by
    intro k p there later
    have inside : k < v.published.length := (List.getElem?_eq_some_iff.mp there).1
    exact absurd (Nat.lt_of_lt_of_le inside idle) (Nat.not_lt_of_le later)

theorem sees {v' : View} (h : v.Calls isInput whole) (found : v.Sees v') :
    v'.Calls isInput whole := by
  obtain ⟨used, rfl, longer, _⟩ := found
  exact { h with
    kept := by
      intro k p there later
      exact h.kept k p there (Nat.le_trans longer.length_le later) }

theorem makeAvail (h : v.Calls isInput whole) (idle : v.published.length ≤ v.seen.length)
    {i : Fin vqSize} (order : (v.makeAvail i).published <+: whole) :
    (v.makeAvail i).Calls isInput whole where
  order := order
  flags := h.flags
  kept := by
    intro k p there later
    have later : v.seen.length ≤ k := later
    rw [makeAvail_published] at there
    rcases getElem?_snoc there with before | ⟨_, rfl⟩
    · have inside : k < v.published.length := (List.getElem?_eq_some_iff.mp before).1
      exact absurd (Nat.lt_of_lt_of_le inside idle) (Nat.not_lt_of_le later)
    · show v.desc (vqSlot (UInt16.ofNat i)) = v.desc i
      rw [vqSlot_descId]

theorem acknowledge (h : v.Calls isInput whole) : v.acknowledge.Calls isInput whole :=
  { h with }

end View.Calls

theorem transferVq_empty {live : Prop} {good : View → Prop} {v : View} {flags : UInt16}
    {data : UInt64} {result : UInt32 → Int} {Q : Int → View → Prop} (now : good v) (last : Q 0 v) :
    Does live good v (transferVq flags data 0 result) Q := by
  refine keeps_act View.Inv.stable now (fun w held => ⟨held.oldUsedIdx, held⟩) ?_
  exact keeps_ret View.Inv.stable now last

/-- The view after a caller's buffer was put into the next descriptor and made available. -/
def View.offer (isInput : Bool) (n : Nat) (data len : UInt64) (v : View) : View :=
  (v.setDesc (slotOf n) ⟨data, len.toUInt32, vqFlags isInput⟩).makeAvail (slotOf n)

namespace View.Idle

variable {isInput : Bool} {n : Nat} {data len : UInt64} {v : View}

theorem even (idle : v.Idle isInput n) : v.published.length ≤ v.seen.length :=
  Nat.le_of_eq (idle.published.trans idle.seen.symm)

theorem offer_published (idle : v.Idle isInput n) :
    (v.offer isInput n data len).published = v.published ++ [entry isInput n data len] := by
  have place : (v.setDesc (slotOf n) ⟨data, len.toUInt32, vqFlags isInput⟩).published.length = n :=
    idle.published
  rw [View.offer, makeAvail_published, place, setDesc_self]
  rfl

theorem offer_length (idle : v.Idle isInput n) :
    (v.offer isInput n data len).published.length = n + 1 := by
  rw [idle.offer_published, List.length_append, idle.published]
  rfl

/-- The device has used the offered descriptor, and nothing else. -/
theorem offer_used {v' : View} (idle : v.Idle isInput n)
    (found : (v.offer isInput n data len).Sees v') (done : v'.read < v'.seen.length) :
    ∃ u, v' = (v.offer isInput n data len).see (v.seen ++ [u]) ∧
      u.id = (UInt16.ofNat (slotOf n)).toUInt32 := by
  obtain ⟨_, rfl, ⟨used, rfl⟩, ok⟩ := found
  have one : used.length = 1 := by
    have before : v.read < (v.seen ++ used).length := done
    have bound : (v.seen ++ used).length ≤ (v.offer isInput n data len).published.length :=
      ok.seenPublished
    rw [idle.offer_length] at bound
    rw [List.length_append, idle.seen] at before bound
    rw [idle.read] at before
    omega
  obtain ⟨u, rfl⟩ := List.length_eq_one_iff.mp one
  refine ⟨u, rfl, ok.ids n u (entry isInput n data len) ?_ ?_⟩
  · show (v.seen ++ [u])[n]? = some u
    rw [← idle.seen, List.getElem?_concat_length]
  · show (v.offer isInput n data len).published[n]? = _
    rw [idle.offer_published, ← idle.published, List.getElem?_concat_length]

/-- When the descriptor is reset and its element acknowledged, the queue is idle again. -/
theorem next (idle : v.Idle isInput n) (u : VirtqUsedElem) :
    ((((v.offer isInput n data len).see (v.seen ++ [u])).setDesc (slotOf n)
      ⟨0, 0, vqFlags isInput⟩).acknowledge).Idle isInput (n + 1) where
  published := idle.offer_length
  seen := by
    show (v.seen ++ [u]).length = n + 1
    rw [List.length_append, idle.seen]
    rfl
  read := congrArg (· + 1) idle.read
  desc := by
    intro i
    show Function.update (Function.update v.desc (slotOf n) _) (slotOf n) _ i = _
    rw [Function.update_idem]
    by_cases here : i = slotOf n
    · rw [here, Function.update_self]
    · rw [Function.update_of_ne here, idle.desc]

end View.Idle

/-- One transfer on an idle queue. -/
theorem transferVq_does {live : Prop} {isInput : Bool} {whole : List Published} {n : Nat}
    {v : View} {flags : UInt16} {data len : UInt64} {result : UInt32 → Int} (some : len ≠ 0)
    (idle : v.Idle isInput n) (held : v.Calls isInput whole)
    (order : v.published ++ [entry isInput n data len] <+: whole)
    (direction : vqFlags isInput ≠ flags → ¬live) :
    Does live (View.Calls isInput whole) v (transferVq flags data len result) fun ret v' =>
      ∃ u, v'.Idle isInput (n + 1) ∧ v'.Calls isInput whole ∧
        v'.published = v.published ++ [entry isInput n data len] ∧ v'.seen = v.seen ++ [u] ∧
        u.id = (UInt16.ofNat (slotOf n)).toUInt32 ∧ ret = result u.len ∧
        vqFlags isInput = flags := by
  have even := idle.even
  have read := idle.read
  refine keeps_act View.Inv.stable held (fun w held => ⟨held.oldUsedIdx, held⟩) ?_
  rw [if_neg some, read, vqSlot_ofNat]
  let filled := v.setDesc (slotOf n) ⟨data, len.toUInt32, vqFlags isInput⟩
  have fills : filled.Calls isInput whole := held.setDesc even rfl
  refine keeps_bind (R := fun _ u => u = filled ∧ vqFlags isInput = flags) ?_ ?_
  · have found := held.flags (slotOf n)
    refine vqSetBuf_does held (held.setDesc even found) (held.setDesc even found) ?_ ?_
    · rw [found]
      exact direction
    · rw [found]
      intro same
      exact ⟨rfl, same⟩
  rintro _ _ ⟨rfl, same⟩
  -- the descriptor is published
  have published : (v.offer isInput n data len).published = _ := idle.offer_published
  have given : (v.offer isInput n data len).Calls isInput whole := by
    refine fills.makeAvail even ?_
    rw [← published] at order
    exact order
  refine keeps_bind (R := fun _ u => u = v.offer isInput n data len) ?_ ?_
  · refine vqMakeAvail_does ?_ fills { fills with } given rfl
    show v.published.length < v.read + 32
    rw [read, idle.published]
    omega
  rintro _ _ rfl
  refine keeps_act View.Inv.stable given (fun w held => ⟨rfl, held⟩) ?_
  apply does_of_ok
  intro ok
  refine keeps_bind (R := fun _ u => (v.offer isInput n data len).Sees u ∧
    u.read < u.seen.length) ?_ ?_
  · refine vqWait_does ?_ ⟨_, rfl, List.prefix_rfl, ok⟩ (fun v' found => given.sees found)
      (fun v' found done => ⟨found, done⟩)
    rw [idle.offer_length]
    show v.read < n + 1
    omega
  rintro _ _ ⟨found, done⟩
  have back := given.sees found
  obtain ⟨u, rfl, id⟩ := idle.offer_used found done
  -- the descriptor is reset, and the element acknowledged
  let taken := (v.offer isInput n data len).see (v.seen ++ [u])
  have even : taken.published.length ≤ taken.seen.length := by
    show (v.offer isInput n data len).published.length ≤ (v.seen ++ [u]).length
    rw [idle.offer_length, List.length_append, idle.seen]
    exact Nat.le_refl _
  have clear : (taken.setDesc (slotOf n) ⟨0, 0, vqFlags isInput⟩).Calls isInput whole :=
    back.setDesc even rfl
  refine keeps_bind (R := fun _ z => z = taken.setDesc (slotOf n) ⟨0, 0, vqFlags isInput⟩) ?_ ?_
  · have found := back.flags (slotOf n)
    refine vqSetBuf_does back (back.setDesc even found) (back.setDesc even found) ?_ ?_
    · rw [found]
      exact direction
    · rw [found]
      intro _
      rfl
  rintro _ _ rfl
  refine keeps_bind (R := fun got z => got = u.len ∧
    z = (taken.setDesc (slotOf n) ⟨0, 0, vqFlags isInput⟩).acknowledge) ?_ ?_
  · refine vqAdv_does ?_ clear clear.acknowledge ⟨rfl, rfl⟩
    show (v.seen ++ [u])[v.read]? = _
    rw [read, ← idle.seen, List.getElem?_concat_length]
  rintro _ _ ⟨rfl, rfl⟩
  exact keeps_ret View.Inv.stable clear.acknowledge
    ⟨u, idle.next u, clear.acknowledge, published, rfl, id, rfl, same⟩

theorem runCalls_does {live : Prop} {isInput : Bool} {whole : List Published}
    {calls : List VqCall} (ways : live → ∀ c ∈ calls, c.len ≠ 0 → c.isInput = isInput) {n : Nat}
    {v : View} (idle : v.Idle isInput n) (held : v.Calls isInput whole)
    (order : v.published ++ wanted isInput n calls = whole) :
    Does live (View.Calls isInput whole) v (runCalls calls) fun rets v' =>
      ∃ used, v'.Idle isInput (n + used.length) ∧ v'.Calls isInput whole ∧
        v'.published = whole ∧ v'.seen = v.seen ++ used ∧ Answered n calls rets used := by
  induction calls generalizing n v with
  | nil =>
    have same : v.published = whole := by
      rw [← order]
      exact (List.append_nil _).symm
    exact keeps_ret View.Inv.stable held
      ⟨[], idle, held, same, (List.append_nil _).symm, .done⟩
  | cons c cs ih =>
    have ways' : live → ∀ d ∈ cs, d.len ≠ 0 → d.isInput = isInput := fun alive d mem =>
      ways alive d (List.mem_cons_of_mem c mem)
    by_cases empty : c.len = 0
    · rw [wanted, if_pos empty] at order
      refine keeps_bind (R := fun ret u => ret = 0 ∧ u = v) ?_ ?_
      · rw [c.run_eq, empty]
        exact transferVq_empty held ⟨rfl, rfl⟩
      rintro _ _ ⟨rfl, rfl⟩
      refine keeps_bind (ih ways' idle held order) ?_
      rintro rets v' ⟨used, rest, now, published, seen, answered⟩
      exact keeps_ret View.Inv.stable now
        ⟨used, rest, now, published, seen, .nothing empty answered⟩
    · rw [wanted, if_neg empty] at order
      have first : v.published ++ [entry isInput n c.data c.len] <+: whole := by
        refine ⟨wanted isInput (n + 1) cs, ?_⟩
        rw [List.append_assoc]
        exact order
      have direction : vqFlags isInput ≠ vqFlags c.isInput → ¬live := by
        intro differ alive
        apply differ
        rw [ways alive c List.mem_cons_self empty]
      rw [runCalls, c.run_eq]
      refine keeps_bind (transferVq_does empty idle held first direction) ?_
      rintro _ v' ⟨u, rest, now, published, seen, id, rfl, _⟩
      refine keeps_bind (ih ways' rest now ?_) ?_
      · rw [published, List.append_assoc]
        exact order
      rintro rets v'' ⟨used, last, now, published, seen', answered⟩
      refine keeps_ret View.Inv.stable now ⟨u :: used, ?_, now, published, ?_, ?_⟩
      · rw [List.length_cons, Nat.add_comm used.length 1, ← Nat.add_assoc]
        exact last
      · rw [seen', seen, List.append_assoc]
        rfl
      · exact .moved u empty id answered

/-- What the driver knows of a fresh queue. -/
def View.start (isInput : Bool) : View :=
  ⟨fun _ => ⟨0, 0, vqFlags isInput⟩, fun _ => 0, [], [], 0, []⟩

theorem View.start_inv (isInput : Bool) : (View.start isInput).Inv (vqInit isInput) where
  ok :=
    { window := Nat.zero_le 32
      named := nofun
      readSeen := Nat.le_refl 0
      seenPublished := Nat.le_refl 0
      ids := nofun }
  desc := rfl
  ring := rfl
  published := rfl
  availIdx := rfl
  oldUsedIdx := rfl
  events := rfl
  seen := List.prefix_rfl
  usedIdx := rfl
  lastAvail := rfl
  takenPublished := Nat.le_refl 0
  ids := nofun
  recent := nofun
  pending := nofun

/-- A queue between two calls: the three indices agree, and every descriptor has a null buffer of
length 0, and its direction. -/
structure VqWorld.AtRest (isInput : Bool) (w : VqWorld) : Prop where
  availIdx : w.raw.availIdx = UInt16.ofNat w.published.length
  usedIdx : w.raw.usedIdx = w.raw.availIdx
  oldUsedIdx : w.oldUsedIdx = w.raw.availIdx
  reset : ∀ i, w.raw.desc i = ⟨0, 0, vqFlags isInput⟩

theorem View.Inv.atRest {isInput : Bool} {n : Nat} {v : View} {w : VqWorld} (h : v.Inv w)
    (idle : v.Idle isInput n) : w.AtRest isInput ∧ w.used = v.seen := by
  have all : w.used.length = v.seen.length := by
    have bound := h.used_le
    have more := h.seen_le
    rw [idle.published] at bound
    rw [idle.seen] at more ⊢
    omega
  refine ⟨⟨?_, ?_, ?_, ?_⟩, (h.seen.eq_of_length all.symm).symm⟩
  · rw [h.availIdx, h.published]
  · rw [h.usedIdx, h.availIdx, all, idle.seen, idle.published]
  · rw [h.oldUsedIdx, h.availIdx, idle.read, idle.published]
  · intro i
    rw [h.desc, idle.desc]

/-- A queue at any moment of some calls: what the device has not used is as it was published, no
descriptor has changed its direction, and no more is published than the calls have asked for. -/
structure VqWorld.Serves (isInput : Bool) (calls : List VqCall) (w : VqWorld) : Prop where
  ring : ∀ (k : Nat) (p : Published), w.published[k]? = some p → w.used.length ≤ k →
    w.raw.availRing (slotOf k) = p.id
  kept : ∀ (k : Nat) (p : Published), w.published[k]? = some p → w.used.length ≤ k →
    w.raw.desc (vqSlot p.id) = p.desc
  flags : ∀ i, (w.raw.desc i).flags = vqFlags isInput
  order : w.published <+: wanted isInput 0 calls

theorem View.Inv.serves {isInput : Bool} {calls : List VqCall} {v : View} {w : VqWorld}
    (h : v.Inv w) (held : v.Calls isInput (wanted isInput 0 calls)) : w.Serves isInput calls where
  ring := fun _ _ there later => h.named later there
  kept := by
    intro k p there later
    rw [h.published] at there
    rw [h.desc]
    exact held.kept k p there (Nat.le_trans h.seen_le later)
  flags := by
    intro i
    rw [h.desc, held.flags]
  order := by
    rw [h.published]
    exact held.order

/-- What the calls do, whatever their lengths. -/
theorem runCalls_reaches {isInput : Bool} {calls : List VqCall} {p : VqProg (List Int)}
    {w : VqWorld} (run : VqReaches (runCalls calls, vqInit isInput) (p, w)) :
    w.Serves isInput calls ∧
      (∀ rets, p = .ret rets → w.AtRest isInput ∧ w.published = wanted isInput 0 calls ∧
        Answered 0 calls rets w.used) ∧
      ((∀ c ∈ calls, c.len ≠ 0 → c.isInput = isInput) →
        ∃ rets w', VqReaches (p, w) (.ret rets, w')) := by
  have idle : (View.start isInput).Idle isInput 0 := ⟨rfl, rfl, rfl, fun _ => rfl⟩
  have held : (View.start isInput).Calls isInput (wanted isInput 0 calls) :=
    ⟨List.nil_prefix, fun _ => rfl, nofun⟩
  have does : Does (∀ c ∈ calls, c.len ≠ 0 → c.isInput = isInput) _ _ _ _ :=
    runCalls_does id idle held rfl
  obtain ⟨⟨v, inv, on⟩, last, ends⟩ := does _ (View.start_inv isInput) p w run
  refine ⟨inv.serves on, ?_, ends⟩
  intro rets ended
  obtain ⟨v, inv, used, rest, _, published, seen, answered⟩ := last rets ended
  obtain ⟨rests, same⟩ := inv.atRest rest
  refine ⟨rests, inv.published.trans published, ?_⟩
  rw [same, seen]
  exact answered

/-- The calls and what came of them, in order: a call without anything to move does nothing; any
other call publishes one descriptor, in the next slot of the ring, with the caller's buffer and
all of its length, and the device's next element is about that descriptor. -/
inductive Transfers (isInput : Bool) :
    Nat → List VqCall → List Int → List Published → List VirtqUsedElem → Prop
  | done {n : Nat} : Transfers isInput n [] [] [] []
  | nothing {n : Nat} {c : VqCall} {cs : List VqCall} {rets : List Int}
    {published : List Published} {used : List VirtqUsedElem} (empty : c.len = 0)
    (rest : Transfers isInput n cs rets published used) :
    Transfers isInput n (c :: cs) (0 :: rets) published used
  | moved {n : Nat} {c : VqCall} {cs : List VqCall} {ret : Int} {rets : List Int} {p : Published}
    {published : List Published} {u : VirtqUsedElem} {used : List VirtqUsedElem}
    (some : c.len ≠ 0) (slot : p.slot = slotOf n) (id : p.id.toNat = n % vqSize)
    (addr : p.desc.addr = c.data) (len : p.desc.len.toNat = c.len.toNat)
    (flags : p.desc.flags = vqFlags isInput) (usedId : u.id.toNat = n % vqSize)
    (returned : ret = if c.isInput then (u.len.toNat : Int) else c.len.toNat)
    (rest : Transfers isInput (n + 1) cs rets published used) :
    Transfers isInput n (c :: cs) (ret :: rets) (p :: published) (u :: used)

theorem toNat_slotOf (n : Nat) : (UInt16.ofNat (slotOf n)).toNat = n % vqSize := by
  have small : n % vqSize < vqSize := Nat.mod_lt n (by decide)
  show (UInt16.ofNat (n % vqSize)).toNat = n % vqSize
  rw [UInt16.toNat_ofNat', Nat.mod_eq_of_lt (Nat.lt_trans small (by decide))]

/-- Where every length fits into a descriptor, all of it is moved. -/
theorem Answered.transfers {isInput : Bool} {n : Nat} {calls : List VqCall} {rets : List Int}
    {used : List VirtqUsedElem} (h : Answered n calls rets used)
    (fits : ∀ c ∈ calls, c.len.toNat < 2 ^ 32) :
    Transfers isInput n calls rets (wanted isInput n calls) used := by
  induction h with
  | done => exact .done
  | nothing empty _ ih =>
    rw [wanted, if_pos empty]
    exact .nothing empty (ih fun c mem => fits c (List.mem_cons_of_mem _ mem))
  | @moved n c cs rets used u some id _ ih =>
    have small : c.len.toNat < 2 ^ 32 := fits c List.mem_cons_self
    rw [wanted, if_neg some]
    refine .moved some rfl (toNat_slotOf n) rfl ?_ rfl ?_ ?_
      (ih fun c mem => fits c (List.mem_cons_of_mem _ mem))
    · show c.len.toUInt32.toNat = c.len.toNat
      rw [UInt64.toNat_toUInt32, Nat.mod_eq_of_lt small]
    · rw [id, UInt16.toNat_toUInt32, toNat_slotOf]
    · rw [VqCall.returns, ssize, if_pos (Nat.lt_trans small (by decide))]

/-- The device is shown every buffer that is not empty, whole and in the order of the calls. -/
theorem Transfers.buffers {isInput : Bool} {n : Nat} {calls : List VqCall} {rets : List Int}
    {published : List Published} {used : List VirtqUsedElem}
    (h : Transfers isInput n calls rets published used) :
    published.map (fun p => (p.desc.addr, p.desc.len.toNat)) =
      (calls.filter fun c => c.len ≠ 0).map fun c => (c.data, c.len.toNat) := by
  induction h with
  | done => rfl
  | nothing empty _ ih =>
    rw [List.filter_cons_of_neg (by simp [empty]), ih]
  | moved some _ _ addr len _ _ _ _ ih =>
    rw [List.filter_cons_of_pos (by simp [some]), List.map_cons, List.map_cons, addr, len, ih]

theorem runCalls_buffers {isInput : Bool} {calls : List VqCall}
    (fits : ∀ c ∈ calls, c.len.toNat < 2 ^ 32) (ways : ∀ c ∈ calls, c.isInput = isInput)
    {p : VqProg (List Int)} {w : VqWorld}
    (run : VqReaches (runCalls calls, vqInit isInput) (p, w)) :
    (∃ rets w', VqReaches (p, w) (.ret rets, w')) ∧
      ∀ rets, p = .ret rets → w.published.map (fun d => (d.desc.addr, d.desc.len.toNat)) =
        (calls.filter fun c => c.len ≠ 0).map fun c => (c.data, c.len.toNat) := by
  obtain ⟨_, last, ends⟩ := runCalls_reaches run
  refine ⟨ends fun c mem _ => ways c mem, ?_⟩
  intro rets ended
  obtain ⟨_, published, answered⟩ := last rets ended
  rw [published]
  exact (answered.transfers fits : Transfers isInput 0 _ _ _ _).buffers

/-- `send_vq` with some bytes at an address -/
def sendCall (b : UInt64 × List UInt8) : VqCall := ⟨false, b.1, UInt64.ofNat b.2.length⟩

/-- Sending comes to an end, from any point of a run, and then the device was shown every buffer
that is not empty, whole and in order. -/
def Delivered (bufs : List (UInt64 × List UInt8)) : Prop :=
  ∀ p w, VqReaches (runCalls (bufs.map sendCall), vqInit false) (p, w) →
    (∃ rets w', VqReaches (p, w) (.ret rets, w')) ∧
    ∀ rets, p = .ret rets → w.published.map (fun d => (d.desc.addr, d.desc.len.toNat)) =
      (bufs.filter fun b => b.2 ≠ []).map fun b => (b.1, b.2.length)

theorem delivered {bufs : List (UInt64 × List UInt8)} (fits : ∀ b ∈ bufs, b.2.length < 2 ^ 32) :
    Delivered bufs := by
  have size : ∀ b ∈ bufs, (sendCall b).len.toNat = b.2.length := by
    intro b mem
    rw [sendCall, UInt64.toNat_ofNat', Nat.mod_eq_of_lt (Nat.lt_trans (fits b mem) (by decide))]
  intro p w run
  have short : ∀ c ∈ bufs.map sendCall, c.len.toNat < 2 ^ 32 := by
    intro c mem
    obtain ⟨b, there, rfl⟩ := List.mem_map.mp mem
    rw [size b there]
    exact fits b there
  have ways : ∀ c ∈ bufs.map sendCall, c.isInput = false := by
    intro c mem
    obtain ⟨b, _, rfl⟩ := List.mem_map.mp mem
    rfl
  obtain ⟨ends, last⟩ := runCalls_buffers short ways run
  refine ⟨ends, ?_⟩
  intro rets ended
  have kept : bufs.filter (fun b => (sendCall b).len ≠ 0) = bufs.filter fun b => b.2 ≠ [] := by
    refine List.filter_congr ?_
    intro b mem
    rw [decide_eq_decide, not_iff_not, ← List.length_eq_zero_iff, ← size b mem]
    exact UInt64.toNat_inj.symm
  rw [last rets ended, List.filter_map, List.map_map]
  show (bufs.filter fun b => (sendCall b).len ≠ 0).map _ = _
  rw [kept]
  refine List.map_congr_left ?_
  intro b mem
  exact congrArg (Prod.mk b.1) (size b (List.mem_of_mem_filter mem))

end ExternalTrusty
