import ExternalTrusty.Layers
import ExternalTrusty.RpmbProxy

namespace ExternalTrusty.UBoot

open CProgram

variable {α : Type}

/-! `storage_ops_uboot.c` -/

def mmcPartRpmb : UInt8 := 3

/-- What `rpmb_storage_send` asks of the MMC driver, and its accesses to `block_dev.hwpart`. A
response comes with what it leaves in the buffer. -/
inductive MmcOp
  | hwpart
  | setHwpart (part : UInt8)
  | switchPart (part : UInt8)
  | request (frames : List UInt8) (count : Nat) (reliable : Bool)
  | response (count : Nat)

def MmcOp.Res : MmcOp → Type
  | .hwpart => UInt8
  | .setHwpart _ => Unit
  | .switchPart _ => Int
  | .request _ _ _ => Int
  | .response _ => Int × List UInt8

abbrev MmcProg := Prog MmcOp MmcOp.Res

/-- Before its transfers the device is switched to its RPMB partition. -/
def selectRpmb : MmcProg Bool := do
  let part : UInt8 ← call MmcOp.hwpart
  if part ≠ mmcPartRpmb then
    let ret : Int ← call (MmcOp.switchPart mmcPartRpmb)
    if ret ≠ 0 then return false
    else
      call (MmcOp.setHwpart mmcPartRpmb)
      return true
  else return true

/-- The checks before a transfer; with a result other than 0, the transfers end. -/
def inBlocks (size : Nat) (result : Int → α) (transfer : Nat → MmcProg α) : MmcProg α :=
  if size ≠ 0 then
    if size % mmcBlockSize ≠ 0 then return result trustyErrInvalidArgs
    else transfer (size / mmcBlockSize)
  else return result trustyErrNone

def rpmbWrite (data : List UInt8) (reliable : Bool) : MmcProg Int :=
  inBlocks data.length id fun count => call (MmcOp.request data count reliable)

/-- The read, with what is copied to the caller's buffer. -/
def rpmbRead (readSize : Nat) : MmcProg (Int × List UInt8) :=
  inBlocks readSize (·, []) fun count => call (MmcOp.response count)

def transfers (rel write : List UInt8) (readSize : Nat) : MmcProg (Int × List UInt8) := do
  let ret ← rpmbWrite rel true
  if ret ≠ 0 then return (ret, [])
  else
    let ret ← rpmbWrite write false
    if ret ≠ 0 then return (ret, [])
    else rpmbRead readSize

/-- What follows the label `end`. -/
def restorePart (original : UInt8) (ret : Int) : MmcProg Int := do
  let part : UInt8 ← call MmcOp.hwpart
  if part ≠ original then
    let back : Int ← call (MmcOp.switchPart original)
    if back ≠ 0 then return trustyErrGeneric
    else
      call (MmcOp.setHwpart original)
      return ret
  else return ret

def rpmbStorageSend (rel write : List UInt8) (readSize : Nat) : MmcProg (Int × List UInt8) := do
  let original : UInt8 ← call MmcOp.hwpart
  let selected ← selectRpmb
  if selected then
    let (ret, read) ← transfers rel write readSize
    let ret ← restorePart original ret
    return (ret, read)
  else
    let ret ← restorePart original trustyErrGeneric
    return (ret, [])

/-! The device -/

inductive MmcTransfer
  | write (frames : List UInt8) (count : Nat) (reliable : Bool)
  | read (count : Nat)

/-- A transfer, the partition that was selected then, its result, and what was read. -/
structure Transferred where
  what : MmcTransfer
  part : UInt8
  result : Int
  bytes : List UInt8

/-- The partition that is selected, what `hwpart` says of it, and the transfers so far. -/
structure MmcDevice where
  part : UInt8
  hwpart : UInt8
  done : List Transferred

namespace MmcDevice

def made (d : MmcDevice) (x : Transferred) : MmcDevice := { d with done := d.done ++ [x] }

/-- A switch that fails leaves the partition as it is. Some drivers set `hwpart` themselves. -/
def switch (sets : Bool) (d : MmcDevice) (part : UInt8) (ret : Int) : MmcDevice :=
  if ret = 0 then { d with part := part, hwpart := if sets then part else d.hwpart } else d

def may (d : MmcDevice) : Event MmcOp MmcOp.Res → Prop
  | ⟨.hwpart, r⟩ => r = d.hwpart
  | _ => True

def next (sets : Bool) (d : MmcDevice) : Event MmcOp MmcOp.Res → MmcDevice
  | ⟨.setHwpart part, _⟩ => { d with hwpart := part }
  | ⟨.switchPart part, ret⟩ => d.switch sets part ret
  | ⟨.request frames count reliable, ret⟩ =>
    d.made ⟨.write frames count reliable, d.part, ret, []⟩
  | ⟨.response count, r⟩ => d.made ⟨.read count, d.part, Prod.fst r, Prod.snd r⟩
  | ⟨.hwpart, _⟩ => d

def layer (sets : Bool) : Layer MmcOp MmcOp.Res MmcDevice := ⟨may, next sets⟩

end MmcDevice

/-! What a call is to transfer -/

def planned (size : Nat) (what : Nat → MmcTransfer) : List MmcTransfer :=
  if size ≠ 0 then [what (size / mmcBlockSize)] else []

def writes (data : List UInt8) (reliable : Bool) : List MmcTransfer :=
  planned data.length (.write data · reliable)

def reads (readSize : Nat) : List MmcTransfer := planned readSize .read

/-- The first transfers of a plan, and none after one that failed. -/
structure Piece (plan : List MmcTransfer) (part : UInt8) (piece : List Transferred) : Prop where
  planned : piece.map Transferred.what <+: plan
  went : ∀ x ∈ piece.dropLast, x.result = 0
  there : ∀ x ∈ piece, x.part = part

/-- A plan that went well. -/
structure Whole (plan : List MmcTransfer) (part : UInt8) (piece : List Transferred) : Prop where
  planned : piece.map Transferred.what = plan
  went : ∀ x ∈ piece, x.result = 0
  there : ∀ x ∈ piece, x.part = part

section Plans

variable {plan plan' : List MmcTransfer} {part : UInt8} {made made' : List Transferred}

theorem Piece.nil : Piece plan part [] := ⟨List.nil_prefix, nofun, nofun⟩

theorem Whole.nil : Whole [] part [] := ⟨rfl, nofun, nofun⟩

theorem Piece.single {x : Transferred} (what : x.what ∈ plan.head?) (there : x.part = part) :
    Piece plan part [x] := by
  obtain ⟨rest, rfl⟩ : ∃ rest, plan = x.what :: rest := by
    cases plan with
    | nil => cases what
    | cons y rest =>
      cases what
      exact ⟨rest, rfl⟩
  refine ⟨⟨rest, rfl⟩, nofun, ?_⟩
  exact List.forall_mem_singleton.mpr there

theorem Whole.piece (h : Whole plan part made) : Piece plan part made :=
  ⟨⟨[], by rw [h.planned, List.append_nil]⟩,
    fun x mem => h.went x (List.dropLast_subset _ mem), h.there⟩

theorem Piece.more (h : Piece plan part made) : Piece (plan ++ plan') part made :=
  ⟨h.planned.trans (List.prefix_append ..), h.went, h.there⟩

theorem Whole.andThen (h : Whole plan part made) (h' : Piece plan' part made') :
    Piece (plan ++ plan') part (made ++ made') where
  planned := by
    rw [List.map_append, h.planned]
    exact (List.prefix_append_right_inj plan).mpr h'.planned
  went x mem := by
    cases made' with
    | nil =>
      rw [List.append_nil] at mem
      exact h.went x (List.dropLast_subset _ mem)
    | cons y ys =>
      rw [List.dropLast_append_of_ne_nil (List.cons_ne_nil y ys)] at mem
      rcases List.mem_append.mp mem with first | second
      · exact h.went x first
      · exact h'.went x second
  there x mem := by
    rcases List.mem_append.mp mem with first | second
    · exact h.there x first
    · exact h'.there x second

theorem Whole.append (h : Whole plan part made) (h' : Whole plan' part made') :
    Whole (plan ++ plan') part (made ++ made') where
  planned := by rw [List.map_append, h.planned, h'.planned]
  went x mem := (List.mem_append.mp mem).elim (h.went x) (h'.went x)
  there x mem := (List.mem_append.mp mem).elim (h.there x) (h'.there x)

end Plans

/-- What a call made of its plan: all of it, if its result is 0. -/
structure Carried (plan : List MmcTransfer) (blocks : Prop) (ret : Int) (read : List UInt8)
    (made : List Transferred) : Prop where
  piece : Piece plan mmcPartRpmb made
  whole : ret = 0 → Whole plan mmcPartRpmb made ∧ blocks
  read : read = made.flatMap Transferred.bytes

namespace Carried

variable {plan plan' : List MmcTransfer} {blocks blocks' : Prop} {ret : Int}
  {read read' : List UInt8} {made made' : List Transferred}

theorem nothing (hblocks : blocks) : Carried [] blocks ret [] [] :=
  ⟨.nil, fun _ => ⟨.nil, hblocks⟩, rfl⟩

theorem refused (hret : ret ≠ 0) : Carried plan blocks ret [] [] :=
  ⟨.nil, fun went => absurd went hret, rfl⟩

theorem single {what : MmcTransfer} (hblocks : blocks) :
    Carried [what] blocks ret read [⟨what, mmcPartRpmb, ret, read⟩] where
  piece := .single rfl rfl
  whole went := ⟨⟨rfl, List.forall_mem_singleton.mpr went, List.forall_mem_singleton.mpr rfl⟩,
    hblocks⟩
  read := (List.append_nil read).symm

theorem stopped (h : Carried plan blocks ret read made) (hret : ret ≠ 0) :
    Carried (plan ++ plan') (blocks ∧ blocks') ret read made :=
  ⟨h.piece.more, fun went => absurd went hret, h.read⟩

theorem andThen (h : Carried plan blocks 0 read made) (h' : Carried plan' blocks' ret read' made') :
    Carried (plan ++ plan') (blocks ∧ blocks') ret (read ++ read') (made ++ made') where
  piece := (h.whole rfl).1.andThen h'.piece
  whole went := ⟨(h.whole rfl).1.append (h'.whole went).1, (h.whole rfl).2, (h'.whole went).2⟩
  read := by rw [List.flatMap_append, ← h.read, ← h'.read]

end Carried

/-- The device, on a partition that `hwpart` knows of. -/
def MmcDevice.on (part : UInt8) (done : List Transferred) : MmcDevice := ⟨part, part, done⟩

section Calls

variable {sets : Bool} {good : MmcDevice → Prop} {part : UInt8} {done : List Transferred}

/-- A switch, and what follows it. -/
theorem switchPart_keeps {d : MmcDevice} {next : UInt8} {fails goes : MmcProg α}
    {post : α → MmcDevice → Prop} (hgood : ∀ d' : MmcDevice, d'.done = d.done → good d')
    (failed : (MmcDevice.layer sets).Keeps good d fails post)
    (went : (MmcDevice.layer sets).Keeps good (.on next d.done) goes post) :
    (MmcDevice.layer sets).Keeps good d (do
      let ret : Int ← call (MmcOp.switchPart next)
      if ret ≠ 0 then fails
      else
        call (MmcOp.setHwpart next)
        goes) post := by
  refine .bind (.call (hgood d rfl) ?_)
  intro (ret : Int) _
  by_cases hret : ret = 0
  · subst hret
    refine ⟨hgood _ rfl, .bind (.call (hgood _ rfl) ?_)⟩
    intro _ _
    exact ⟨hgood _ rfl, went⟩
  · have same : (MmcDevice.layer sets).next d ⟨MmcOp.switchPart next, ret⟩ = d := if_neg hret
    rw [same, if_pos hret]
    exact ⟨hgood d rfl, failed⟩

theorem selectRpmb_keeps (hgood : ∀ d : MmcDevice, d.done = done → good d) :
    (MmcDevice.layer sets).Keeps good (.on part done) selectRpmb fun ok d =>
      d = .on (if ok then mmcPartRpmb else part) done := by
  refine .bind (.call (hgood _ rfl) ?_)
  rintro _ rfl
  refine ⟨hgood _ rfl, ?_⟩
  split
  next => exact switchPart_keeps hgood (.ret (hgood _ rfl) rfl) (.ret (hgood _ rfl) rfl)
  next same =>
    refine .ret (hgood _ rfl) ?_
    rw [not_not.mp same]
    rfl

/-- After a switch that fails, the result is `TRUSTY_ERR_GENERIC`. -/
theorem restorePart_keeps {original : UInt8} {ret : Int}
    (hgood : ∀ d : MmcDevice, d.done = done → good d) :
    (MmcDevice.layer sets).Keeps good (.on part done) (restorePart original ret) fun rc d =>
      rc = ret ∧ d = .on original done ∨ rc = trustyErrGeneric ∧ d = .on part done := by
  refine .bind (.call (hgood _ rfl) ?_)
  rintro _ rfl
  refine ⟨hgood _ rfl, ?_⟩
  split
  next =>
    exact switchPart_keeps hgood (.ret (hgood _ rfl) (Or.inr ⟨rfl, rfl⟩))
      (.ret (hgood _ rfl) (Or.inl ⟨rfl, rfl⟩))
  next same =>
    refine .ret (hgood _ rfl) (Or.inl ⟨rfl, ?_⟩)
    rw [← not_not.mp same]
    rfl

/-- With a plan's transfers under way, the device is good. -/
abbrev GoodFor (good : MmcDevice → Prop) (done : List Transferred) (plan : List MmcTransfer) :
    Prop :=
  ∀ made, Piece plan mmcPartRpmb made → good (.on mmcPartRpmb (done ++ made))

theorem GoodFor.now {plan : List MmcTransfer} (h : GoodFor good done plan) :
    good (.on mmcPartRpmb done) := by
  simpa using h [] .nil

/-- The program carries out a plan, as far as it goes. -/
def Carries (sets : Bool) (good : MmcDevice → Prop) (done : List Transferred)
    (plan : List MmcTransfer) (blocks : Prop) (view : α → Int × List UInt8)
    (p : MmcProg α) : Prop :=
  (MmcDevice.layer sets).Keeps good (.on mmcPartRpmb done) p fun a d =>
    ∃ made, d = .on mmcPartRpmb (done ++ made) ∧ Carried plan blocks (view a).1 (view a).2 made

theorem inBlocks_carries {size : Nat} {what : Nat → MmcTransfer} {result : Int → α}
    {transfer : Nat → MmcProg α} {view : α → Int × List UInt8}
    (hview : ∀ ret, view (result ret) = (ret, []))
    (hgood : GoodFor good done (planned size what))
    (htransfer : ∀ count, GoodFor good done [what count] →
      (MmcDevice.layer sets).Keeps good (.on mmcPartRpmb done) (transfer count) fun a d =>
        d = .on mmcPartRpmb (done ++ [⟨what count, mmcPartRpmb, (view a).1, (view a).2⟩])) :
    Carries sets good done (planned size what) (size % mmcBlockSize = 0) view
      (inBlocks size result transfer) := by
  have here : .on mmcPartRpmb done = MmcDevice.on mmcPartRpmb (done ++ []) := by
    rw [List.append_nil]
  unfold planned at hgood ⊢
  unfold inBlocks
  by_cases empty : size = 0
  · subst empty
    refine .ret hgood.now ⟨[], here, ?_⟩
    rw [hview]
    exact .nothing rfl
  · rw [if_pos empty] at hgood ⊢
    rw [if_pos empty]
    by_cases whole : size % mmcBlockSize = 0
    · rw [if_neg (not_not_intro whole)]
      refine (htransfer _ hgood).mono ?_
      rintro a _ rfl
      exact ⟨_, rfl, .single whole⟩
    · rw [if_pos whole]
      refine .ret hgood.now ⟨[], here, ?_⟩
      rw [hview]
      exact .refused (by decide)

theorem rpmbWrite_carries {data : List UInt8} {reliable : Bool}
    (hgood : GoodFor good done (writes data reliable)) :
    Carries sets good done (writes data reliable) (data.length % mmcBlockSize = 0) (·, [])
      (rpmbWrite data reliable) := by
  refine inBlocks_carries (fun _ => rfl) hgood ?_
  intro count hgood
  refine .call hgood.now ?_
  intro (ret : Int) _
  exact ⟨hgood _ (.single rfl rfl), rfl⟩

theorem rpmbRead_carries {readSize : Nat} (hgood : GoodFor good done (reads readSize)) :
    Carries sets good done (reads readSize) (readSize % mmcBlockSize = 0) id
      (rpmbRead readSize) := by
  refine inBlocks_carries (fun _ => rfl) hgood ?_
  intro count hgood
  refine .call hgood.now ?_
  intro (r : Int × List UInt8) _
  exact ⟨hgood _ (.single rfl rfl), rfl⟩

/-- One write, and then the rest of the transfers. -/
theorem carries_andThen {plan plan' : List MmcTransfer} {blocks blocks' : Prop} {p : MmcProg Int}
    {q : MmcProg (Int × List UInt8)} (hgood : GoodFor good done (plan ++ plan'))
    (first : GoodFor good done plan → Carries sets good done plan blocks (·, []) p)
    (rest : ∀ before, GoodFor good before plan' → Carries sets good before plan' blocks' id q) :
    Carries sets good done (plan ++ plan') (blocks ∧ blocks') id (do
      let ret ← p
      if ret ≠ 0 then return (ret, [])
      else q) := by
  refine .bind ((first fun made piece => hgood made piece.more).mono ?_)
  rintro ret _ ⟨made, rfl, carried⟩
  by_cases hret : ret = 0
  · subst hret
    have later : GoodFor good (done ++ made) plan' := by
      intro made' piece
      rw [List.append_assoc]
      exact hgood _ ((carried.whole rfl).1.andThen piece)
    refine (rest _ later).mono ?_
    rintro r _ ⟨made', rfl, carried'⟩
    exact ⟨made ++ made', by rw [List.append_assoc], carried.andThen carried'⟩
  · rw [if_pos hret]
    exact .ret (hgood made carried.piece.more) ⟨made, rfl, carried.stopped hret⟩

end Calls

/-- A call's arguments. -/
structure StorageSend where
  rel : List UInt8
  write : List UInt8
  readSize : Nat

namespace StorageSend

def plan (c : StorageSend) : List MmcTransfer :=
  writes c.rel true ++ (writes c.write false ++ reads c.readSize)

def InBlocks (c : StorageSend) : Prop :=
  c.rel.length % mmcBlockSize = 0 ∧ c.write.length % mmcBlockSize = 0 ∧
    c.readSize % mmcBlockSize = 0

def run (c : StorageSend) : MmcProg (Int × List UInt8) := rpmbStorageSend c.rel c.write c.readSize

end StorageSend

section Calls

variable {sets : Bool} {good : MmcDevice → Prop} {part : UInt8} {done : List Transferred}

theorem transfers_carries (c : StorageSend) (hgood : GoodFor good done c.plan) :
    Carries sets good done c.plan c.InBlocks id (transfers c.rel c.write c.readSize) := by
  refine carries_andThen hgood rpmbWrite_carries ?_
  intro before hgood
  refine carries_andThen hgood rpmbWrite_carries ?_
  intro before hgood
  exact rpmbRead_carries hgood

/-- What a call leaves: `TRUSTY_ERR_GENERIC` may mean that the RPMB partition is still selected. -/
def Left (c : StorageSend) (part : UInt8) (done : List Transferred) (r : Int × List UInt8)
    (d : MmcDevice) : Prop :=
  ∃ left made, d = .on left (done ++ made) ∧ Carried c.plan c.InBlocks r.1 r.2 made ∧
    (left = part ∨ left = mmcPartRpmb ∧ r.1 = trustyErrGeneric)

theorem run_keeps (c : StorageSend)
    (hgood : ∀ d : MmcDevice, ∀ made, Piece c.plan mmcPartRpmb made → d.done = done ++ made →
      good d) :
    (MmcDevice.layer sets).Keeps good (.on part done) c.run (Left c part done) := by
  have start : ∀ d : MmcDevice, d.done = done → good d := fun d same =>
    hgood d [] .nil (same.trans (List.append_nil _).symm)
  have generic : trustyErrGeneric ≠ 0 := by decide
  refine .bind (.call (start _ rfl) ?_)
  rintro original rfl
  refine ⟨start _ rfl, .bind ((selectRpmb_keeps start).mono ?_)⟩
  rintro selected _ rfl
  cases selected with
  | false =>
    have here : .on original done = MmcDevice.on original (done ++ []) := by rw [List.append_nil]
    refine .bind ((restorePart_keeps start).mono ?_)
    rintro rc _ (⟨rfl, rfl⟩ | ⟨rfl, rfl⟩)
    · exact .ret (start _ rfl) ⟨original, [], here, .refused generic, Or.inl rfl⟩
    · exact .ret (start _ rfl) ⟨original, [], here, .refused generic, Or.inl rfl⟩
  | true =>
    refine .bind ((transfers_carries c fun made piece => hgood _ made piece rfl).mono ?_)
    rintro ⟨ret, read⟩ _ ⟨made, rfl, carried⟩
    have later : ∀ d : MmcDevice, d.done = done ++ made → good d := fun d same =>
      hgood d made carried.piece same
    refine .bind ((restorePart_keeps later).mono ?_)
    rintro rc _ (⟨rfl, rfl⟩ | ⟨rfl, rfl⟩)
    · exact .ret (later _ rfl) ⟨original, made, rfl, carried, Or.inl rfl⟩
    · refine .ret (later _ rfl) ⟨mmcPartRpmb, made, rfl, ?_, Or.inr ⟨rfl, rfl⟩⟩
      exact ⟨carried.piece, fun went => absurd went generic, carried.read⟩

end Calls

/-- Calls, one after the other. -/
def storageSession : List StorageSend → MmcProg (List (Int × List UInt8))
  | [] => return []
  | c :: calls => do
    let r ← c.run
    let rs ← storageSession calls
    return r :: rs

/-- What calls transfer: a piece of each one's plan, in the calls' order. -/
inductive UnderWay : List StorageSend → List Transferred → Prop
  | nil : UnderWay [] []
  | here {c : StorageSend} {calls : List StorageSend} {made : List Transferred}
    (piece : Piece c.plan mmcPartRpmb made) : UnderWay (c :: calls) made
  | next {c : StorageSend} {calls : List StorageSend} {made more : List Transferred}
    (piece : Piece c.plan mmcPartRpmb made) (rest : UnderWay calls more) :
    UnderWay (c :: calls) (made ++ more)

/-- What calls have transferred, with their results. -/
inductive Session : List StorageSend → List (Int × List UInt8) → List Transferred → Prop
  | nil : Session [] [] []
  | cons {c : StorageSend} {calls : List StorageSend} {r : Int × List UInt8}
    {rs : List (Int × List UInt8)} {made more : List Transferred}
    (carried : Carried c.plan c.InBlocks r.1 r.2 made) (rest : Session calls rs more) :
    Session (c :: calls) (r :: rs) (made ++ more)

theorem UnderWay.start (calls : List StorageSend) : UnderWay calls [] := by
  cases calls with
  | nil => exact .nil
  | cons c calls => exact .here .nil

theorem Session.underWay {calls : List StorageSend} {rs : List (Int × List UInt8)}
    {more : List Transferred} (h : Session calls rs more) : UnderWay calls more := by
  induction h with
  | nil => exact .nil
  | cons carried _ ih => exact .next carried.piece ih

section Sessions

variable {sets : Bool} {good : MmcDevice → Prop} {part : UInt8} {done : List Transferred}

/-- The device after calls: on its own partition, unless a call has failed. -/
def LeftAll (calls : List StorageSend) (part : UInt8) (done : List Transferred)
    (rs : List (Int × List UInt8)) (d : MmcDevice) : Prop :=
  ∃ left more, d = .on left (done ++ more) ∧ Session calls rs more ∧
    (left = part ∨ left = mmcPartRpmb ∧ ∃ r ∈ rs, r.1 = trustyErrGeneric)

theorem storageSession_keeps (calls : List StorageSend)
    (hgood : ∀ d : MmcDevice, ∀ more, UnderWay calls more → d.done = done ++ more → good d) :
    (MmcDevice.layer sets).Keeps good (.on part done) (storageSession calls)
      (LeftAll calls part done) := by
  induction calls generalizing part done with
  | nil =>
    refine .ret (hgood _ [] .nil (List.append_nil _).symm) ⟨part, [], ?_, .nil, Or.inl rfl⟩
    rw [List.append_nil]
  | cons c calls ih =>
    have hfirst : ∀ d : MmcDevice, ∀ made, Piece c.plan mmcPartRpmb made →
        d.done = done ++ made → good d := fun d made piece => hgood d made (.here piece)
    refine .bind ((run_keeps c hfirst).mono ?_)
    rintro r _ ⟨left, made, rfl, carried, hleft⟩
    have hrest : ∀ d : MmcDevice, ∀ more, UnderWay calls more →
        d.done = done ++ made ++ more → good d := by
      intro d more way same
      exact hgood d (made ++ more) (.next carried.piece way) (by rw [same, List.append_assoc])
    refine .bind (.mono (ih hrest) ?_)
    rintro rs _ ⟨last, more, rfl, session, hlast⟩
    refine .ret (hrest _ more session.underWay rfl)
      ⟨last, made ++ more, ?_, .cons carried session, ?_⟩
    · rw [List.append_assoc]
    · rcases hlast with rfl | ⟨rfl, x, mem, failed⟩
      · refine hleft.imp_right ?_
        rintro ⟨stays, failed⟩
        exact ⟨stays, r, List.mem_cons_self, failed⟩
      · exact Or.inr ⟨rfl, x, List.mem_cons_of_mem r mem, failed⟩

/-- Whatever the driver answers, over any number of calls: transfers are made with the RPMB
partition selected, a call that returns 0 has made all of its own, and the partition is put back
unless the call says that it failed. -/
theorem storageSession_selects {calls : List StorageSend}
    {t : List (Event MmcOp MmcOp.Res)} (starts : (storageSession calls).Starts t)
    (plays : (MmcDevice.layer sets).Plays (.on part []) t) :
    UnderWay calls ((MmcDevice.layer sets).after (.on part []) t).done ∧
      ∀ rs, (storageSession calls).Runs t rs →
        LeftAll calls part [] rs ((MmcDevice.layer sets).after (.on part []) t) := by
  have keeps : (MmcDevice.layer sets).Keeps (fun d => UnderWay calls d.done) (.on part [])
      (storageSession calls) (LeftAll calls part []) := by
    refine storageSession_keeps calls ?_
    rintro d more way same
    rw [same]
    exact way
  exact ⟨keeps.1 t starts plays, fun rs run => keeps.2 t rs run plays⟩

end Sessions

/-- A driver that does all it is asked for, and reads fives. -/
def mmcAnswers (d : MmcDevice) : (o : MmcOp) → o.Res
  | .hwpart => d.hwpart
  | .setHwpart _ => ()
  | .switchPart _ => (0 : Int)
  | .request _ _ _ => (0 : Int)
  | .response count => (0, List.replicate (mmcBlockSize * count) 5)

theorem mmcAnswers_may (d : MmcDevice) (o : MmcOp) :
    (MmcDevice.layer true).may d ⟨o, mmcAnswers d o⟩ := by
  cases o with
  | hwpart => rfl
  | _ => trivial

def twoCalls : List StorageSend :=
  [⟨List.replicate 512 1, List.replicate 1024 2, 512⟩, ⟨[], [3], 512⟩]

def twoCallsRun : Option (List (Event MmcOp MmcOp.Res) × List (Int × List UInt8) × MmcDevice) :=
  (storageSession twoCalls).exec
    (fun d o => (mmcAnswers d o, (MmcDevice.layer true).next d ⟨o, mmcAnswers d o⟩)) 1 (.on 1 [])

/-- Of the second call, nothing is transferred. -/
theorem storageSession_selects_twoCalls : ∃ t rs, rs.map Prod.fst = [0, trustyErrInvalidArgs] ∧
    ((MmcDevice.layer true).after (.on 1 []) t).done.map Transferred.result = [0, 0, 0] ∧
    UnderWay twoCalls ((MmcDevice.layer true).after (.on 1 []) t).done ∧
      LeftAll twoCalls 1 [] rs ((MmcDevice.layer true).after (.on 1 []) t) := by
  have hdone : twoCallsRun.map (fun x => (x.2.1.map Prod.fst, x.2.2.done.map Transferred.result)) =
      some ([0, trustyErrInvalidArgs], [0, 0, 0]) := by decide +kernel
  obtain ⟨⟨t, rs, d⟩, hexec, heq⟩ := Option.map_eq_some_iff.mp hdone
  obtain ⟨hrets, hresults⟩ := Prod.mk.inj heq
  obtain ⟨hplays, hafter⟩ := Layer.exec_plays mmcAnswers mmcAnswers_may hexec
  have run := Prog.exec_runs hexec
  obtain ⟨way, left⟩ := storageSession_selects run.starts hplays
  exact ⟨t, rs, hrets, by rw [hafter, hresults], way, left rs run⟩

end ExternalTrusty.UBoot
