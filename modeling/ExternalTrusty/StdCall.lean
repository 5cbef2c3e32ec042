import ExternalTrusty.TrustyDev

namespace ExternalTrusty.Dev

open CMemory CProgram

/-- A call to the monitor and the code it came back with. -/
abbrev Exchange := SmcRegs × Int

def exchangeOf : TrustyEvent → Option Exchange
  | ⟨.smc8 args, ret⟩ => some (args, regInt ret.r0)
  | _ => none

def exchanges (h : List TrustyEvent) : List Exchange := h.filterMap exchangeOf

def stdRegs (nr a0 a1 a2 : UInt64) : SmcRegs := ⟨nr, a0, a1, a2, 0, 0, 0, 0⟩

def restartFiq : SmcRegs := stdRegs smcScRestartFiq.toUInt64 0 0 0

def restartLast : SmcRegs := stdRegs smcScRestartLast.toUInt64 0 0 0

/-- The most recent call other than the restart after an FIQ. -/
def recentCall (calls : List Exchange) : Option SmcRegs :=
  ((calls.filter fun x => x.1 ≠ restartFiq).getLast?).map Prod.fst

/-- What the codes ask for: the call that is to come next, if any. -/
def nextCall (calls : List Exchange) : Option SmcRegs :=
  match calls.getLast? with
  | none => none
  | some (_, r) =>
    if r = smErrFiqInterrupted then some restartFiq
    else if r = smErrInterrupted ∨ r = smErrCpuIdle then some restartLast
    else if r = smErrBusy then recentCall calls
    else none

/-- Exchanges that begin with `orig` and go on as the codes ask. -/
inductive Protocol (orig : SmcRegs) : List Exchange → Prop
  | first (r : Int) : Protocol orig [(orig, r)]
  | next {calls : List Exchange} {c : SmcRegs} (r : Int) (before : Protocol orig calls)
    (asked : nextCall calls = some c) : Protocol orig (calls ++ [(c, r)])

theorem recentCall_concat (calls : List Exchange) (c : SmcRegs) (r : Int) :
    recentCall (calls ++ [(c, r)]) = if c = restartFiq then recentCall calls else some c := by
  unfold recentCall
  rw [List.filter_append]
  by_cases hc : c = restartFiq
  · simp [hc]
  · simp [hc]

theorem nextCall_concat (calls : List Exchange) (c : SmcRegs) (r : Int) :
    nextCall (calls ++ [(c, r)]) =
      if r = smErrFiqInterrupted then some restartFiq
      else if r = smErrInterrupted ∨ r = smErrCpuIdle then some restartLast
      else if r = smErrBusy then recentCall (calls ++ [(c, r)])
      else none := by
  unfold nextCall
  rw [List.getLast?_concat]

/-- Every exchange is the first one, or the one that was asked for. -/
theorem Protocol.split {orig : SmcRegs} {calls : List Exchange} (h : Protocol orig calls) :
    ∀ pre y post, calls = pre ++ y :: post →
      (pre = [] ∧ y.1 = orig) ∨ (Protocol orig pre ∧ nextCall pre = some y.1) := by
  induction h with
  | first r =>
    intro pre y post heq
    cases pre with
    | nil =>
      left
      rw [← List.head_eq_of_cons_eq heq]
      exact ⟨rfl, rfl⟩
    | cons x pre => exact absurd (List.tail_eq_of_cons_eq heq) (by simp)
  | @next calls c r before asked ih =>
    intro pre y post heq
    rcases concat_eq_split.mp heq with ⟨_, rfl, rfl⟩ | ⟨post', _, hcalls⟩
    · exact Or.inr ⟨before, asked⟩
    · exact ih pre y post' hcalls

theorem Protocol.ne_nil {orig : SmcRegs} {calls : List Exchange} (h : Protocol orig calls) :
    calls ≠ [] := by
  cases h with
  | first => simp
  | next => simp

/-- The next exchange, seen from the one before it. -/
theorem Protocol.asked {orig : SmcRegs} {calls : List Exchange} (h : Protocol orig calls)
    {pre post : List Exchange} {x y : Exchange} (heq : calls = pre ++ x :: y :: post) :
    nextCall (pre ++ [x]) = some y.1 := by
  have hsplit : calls = (pre ++ [x]) ++ y :: post := by rw [heq, List.append_assoc]; rfl
  rcases h.split _ y post hsplit with ⟨hnil, _⟩ | ⟨_, hnext⟩
  · simp at hnil
  · exact hnext

theorem exchanges_append (h t : List TrustyEvent) :
    exchanges (h ++ t) = exchanges h ++ exchanges t := List.filterMap_append

theorem exchanges_smc (h : List TrustyEvent) (args ret : SmcRegs) :
    exchanges (h ++ [⟨.smc8 args, ret⟩]) = exchanges h ++ [(args, regInt ret.r0)] := by
  rw [exchanges_append]
  rfl

/-- Interrupts are masked, as far as this history tells. -/
def irqMasked (h : List TrustyEvent) : Bool :=
  h.foldl (fun masked e =>
    match e.1 with
    | .irqDisable => true
    | .irqRestore => false
    | _ => masked) false

/-- The calls other than restarts after an FIQ since interrupts were last restored. -/
def burst (h : List TrustyEvent) : Nat :=
  h.foldl (fun n e =>
    match e.1 with
    | .irqRestore => 0
    | .smc8 args => if args = restartFiq then n else n + 1
    | _ => n) 0

/-- Every call is made with interrupts masked, and not too many without restoring them. -/
def IrqLaw (h : List TrustyEvent) : Prop :=
  ∀ pre e post, h = pre ++ e :: post → (exchangeOf e).isSome →
    irqMasked pre = true ∧ burst (pre ++ [e]) ≤ 6

theorem irqLaw_concat {h : List TrustyEvent} {e : TrustyEvent} (hlaw : IrqLaw h)
    (he : (exchangeOf e).isSome → irqMasked h = true ∧ burst (h ++ [e]) ≤ 6) :
    IrqLaw (h ++ [e]) := by
  intro pre x post heq hx
  rcases concat_eq_split.mp heq with ⟨_, rfl, rfl⟩ | ⟨post', _, hh⟩
  · exact he hx
  · exact hlaw pre x post' hh hx

theorem burst_smc (h : List TrustyEvent) (args ret : SmcRegs) :
    burst (h ++ [⟨.smc8 args, ret⟩]) = if args = restartFiq then burst h else burst h + 1 := by
  unfold burst
  rw [List.foldl_append]
  rfl

theorem irqMasked_smc (h : List TrustyEvent) (args ret : SmcRegs) :
    irqMasked (h ++ [⟨.smc8 args, ret⟩]) = irqMasked h := by
  unfold irqMasked
  rw [List.foldl_append]
  rfl

/-- So far nothing has gone wrong: the exchanges follow the protocol, with interrupts masked. -/
structure Sound (orig : SmcRegs) (h : List TrustyEvent) : Prop where
  protocol : exchanges h = [] ∨ Protocol orig (exchanges h)
  irqs : IrqLaw h

/-- `c` is the call to make now. -/
structure Due (orig c : SmcRegs) (h : List TrustyEvent) : Prop where
  call : (exchanges h = [] ∧ c = orig) ∨ (Protocol orig (exchanges h) ∧
    nextCall (exchanges h) = some c)
  irqs : IrqLaw h

/-- The last code was `r`, for `c` or for a restart of it after FIQs. -/
structure Answered (orig c : SmcRegs) (r : Int) (h : List TrustyEvent) : Prop where
  protocol : Protocol orig (exchanges h)
  recent : recentCall (exchanges h) = some c
  code : (exchanges h).getLast?.map Prod.snd = some r
  irqs : IrqLaw h

theorem Due.sound {orig c : SmcRegs} {h : List TrustyEvent} (hd : Due orig c h) : Sound orig h :=
  ⟨hd.call.imp And.left And.left, hd.irqs⟩

theorem Answered.sound {orig c : SmcRegs} {r : Int} {h : List TrustyEvent}
    (ha : Answered orig c r h) : Sound orig h := ⟨Or.inr ha.protocol, ha.irqs⟩

theorem Answered.nextCall_eq {orig c : SmcRegs} {r : Int} {h : List TrustyEvent}
    (ha : Answered orig c r h) : nextCall (exchanges h) =
      if r = smErrFiqInterrupted then some restartFiq
      else if r = smErrInterrupted ∨ r = smErrCpuIdle then some restartLast
      else if r = smErrBusy then some c
      else none := by
  obtain ⟨⟨c', r'⟩, hlast, hr⟩ := Option.map_eq_some_iff.mp ha.code
  obtain rfl : r' = r := hr
  unfold nextCall
  rw [hlast, ha.recent]

/-- Making the call that is due. -/
theorem Due.made {orig c : SmcRegs} {h : List TrustyEvent} {n : Nat} (hd : Due orig c h)
    (hc : c ≠ restartFiq) (hmask : irqMasked h = true) (hburst : burst h + n ≤ 5)
    (ret : SmcRegs) :
    Answered orig c (regInt ret.r0) (h ++ [⟨.smc8 c, ret⟩]) ∧
      irqMasked (h ++ [⟨.smc8 c, ret⟩]) = true ∧ burst (h ++ [⟨.smc8 c, ret⟩]) + n ≤ 6 := by
  have hcount := burst_smc h c ret
  rw [if_neg hc] at hcount
  refine ⟨⟨?_, ?_, ?_, irqLaw_concat hd.irqs fun _ => ⟨hmask, by omega⟩⟩, ?_, by omega⟩
  · rw [exchanges_smc]
    rcases hd.call with ⟨hnil, rfl⟩ | ⟨hprot, hnext⟩
    · rw [hnil]
      exact .first _
    · exact .next _ hprot hnext
  · rw [exchanges_smc, recentCall_concat, if_neg hc]
  · rw [exchanges_smc, List.getLast?_concat]
    rfl
  · rw [irqMasked_smc, hmask]

/-- Going back after an FIQ. -/
theorem Answered.restarted {orig c : SmcRegs} {h : List TrustyEvent} {n : Nat}
    (ha : Answered orig c smErrFiqInterrupted h) (hmask : irqMasked h = true)
    (hburst : burst h + n ≤ 6) (ret : SmcRegs) :
    Answered orig c (regInt ret.r0) (h ++ [⟨.smc8 restartFiq, ret⟩]) ∧
      irqMasked (h ++ [⟨.smc8 restartFiq, ret⟩]) = true ∧
      burst (h ++ [⟨.smc8 restartFiq, ret⟩]) + n ≤ 6 := by
  have hcount := burst_smc h restartFiq ret
  rw [if_pos rfl] at hcount
  have hnext := ha.nextCall_eq
  rw [if_pos rfl] at hnext
  refine ⟨⟨?_, ?_, ?_, irqLaw_concat ha.irqs fun _ => ⟨hmask, by omega⟩⟩, ?_, by omega⟩
  · rw [exchanges_smc]
    exact .next _ ha.protocol hnext
  · rw [exchanges_smc, recentCall_concat, if_pos rfl]
    exact ha.recent
  · rw [exchanges_smc, List.getLast?_concat]
    rfl
  · rw [irqMasked_smc, hmask]

theorem Answered.busy {orig c : SmcRegs} {h : List TrustyEvent}
    (ha : Answered orig c smErrBusy h) : Due orig c h :=
  ⟨Or.inr ⟨ha.protocol, ha.nextCall_eq⟩, ha.irqs⟩

theorem Answered.interrupted {orig c : SmcRegs} {r : Int} {h : List TrustyEvent}
    (ha : Answered orig c r h) (hr : r = smErrInterrupted ∨ r = smErrCpuIdle) :
    Due orig restartLast h := by
  refine ⟨Or.inr ⟨ha.protocol, ?_⟩, ha.irqs⟩
  rw [ha.nextCall_eq]
  rcases hr with rfl | rfl
  · rfl
  · rfl

/-- An event that is no call changes neither what is due nor what was answered. -/
theorem exchanges_other {h : List TrustyEvent} {e : TrustyEvent} (he : exchangeOf e = none) :
    exchanges (h ++ [e]) = exchanges h := by
  rw [exchanges_append, exchanges, exchanges, List.filterMap_cons_none he]
  simp

theorem irqLaw_other {h : List TrustyEvent} {e : TrustyEvent} (hlaw : IrqLaw h)
    (he : exchangeOf e = none) : IrqLaw (h ++ [e]) :=
  irqLaw_concat hlaw fun hsome => by simp [he] at hsome

theorem Due.other {orig c : SmcRegs} {h : List TrustyEvent} {e : TrustyEvent}
    (hd : Due orig c h) (he : exchangeOf e = none) : Due orig c (h ++ [e]) :=
  ⟨by rw [exchanges_other he]; exact hd.call, irqLaw_other hd.irqs he⟩

theorem Answered.other {orig c : SmcRegs} {r : Int} {h : List TrustyEvent} {e : TrustyEvent}
    (ha : Answered orig c r h) (he : exchangeOf e = none) : Answered orig c r (h ++ [e]) := by
  have hsame := exchanges_other (h := h) he
  exact ⟨by rw [hsame]; exact ha.protocol, by rw [hsame]; exact ha.recent,
    by rw [hsame]; exact ha.code, irqLaw_other ha.irqs he⟩

end ExternalTrusty.Dev
