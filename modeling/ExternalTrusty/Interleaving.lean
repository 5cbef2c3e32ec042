import ExternalTrusty.Program
import Mathlib.Logic.Function.Basic

namespace CProgram

variable {Op : Type} {Res : Op → Type} {ι J α : Type}

/-- One operation of a thread: which of its jobs it belongs to, counted from one, and what that
job is. -/
structure Entry (Op : Type) (Res : Op → Type) (ι J : Type) where
  thread : ι
  serial : Nat
  job : J
  event : Event Op Res

/-- What a thread is at: how many jobs it has begun, and the one it is still busy with. -/
structure Thread (J : Type) where
  serial : Nat
  job : Option J

/-- Threads that share a lock, and all their operations in the order in which they came. -/
structure System (Op : Type) (Res : Op → Type) (ι J : Type) where
  threads : ι → Thread J
  owner : Option ι
  log : List (Entry Op Res ι J)

variable [DecidableEq ι]

/-- The operations of one job of one thread. -/
def localTrace (log : List (Entry Op Res ι J)) (i : ι) (n : Nat) : List (Event Op Res) :=
  (log.filter fun z => z.thread = i ∧ z.serial = n).map Entry.event

theorem localTrace_concat (log : List (Entry Op Res ι J)) (z : Entry Op Res ι J) (i : ι) (n : Nat) :
    localTrace (log ++ [z]) i n =
      localTrace log i n ++ if z.thread = i ∧ z.serial = n then [z.event] else [] := by
  unfold localTrace
  rw [List.filter_append, List.map_append]
  split
  next h => simp [h]
  next h => simp [h]

theorem localTrace_eq_nil {log : List (Entry Op Res ι J)} {i : ι} {n : Nat}
    (h : ∀ z ∈ log, z.thread = i → z.serial ≠ n) : localTrace log i n = [] := by
  unfold localTrace
  rw [List.map_eq_nil_iff, List.filter_eq_nil_iff]
  intro z hz hzi
  have hboth := of_decide_eq_true hzi
  exact h z hz hboth.1 hboth.2

theorem mem_localTrace {log : List (Entry Op Res ι J)} {z : Entry Op Res ι J} (h : z ∈ log) :
    z.event ∈ localTrace log z.thread z.serial :=
  List.mem_map.mpr ⟨z, List.mem_filter.mpr ⟨h, decide_eq_true ⟨rfl, rfl⟩⟩, rfl⟩

section Lock

variable (acquire release : Op)

/-- Who holds the lock after an operation of `i`. -/
def ownerAfter [DecidableEq Op] (owner : Option ι) (i : ι) (o : Op) : Option ι :=
  if o = acquire then some i else if o = release then none else owner

variable (prog : J → Prog Op Res α) (admits : J → Event Op Res → Prop)

/-- A thread begins a job, does the next operation of it, or is done with it. The lock is only
taken when it is free, and each answer is one that the job's surroundings may give. -/
inductive System.Step [DecidableEq Op] : System Op Res ι J → System Op Res ι J → Prop
  | start {s : System Op Res ι J} (i : ι) (j : J) (idle : (s.threads i).job = none) :
    Step s { s with threads := Function.update s.threads i ⟨(s.threads i).serial + 1, some j⟩ }
  | act {s : System Op Res ι J} (i : ι) (j : J) (e : Event Op Res)
    (busy : (s.threads i).job = some j)
    (next : (prog j).Starts (localTrace s.log i (s.threads i).serial ++ [e]))
    (admitted : admits j e) (free : e.1 = acquire → s.owner = none) :
    Step s { s with
      owner := ownerAfter acquire release s.owner i e.1
      log := s.log ++ [⟨i, (s.threads i).serial, j, e⟩] }
  | finish {s : System Op Res ι J} (i : ι) (j : J) (a : α) (busy : (s.threads i).job = some j)
    (done : (prog j).Runs (localTrace s.log i (s.threads i).serial) a) :
    Step s { s with threads := Function.update s.threads i ⟨(s.threads i).serial, none⟩ }

/-- What can be reached from a state in which no thread has done anything. -/
inductive System.Reachable [DecidableEq Op] : System Op Res ι J → Prop
  | init {s : System Op Res ι J} (idle : ∀ i, (s.threads i).job = none) (free : s.owner = none)
    (empty : s.log = []) : Reachable s
  | step {s s' : System Op Res ι J} (before : Reachable s)
    (step : System.Step acquire release prog admits s s') : Reachable s'

/-- No operation on the lock. -/
def LockFree (t : List (Event Op Res)) : Prop := ∀ e ∈ t, e.1 ≠ acquire ∧ e.1 ≠ release

/-- The lock has been taken first of all, and is still held. -/
def Holding (t : List (Event Op Res)) : Prop :=
  ∃ e body, t = e :: body ∧ e.1 = acquire ∧ LockFree acquire release body

/-- The operations of a job that takes the lock first and releases it last. -/
def Bracketed (t : List (Event Op Res)) : Prop :=
  t = [] ∨ Holding acquire release t ∨
    ∃ t' e, t = t' ++ [e] ∧ Holding acquire release t' ∧ e.1 = release

/-- The jobs are of two kinds: those that hold the lock from their first operation to their last,
and those that never touch it. -/
structure Disciplined (exclusive : J → Prop) : Prop where
  bracketed : ∀ j, exclusive j → ∀ t, (prog j).Starts t → Bracketed acquire release t
  lockFree : ∀ j, ¬exclusive j → ∀ t, (prog j).Starts t → LockFree acquire release t
  released : ∀ j, exclusive j → ∀ t a, (prog j).Runs t a → ¬Holding acquire release t

/-- Every operation in the log belongs to one job, and is one that the job does at that point. -/
structure LogInv (s : System Op Res ι J) : Prop where
  serials : ∀ z ∈ s.log, z.serial ≤ (s.threads z.thread).serial
  current : ∀ z ∈ s.log, ∀ j, (s.threads z.thread).job = some j →
    z.serial = (s.threads z.thread).serial → z.job = j
  jobs : ∀ z ∈ s.log, ∀ z' ∈ s.log, z.thread = z'.thread → z.serial = z'.serial → z.job = z'.job
  traces : ∀ z ∈ s.log, (prog z.job).Starts (localTrace s.log z.thread z.serial)
  admitted : ∀ z ∈ s.log, admits z.job z.event

/-- While a thread is in a job that takes the lock, no other thread does anything in such a job. -/
def ExclusiveLog (exclusive : J → Prop) (log : List (Entry Op Res ι J)) : Prop :=
  ∀ before x between y after, log = before ++ x :: (between ++ y :: after) →
    x.thread = y.thread → x.serial = y.serial → exclusive x.job →
    ∀ z ∈ between, z.thread ≠ x.thread → ¬exclusive z.job

structure LockInv (exclusive : J → Prop) (s : System Op Res ι J) : Prop where
  holder : ∀ i, s.owner = some i → ∃ j, (s.threads i).job = some j ∧ exclusive j ∧
    Holding acquire release (localTrace s.log i (s.threads i).serial)
  inside : ∀ i j, (s.threads i).job = some j → exclusive j →
    Holding acquire release (localTrace s.log i (s.threads i).serial) → s.owner = some i
  since : ∀ i, s.owner = some i → ∃ earlier later, s.log = earlier ++ later ∧
    (∀ z ∈ earlier, z.thread = i → z.serial ≠ (s.threads i).serial) ∧
    ∀ z ∈ later, z.thread ≠ i → ¬exclusive z.job
  apart : ExclusiveLog exclusive s.log

end Lock

section Steps

variable {acquire release : Op} {prog : J → Prog Op Res α}
  {admits : J → Event Op Res → Prop} {exclusive : J → Prop} {s s' : System Op Res ι J}

theorem LogInv.step [DecidableEq Op] (h : LogInv prog admits s)
    (hstep : System.Step acquire release prog admits s s') : LogInv prog admits s' := by
  cases hstep with
  | start i j idle =>
    refine ⟨?_, ?_, h.jobs, h.traces, h.admitted⟩
    · intro z hz
      have hle := h.serials z hz
      by_cases hi : z.thread = i
      · rw [hi] at hle ⊢
        simp only [Function.update_self]
        omega
      · simpa only [Function.update_of_ne hi] using hle
    · intro z hz j' hj hserial
      have hle := h.serials z hz
      by_cases hi : z.thread = i
      · rw [hi] at hle hserial
        simp only [Function.update_self] at hserial
        omega
      · simp only [Function.update_of_ne hi] at hj hserial
        exact h.current z hz j' hj hserial
  | finish i j a busy done =>
    refine ⟨?_, ?_, h.jobs, h.traces, h.admitted⟩
    · intro z hz
      have hle := h.serials z hz
      by_cases hi : z.thread = i
      · rw [hi] at hle ⊢
        simpa only [Function.update_self] using hle
      · simpa only [Function.update_of_ne hi] using hle
    · intro z hz j' hj hserial
      by_cases hi : z.thread = i
      · rw [hi] at hj
        simp [Function.update_self] at hj
      · simp only [Function.update_of_ne hi] at hj hserial
        exact h.current z hz j' hj hserial
  | act i j e busy next admitted free =>
    have hmem : ∀ {P : Entry Op Res ι J → Prop}, (∀ z ∈ s.log, P z) →
        P ⟨i, (s.threads i).serial, j, e⟩ →
        ∀ z ∈ s.log ++ [⟨i, (s.threads i).serial, j, e⟩], P z := by
      intro P hold hnew
      exact List.forall_mem_append.mpr ⟨hold, List.forall_mem_singleton.mpr hnew⟩
    have hsame : ∀ z ∈ s.log, z.thread = i → z.serial = (s.threads i).serial → z.job = j := by
      intro z hz hi hserial
      refine h.current z hz j ?_ ?_
      · rw [hi]
        exact busy
      · rw [hi]
        exact hserial
    refine ⟨hmem h.serials (Nat.le_refl _), hmem h.current ?_, ?_, ?_, hmem h.admitted admitted⟩
    · intro j' hj _
      rw [busy] at hj
      exact Option.some.inj hj
    · refine hmem ?_ ?_
      · intro z hz
        exact hmem (h.jobs z hz) fun hi hserial => hsame z hz hi hserial
      · exact hmem (fun z hz hi hserial => (hsame z hz hi.symm hserial.symm).symm) fun _ _ => rfl
    · refine hmem ?_ ?_
      · intro z hz
        rw [localTrace_concat]
        split
        next hcur =>
          rw [hsame z hz hcur.1.symm hcur.2.symm, ← hcur.1, ← hcur.2]
          exact next
        next =>
          rw [List.append_nil]
          exact h.traces z hz
      · rw [localTrace_concat, if_pos ⟨rfl, rfl⟩]
        exact next

/-- The next operation of a job that takes the lock first and releases it last. -/
theorem Bracketed.concat {t : List (Event Op Res)} {e : Event Op Res}
    (h : Bracketed acquire release (t ++ [e])) :
    (t = [] ∧ e.1 = acquire) ∨ (Holding acquire release t ∧
      (e.1 = release ∨ (Holding acquire release (t ++ [e]) ∧ e.1 ≠ acquire ∧ e.1 ≠ release))) := by
  rcases h with hnil | ⟨e₀, body, heq, hacq, hbody⟩ | ⟨t', e', heq, hhold, hrel⟩
  · simp at hnil
  · cases t with
    | nil =>
      obtain rfl := List.head_eq_of_cons_eq heq
      exact Or.inl ⟨rfl, hacq⟩
    | cons e₁ t =>
      obtain rfl := List.head_eq_of_cons_eq heq
      obtain rfl := List.tail_eq_of_cons_eq heq
      obtain ⟨ht, he⟩ := List.forall_mem_append.mp hbody
      exact Or.inr ⟨⟨e₁, t, rfl, hacq, ht⟩, Or.inr ⟨⟨e₁, t ++ [e], rfl, hacq, hbody⟩,
        he e (List.mem_singleton.mpr rfl)⟩⟩
  · obtain ⟨rfl, he⟩ := List.append_inj' heq rfl
    obtain rfl := List.head_eq_of_cons_eq he
    exact Or.inr ⟨hhold, Or.inl hrel⟩

theorem Holding.ne_nil {t : List (Event Op Res)} (h : Holding acquire release t) : t ≠ [] := by
  obtain ⟨e, body, rfl, _⟩ := h
  exact List.cons_ne_nil e body

omit [DecidableEq ι] in
theorem ExclusiveLog.concat {log : List (Entry Op Res ι J)} {y : Entry Op Res ι J}
    (h : ExclusiveLog exclusive log)
    (hnew : ∀ before x between, log = before ++ x :: between → x.thread = y.thread →
      x.serial = y.serial → exclusive x.job →
      ∀ z ∈ between, z.thread ≠ x.thread → ¬exclusive z.job) :
    ExclusiveLog exclusive (log ++ [y]) := by
  intro before x between y' after heq
  have hsplit : log ++ [y] = (before ++ x :: between) ++ y' :: after := by
    rw [heq, List.append_assoc]
    rfl
  rcases concat_eq_split.mp hsplit with ⟨_, hlog, rfl⟩ | ⟨after', _, hlog⟩
  · exact hnew before x between hlog
  · rw [List.append_assoc] at hlog
    exact h before x between y' after' hlog

theorem localTrace_other (log : List (Entry Op Res ι J)) {z : Entry Op Res ι J} {i : ι}
    (h : z.thread ≠ i) (n : Nat) : localTrace (log ++ [z]) i n = localTrace log i n := by
  rw [localTrace_concat, if_neg (fun hz => h hz.1), List.append_nil]

/-- An operation of a job that does not touch the lock. -/
theorem LockInv.act_free {i : ι} {j : J} {e : Event Op Res}
    (h : LockInv acquire release exclusive s) (hlog : LogInv prog admits s)
    (busy : (s.threads i).job = some j) (hj : ¬exclusive j) :
    LockInv acquire release exclusive
      { s with log := s.log ++ [⟨i, (s.threads i).serial, j, e⟩] } := by
  refine ⟨?_, ?_, ?_, h.apart.concat ?_⟩
  · intro k hk
    obtain ⟨j', hj', hexcl, hhold⟩ := h.holder k hk
    have hki : i ≠ k := by
      rintro rfl
      rw [busy] at hj'
      exact hj (Option.some.inj hj' ▸ hexcl)
    exact ⟨j', hj', hexcl, by rw [localTrace_other s.log hki]; exact hhold⟩
  · intro k j' hj' hexcl hhold
    have hki : i ≠ k := by
      rintro rfl
      rw [busy] at hj'
      exact hj (Option.some.inj hj' ▸ hexcl)
    rw [localTrace_other s.log hki] at hhold
    exact h.inside k j' hj' hexcl hhold
  · intro k hk
    obtain ⟨earlier, later, heq, hearlier, hlater⟩ := h.since k hk
    refine ⟨earlier, later ++ [⟨i, (s.threads i).serial, j, e⟩], ?_, hearlier, ?_⟩
    · simp only [heq, List.append_assoc]
    · exact List.forall_mem_append.mpr ⟨hlater, List.forall_mem_singleton.mpr fun _ => hj⟩
  · intro before x between heq hi hserial hexcl
    have hx : x ∈ s.log := by
      rw [heq]
      simp
    have hjob := hlog.current x hx j (by rw [hi]; exact busy) (by rw [hserial, hi])
    exact absurd (hjob ▸ hexcl) hj

/-- Taking the lock. -/
theorem LockInv.act_acquire {i : ι} {j : J} {e : Event Op Res}
    (h : LockInv acquire release exclusive s) (busy : (s.threads i).job = some j)
    (hj : exclusive j) (hnil : localTrace s.log i (s.threads i).serial = [])
    (he : e.1 = acquire) (free : s.owner = none) :
    LockInv acquire release exclusive { s with
      owner := some i, log := s.log ++ [⟨i, (s.threads i).serial, j, e⟩] } := by
  have hfresh : ∀ z ∈ s.log, z.thread = i → z.serial ≠ (s.threads i).serial := by
    rintro z hz rfl hserial
    have hmem := mem_localTrace hz
    rw [hserial, hnil] at hmem
    exact List.not_mem_nil hmem
  refine ⟨?_, ?_, ?_, h.apart.concat ?_⟩
  · intro k hk
    obtain rfl : i = k := Option.some.inj hk
    refine ⟨j, busy, hj, e, [], ?_, he, nofun⟩
    rw [localTrace_concat, if_pos ⟨rfl, rfl⟩, hnil, List.nil_append]
  · intro k j' hj' hexcl hhold
    by_cases hki : i = k
    · exact congrArg some hki
    · rw [localTrace_other s.log hki] at hhold
      have hown := h.inside k j' hj' hexcl hhold
      rw [free] at hown
      cases hown
  · intro k hk
    obtain rfl : i = k := Option.some.inj hk
    exact ⟨s.log, [_], rfl, hfresh, List.forall_mem_singleton.mpr fun hno => absurd rfl hno⟩
  · intro before x between heq hi hserial
    have hx : x ∈ s.log := by
      rw [heq]
      simp
    exact absurd hserial (hfresh x hx hi)

/-- The operations between two of the holder's are no others' but those of jobs without the
lock. -/
theorem LockInv.apart_concat {i : ι} {j : J} {e : Event Op Res}
    (h : LockInv acquire release exclusive s) (hown : s.owner = some i) :
    ExclusiveLog exclusive (s.log ++ [⟨i, (s.threads i).serial, j, e⟩]) := by
  refine h.apart.concat ?_
  intro before x between heq hi hserial _ z hz hne
  obtain ⟨earlier, later, hsplit, hearlier, hlater⟩ := h.since i hown
  rw [hsplit] at heq
  rcases List.append_eq_append_iff.mp heq with ⟨mid, hbefore, hmid⟩ | ⟨mid, hbefore, hmid⟩
  · refine hlater z ?_ (fun hzi => hne (hzi.trans hi.symm))
    rw [hmid]
    exact List.mem_append_right _ (List.mem_cons_of_mem _ hz)
  · cases mid with
    | nil =>
      refine hlater z ?_ (fun hzi => hne (hzi.trans hi.symm))
      rw [List.nil_append] at hmid
      rw [← hmid]
      exact List.mem_cons_of_mem _ hz
    | cons y mid =>
      obtain rfl := List.head_eq_of_cons_eq hmid
      exact absurd hserial (hearlier x (by rw [hbefore]; simp) hi)

/-- An operation of the holder, who keeps the lock or releases it. -/
theorem LockInv.act_holding {i : ι} {j : J} {e : Event Op Res} {owner : Option ι}
    (h : LockInv acquire release exclusive s) (busy : (s.threads i).job = some j)
    (hown : s.owner = some i) (hj : exclusive j)
    (hafter : (owner = none ∧
        ¬Holding acquire release (localTrace s.log i (s.threads i).serial ++ [e])) ∨
      (owner = some i ∧
        Holding acquire release (localTrace s.log i (s.threads i).serial ++ [e]))) :
    LockInv acquire release exclusive { s with
      owner := owner, log := s.log ++ [⟨i, (s.threads i).serial, j, e⟩] } := by
  have hother : ∀ k, i ≠ k → ∀ j', (s.threads k).job = some j' → exclusive j' →
      ¬Holding acquire release (localTrace s.log k (s.threads k).serial) := by
    intro k hki j' hj' hexcl hhold
    have hk := h.inside k j' hj' hexcl hhold
    rw [hown] at hk
    exact hki (Option.some.inj hk)
  have hself : localTrace (s.log ++ [⟨i, (s.threads i).serial, j, e⟩]) i (s.threads i).serial =
      localTrace s.log i (s.threads i).serial ++ [e] := by
    rw [localTrace_concat, if_pos ⟨rfl, rfl⟩]
  refine ⟨?_, ?_, ?_, h.apart_concat hown⟩
  · intro k hk
    rcases hafter with ⟨hnone, _⟩ | ⟨hsome, hhold⟩
    · exact absurd (hnone.symm.trans hk) nofun
    · obtain rfl : i = k := Option.some.inj (hsome.symm.trans hk)
      exact ⟨j, busy, hj, by rw [hself]; exact hhold⟩
  · intro k j' hj' hexcl hhold
    by_cases hki : i = k
    · subst hki
      rw [hself] at hhold
      rcases hafter with ⟨_, hno⟩ | ⟨hsome, _⟩
      · exact absurd hhold hno
      · exact hsome
    · rw [localTrace_other s.log hki] at hhold
      exact absurd hhold (hother k hki j' hj' hexcl)
  · intro k hk
    rcases hafter with ⟨hnone, _⟩ | ⟨hsome, _⟩
    · exact absurd (hnone.symm.trans hk) nofun
    · obtain rfl : i = k := Option.some.inj (hsome.symm.trans hk)
      obtain ⟨earlier, later, heq, hearlier, hlater⟩ := h.since i hown
      refine ⟨earlier, later ++ [⟨i, (s.threads i).serial, j, e⟩], ?_, hearlier, ?_⟩
      · simp only [heq, List.append_assoc]
      · exact List.forall_mem_append.mpr ⟨hlater,
          List.forall_mem_singleton.mpr fun hno => absurd rfl hno⟩

/-- A change of what thread `i` is busy with, while it does not hold the lock. -/
theorem LockInv.update {i : ι} {thread : Thread J} (h : LockInv acquire release exclusive s)
    (hfree : s.owner ≠ some i)
    (hout : ∀ j, thread.job = some j →
      ¬Holding acquire release (localTrace s.log i thread.serial)) :
    LockInv acquire release exclusive
      { s with threads := Function.update s.threads i thread } := by
  have hkeep : ∀ k, s.owner = some k → k ≠ i := by
    rintro k hk rfl
    exact hfree hk
  refine ⟨?_, ?_, ?_, h.apart⟩
  · intro k hk
    have hheld := h.holder k hk
    simpa only [Function.update_of_ne (hkeep k hk)] using hheld
  · intro k j hj hexcl hhold
    by_cases hki : k = i
    · subst hki
      simp only [Function.update_self] at hj hhold
      exact absurd hhold (hout j hj)
    · simp only [Function.update_of_ne hki] at hj hhold
      exact h.inside k j hj hexcl hhold
  · intro k hk
    have hsince := h.since k hk
    simpa only [Function.update_of_ne (hkeep k hk)] using hsince

variable [DecidableEq Op]

theorem LockInv.step (hdisc : Disciplined acquire release prog exclusive)
    (hne : acquire ≠ release) (hlog : LogInv prog admits s)
    (h : LockInv acquire release exclusive s)
    (hstep : System.Step acquire release prog admits s s') :
    LockInv acquire release exclusive s' := by
  cases hstep with
  | start i j idle =>
    refine h.update ?_ ?_
    · intro hown
      obtain ⟨j', hj', _⟩ := h.holder i hown
      rw [idle] at hj'
      cases hj'
    · intro _ _ hhold
      refine hhold.ne_nil (localTrace_eq_nil ?_)
      rintro z hz rfl
      have hle := hlog.serials z hz
      show z.serial ≠ (s.threads z.thread).serial + 1
      omega
  | finish i j a busy done =>
    refine h.update ?_ fun j' hj' => absurd hj' nofun
    intro hown
    obtain ⟨j', hj', hexcl, hhold⟩ := h.holder i hown
    rw [busy] at hj'
    cases hj'
    exact hdisc.released j hexcl _ a done hhold
  | act i j e busy next admitted free =>
    by_cases hexcl : exclusive j
    · rcases (hdisc.bracketed j hexcl _ next).concat with ⟨hnil, he⟩ | ⟨hhold, hcase⟩
      · have hafter : ownerAfter acquire release s.owner i e.1 = some i := if_pos he
        rw [hafter]
        exact h.act_acquire busy hexcl hnil he (free he)
      · have hown := h.inside i j busy hexcl hhold
        refine h.act_holding busy hown hexcl ?_
        rcases hcase with hrel | ⟨hstill, hacq, hrel⟩
        · left
          have hacq : e.1 ≠ acquire := fun hacq => hne (hacq.symm.trans hrel)
          rw [ownerAfter, if_neg hacq, if_pos hrel]
          refine ⟨rfl, ?_⟩
          rintro ⟨e₀, body, heq, _, hbody⟩
          obtain ⟨e₁, t, ht, _⟩ := hhold
          rw [ht, List.cons_append] at heq
          obtain rfl := List.tail_eq_of_cons_eq heq
          exact (hbody e (by simp)).2 hrel
        · right
          rw [ownerAfter, if_neg hacq, if_neg hrel]
          exact ⟨hown, hstill⟩
    · obtain ⟨hacq, hrel⟩ := hdisc.lockFree j hexcl _ next e (by simp)
      have hafter : ownerAfter acquire release s.owner i e.1 = s.owner := by
        rw [ownerAfter, if_neg hacq, if_neg hrel]
      rw [hafter]
      exact h.act_free hlog busy hexcl

/-- In every reachable state both hold: the log is made of the jobs' own operations, and the jobs
that take the lock exclude each other. -/
theorem System.Reachable.inv (hdisc : Disciplined acquire release prog exclusive)
    (hne : acquire ≠ release) (h : System.Reachable acquire release prog admits s) :
    LogInv prog admits s ∧ LockInv acquire release exclusive s := by
  induction h with
  | init idle free empty =>
    refine ⟨⟨?_, ?_, ?_, ?_, ?_⟩, ?_, ?_, ?_, ?_⟩
    · simp [empty]
    · simp [empty]
    · simp [empty]
    · simp [empty]
    · simp [empty]
    · simp [free]
    · intro i j hj
      rw [idle i] at hj
      cases hj
    · simp [free]
    · intro before x between y after heq
      simp [empty] at heq
  | step _ hstep ih => exact ⟨ih.1.step hstep, ih.2.step hdisc hne ih.1 hstep⟩

end Steps

end CProgram
