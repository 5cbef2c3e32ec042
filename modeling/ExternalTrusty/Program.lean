import Mathlib.Data.List.Basic
import Mathlib.Tactic.Common

namespace CProgram

/-- A program that asks its surroundings for operations and goes on with the answers. A loop runs
its body from state to state, until the body leaves it with a value. -/
inductive Prog (Op : Type) (Res : Op → Type) : Type → Type 1
  | ret {α : Type} (a : α) : Prog Op Res α
  | op {α : Type} (o : Op) (next : Res o → Prog Op Res α) : Prog Op Res α
  | loop {σ γ α : Type} (body : σ → Prog Op Res (σ ⊕ γ)) (s : σ) (next : γ → Prog Op Res α) :
    Prog Op Res α

/-- An operation and its answer. -/
abbrev Event (Op : Type) (Res : Op → Type) := (o : Op) × Res o

variable {Op : Type} {Res : Op → Type} {α β σ γ : Type}

def Prog.bind {α β : Type} : Prog Op Res α → (α → Prog Op Res β) → Prog Op Res β
  | .ret a, f => f a
  | .op o next, f => .op o fun r => (next r).bind f
  | .loop body s next, f => .loop body s fun c => (next c).bind f

instance : Monad (Prog Op Res) where
  pure := .ret
  bind := .bind

theorem Prog.bind_assoc {δ : Type} (p : Prog Op Res α) (f : α → Prog Op Res β)
    (g : β → Prog Op Res δ) : (p.bind f).bind g = p.bind fun a => (f a).bind g := by
  induction p with
  | ret a => rfl
  | op o next ih => exact congrArg (Prog.op o) (funext fun r => ih r f)
  | loop body s next _ ih => exact congrArg (Prog.loop body s) (funext fun c => ih c f)

def call (o : Op) : Prog Op Res (Res o) := .op o .ret

/-- A loop that only its body can leave. -/
def forever (s : σ) (body : σ → Prog Op Res (σ ⊕ γ)) : Prog Op Res γ := .loop body s .ret

def whileDo (cond : σ → Prop) [DecidablePred cond] (body : σ → Prog Op Res σ) (s : σ) :
    Prog Op Res σ :=
  forever s fun s => if cond s then (body s).bind fun s => .ret (.inl s) else .ret (.inr s)

def onlyIf (c : Prop) [Decidable c] (p : Prog Op Res Unit) : Prog Op Res Unit :=
  if c then p else .ret ()

/-- A program that never returns, and asks for nothing. -/
def hang : Prog Op Res α := forever () fun _ => .ret (.inl ())

/-- The complete runs of a loop, over those of its body. -/
inductive LoopRuns (step : σ → List (Event Op Res) → σ ⊕ γ → Prop) :
    σ → List (Event Op Res) → γ → Prop
  | done {s : σ} {t : List (Event Op Res)} {c : γ} (last : step s t (.inr c)) :
    LoopRuns step s t c
  | next {s s' : σ} {t t' : List (Event Op Res)} {c : γ} (head : step s t (.inl s'))
    (tail : LoopRuns step s' t' c) : LoopRuns step s (t ++ t') c

/-- The beginnings of a loop's runs. -/
inductive LoopStarts (step : σ → List (Event Op Res) → σ ⊕ γ → Prop)
    (start : σ → List (Event Op Res) → Prop) : σ → List (Event Op Res) → Prop
  | here {s : σ} {t : List (Event Op Res)} (head : start s t) : LoopStarts step start s t
  | next {s s' : σ} {t t' : List (Event Op Res)} (head : step s t (.inl s'))
    (tail : LoopStarts step start s' t') : LoopStarts step start s (t ++ t')

/-- `p` can do exactly these operations, with these answers, and return `a`. -/
def Prog.Runs : {α : Type} → Prog Op Res α → List (Event Op Res) → α → Prop
  | _, .ret a, t, b => t = [] ∧ a = b
  | _, .op o next, t, b => ∃ r t', t = ⟨o, r⟩ :: t' ∧ (next r).Runs t' b
  | _, .loop body s next, t, b =>
    ∃ t₁ c t₂, t = t₁ ++ t₂ ∧ LoopRuns (fun s => (body s).Runs) s t₁ c ∧ (next c).Runs t₂ b

/-- `p` can do these operations first, with these answers. -/
def Prog.Starts : {α : Type} → Prog Op Res α → List (Event Op Res) → Prop
  | _, .ret _, t => t = []
  | _, .op o next, t => t = [] ∨ ∃ r t', t = ⟨o, r⟩ :: t' ∧ (next r).Starts t'
  | _, .loop body s next, t =>
    LoopStarts (fun s => (body s).Runs) (fun s => (body s).Starts) s t ∨
      ∃ t₁ c t₂, t = t₁ ++ t₂ ∧ LoopRuns (fun s => (body s).Runs) s t₁ c ∧ (next c).Starts t₂

theorem Prog.runs_bind {p : Prog Op Res α} {f : α → Prog Op Res β} {t : List (Event Op Res)}
    {b : β} : (p.bind f).Runs t b ↔ ∃ t₁ a t₂, t = t₁ ++ t₂ ∧ p.Runs t₁ a ∧ (f a).Runs t₂ b := by
  induction p generalizing t with
  | ret a =>
    constructor
    · intro h
      exact ⟨[], a, t, rfl, ⟨rfl, rfl⟩, h⟩
    · rintro ⟨t₁, a', t₂, rfl, ⟨rfl, rfl⟩, h⟩
      exact h
  | op o next ih =>
    constructor
    · rintro ⟨r, t', rfl, h⟩
      obtain ⟨t₁, a, t₂, rfl, hp, hf⟩ := (ih r).mp h
      exact ⟨_, a, t₂, rfl, ⟨r, t₁, rfl, hp⟩, hf⟩
    · rintro ⟨_, a, t₂, rfl, ⟨r, t₁, rfl, hp⟩, hf⟩
      exact ⟨r, t₁ ++ t₂, rfl, (ih r).mpr ⟨t₁, a, t₂, rfl, hp, hf⟩⟩
  | loop body s next _ ih =>
    constructor
    · rintro ⟨t₁, c, t', rfl, hloop, h⟩
      obtain ⟨t₂, a, t₃, rfl, hp, hf⟩ := (ih c).mp h
      exact ⟨t₁ ++ t₂, a, t₃, (List.append_assoc ..).symm, ⟨t₁, c, t₂, rfl, hloop, hp⟩, hf⟩
    · rintro ⟨_, a, t₃, rfl, ⟨t₁, c, t₂, rfl, hloop, hp⟩, hf⟩
      exact ⟨t₁, c, t₂ ++ t₃, List.append_assoc .., hloop, (ih c).mpr ⟨t₂, a, t₃, rfl, hp, hf⟩⟩

theorem Prog.starts_bind {p : Prog Op Res α} {f : α → Prog Op Res β} {t : List (Event Op Res)}
    (h : (p.bind f).Starts t) :
    p.Starts t ∨ ∃ t₁ a t₂, t = t₁ ++ t₂ ∧ p.Runs t₁ a ∧ (f a).Starts t₂ := by
  induction p generalizing t with
  | ret a => exact Or.inr ⟨[], a, t, rfl, ⟨rfl, rfl⟩, h⟩
  | op o next ih =>
    rcases h with rfl | ⟨r, t', rfl, h⟩
    · exact Or.inl (Or.inl rfl)
    · rcases ih r h with hp | ⟨t₁, a, t₂, rfl, hp, hf⟩
      · exact Or.inl (Or.inr ⟨r, t', rfl, hp⟩)
      · exact Or.inr ⟨_, a, t₂, rfl, ⟨r, t₁, rfl, hp⟩, hf⟩
  | loop body s next _ ih =>
    rcases h with hstart | ⟨t₁, c, t', rfl, hloop, h⟩
    · exact Or.inl (Or.inl hstart)
    · rcases ih c h with hp | ⟨t₂, a, t₃, rfl, hp, hf⟩
      · exact Or.inl (Or.inr ⟨t₁, c, t', rfl, hloop, hp⟩)
      · exact Or.inr ⟨t₁ ++ t₂, a, t₃, (List.append_assoc ..).symm, ⟨t₁, c, t₂, rfl, hloop, hp⟩, hf⟩

theorem Prog.runs_ite_ret {c : Prop} [Decidable c] {x y a : α} {t : List (Event Op Res)} :
    (if c then (.ret x : Prog Op Res α) else .ret y).Runs t a ↔
      t = [] ∧ (if c then x else y) = a := by
  split
  next => rfl
  next => rfl

theorem Prog.Runs.starts {p : Prog Op Res α} {t : List (Event Op Res)} {a : α} (h : p.Runs t a) :
    p.Starts t := by
  induction p generalizing t with
  | ret => exact h.1
  | op o next ih =>
    obtain ⟨r, t', rfl, h⟩ := h
    exact Or.inr ⟨r, t', rfl, ih r h⟩
  | loop body s next _ ih =>
    obtain ⟨t₁, c, t₂, rfl, hloop, h⟩ := h
    exact Or.inr ⟨t₁, c, t₂, rfl, hloop, ih c h⟩

/-- What comes first in a beginning of a run begins it, too. -/
theorem Prog.Starts.of_append {p : Prog Op Res α} {t t' : List (Event Op Res)}
    (h : p.Starts (t ++ t')) : p.Starts t := by
  induction p generalizing t t' with
  | ret a => exact (List.append_eq_nil_iff.mp h).1
  | op o next ih =>
    cases t with
    | nil => exact Or.inl rfl
    | cons e t =>
      rcases h with hnil | ⟨r, u, heq, h⟩
      · cases hnil
      · obtain rfl := List.head_eq_of_cons_eq heq
        obtain rfl := List.tail_eq_of_cons_eq heq
        exact Or.inr ⟨r, t, rfl, ih r h⟩
  | loop body s next ihbody ih =>
    have hbegins : ∀ {s u}, LoopStarts (fun s => (body s).Runs) (fun s => (body s).Starts) s u →
        ∀ t t', u = t ++ t' →
          LoopStarts (fun s => (body s).Runs) (fun s => (body s).Starts) s t := by
      intro s u hloop
      induction hloop with
      | here head =>
        rintro t t' rfl
        exact .here (ihbody _ head)
      | next head _ ihtail =>
        intro t t' heq
        rcases List.append_eq_append_iff.mp heq with ⟨v, rfl, hv⟩ | ⟨v, rfl, _⟩
        · exact .next head (ihtail v t' hv)
        · exact .here (ihbody _ head.starts)
    have hruns : ∀ {s u c}, LoopRuns (fun s => (body s).Runs) s u c →
        LoopStarts (fun s => (body s).Runs) (fun s => (body s).Starts) s u := by
      intro s u c hloop
      induction hloop with
      | done last => exact .here last.starts
      | next head _ ihtail => exact .next head ihtail
    rcases h with h | ⟨t₁, c, t₂, heq, hloop, h⟩
    · exact Or.inl (hbegins h t t' rfl)
    · rcases List.append_eq_append_iff.mp heq.symm with ⟨v, rfl, rfl⟩ | ⟨v, rfl, rfl⟩
      · exact Or.inr ⟨t₁, c, v, rfl, hloop, ih c h⟩
      · exact Or.inl (hbegins (hruns hloop) t v rfl)

/-- Started after any history that `pre` allows, `p` keeps `safe` at every point of a run, and
returns only with `post`. -/
def Triple (safe pre : List (Event Op Res) → Prop) (p : Prog Op Res α)
    (post : α → List (Event Op Res) → Prop) : Prop :=
  ∀ h, pre h → (∀ t, p.Starts t → safe (h ++ t)) ∧ ∀ t a, p.Runs t a → post a (h ++ t)

section Rules

variable {safe pre : List (Event Op Res) → Prop} {post : α → List (Event Op Res) → Prop}

theorem Triple.ret {a : α} (hsafe : ∀ h, pre h → safe h) (hpost : ∀ h, pre h → post a h) :
    Triple safe pre (.ret a) post := by
  intro h hpre
  constructor
  · rintro t rfl
    rw [List.append_nil]
    exact hsafe h hpre
  · rintro t b ⟨rfl, rfl⟩
    rw [List.append_nil]
    exact hpost h hpre

theorem Triple.call {o : Op} {post : Res o → List (Event Op Res) → Prop}
    (hsafe : ∀ h, pre h → safe h) (hnext : ∀ h r, pre h → safe (h ++ [⟨o, r⟩]))
    (hpost : ∀ h r, pre h → post r (h ++ [⟨o, r⟩])) : Triple safe pre (call o) post := by
  intro h hpre
  constructor
  · rintro t (rfl | ⟨r, t', rfl, rfl⟩)
    · rw [List.append_nil]
      exact hsafe h hpre
    · exact hnext h r hpre
  · rintro t b ⟨r, t', rfl, rfl, rfl⟩
    exact hpost h r hpre

theorem Triple.bind {p : Prog Op Res α} {f : α → Prog Op Res β}
    (mid : α → List (Event Op Res) → Prop) {post : β → List (Event Op Res) → Prop}
    (hp : Triple safe pre p mid) (hf : ∀ a, Triple safe (mid a) (f a) post) :
    Triple safe pre (p.bind f) post := by
  intro h hpre
  obtain ⟨hstart, hrun⟩ := hp h hpre
  constructor
  · intro t ht
    rcases Prog.starts_bind ht with ht | ⟨t₁, a, t₂, rfl, h₁, h₂⟩
    · exact hstart t ht
    · rw [← List.append_assoc]
      exact (hf a _ (hrun t₁ a h₁)).1 t₂ h₂
  · intro t b ht
    obtain ⟨t₁, a, t₂, rfl, h₁, h₂⟩ := Prog.runs_bind.mp ht
    rw [← List.append_assoc]
    exact (hf a _ (hrun t₁ a h₁)).2 t₂ b h₂

theorem Triple.conseq {pre' : List (Event Op Res) → Prop} {post' : α → List (Event Op Res) → Prop}
    {p : Prog Op Res α} (hp : Triple safe pre p post) (hpre : ∀ h, pre' h → pre h)
    (hpost : ∀ a h, post a h → post' a h) : Triple safe pre' p post' := by
  intro h h'
  obtain ⟨hstart, hrun⟩ := hp h (hpre h h')
  exact ⟨hstart, fun t a ht => hpost a _ (hrun t a ht)⟩

/-- The loop rule: the body keeps an invariant, or leaves with the postcondition. -/
theorem Triple.forever {body : σ → Prog Op Res (σ ⊕ γ)} (inv : σ → List (Event Op Res) → Prop)
    {post : γ → List (Event Op Res) → Prop} {s : σ}
    (hbody : ∀ s, Triple safe (inv s) (body s) fun x h => Sum.elim (inv · h) (post · h) x) :
    Triple safe (inv s) (forever s body) post := by
  have hruns : ∀ {s t c}, LoopRuns (fun s => (body s).Runs) s t c → ∀ h, inv s h →
      post c (h ++ t) := by
    intro s t c hloop
    induction hloop with
    | done last => exact fun h hinv => (hbody _ h hinv).2 _ _ last
    | next head _ ih =>
      intro h hinv
      rw [← List.append_assoc]
      exact ih _ ((hbody _ h hinv).2 _ _ head)
  have hstarts : ∀ {s t}, LoopStarts (fun s => (body s).Runs) (fun s => (body s).Starts) s t →
      ∀ h, inv s h → safe (h ++ t) := by
    intro s t hloop
    induction hloop with
    | here head => exact fun h hinv => (hbody _ h hinv).1 _ head
    | next head _ ih =>
      intro h hinv
      rw [← List.append_assoc]
      exact ih _ ((hbody _ h hinv).2 _ _ head)
  have hstops : ∀ {s t c}, LoopRuns (fun s => (body s).Runs) s t c → ∀ h, inv s h →
      safe (h ++ t) := by
    intro s t c hloop
    induction hloop with
    | done last => exact fun h hinv => (hbody _ h hinv).1 _ last.starts
    | next head _ ih =>
      intro h hinv
      rw [← List.append_assoc]
      exact ih _ ((hbody _ h hinv).2 _ _ head)
  intro h hinv
  constructor
  · rintro t (ht | ⟨t₁, c, t₂, rfl, hloop, rfl⟩)
    · exact hstarts ht h hinv
    · rw [List.append_nil]
      exact hstops hloop h hinv
  · rintro t b ⟨t₁, c, t₂, rfl, hloop, rfl, rfl⟩
    rw [List.append_nil]
    exact hruns hloop h hinv

theorem Triple.whileDo {cond : σ → Prop} [DecidablePred cond] {body : σ → Prog Op Res σ}
    (inv : σ → List (Event Op Res) → Prop) {s : σ} (hsafe : ∀ s h, inv s h → safe h)
    (hbody : ∀ s, cond s → Triple safe (inv s) (body s) inv) :
    Triple safe (inv s) (whileDo cond body s) fun s h => inv s h ∧ ¬cond s := by
  refine Triple.forever inv ?_
  intro s
  by_cases hc : cond s
  · rw [if_pos hc]
    exact Triple.bind inv (hbody s hc) fun s => Triple.ret (hsafe s) fun _ h => h
  · rw [if_neg hc]
    exact Triple.ret (hsafe s) fun _ h => ⟨h, hc⟩

theorem Triple.onlyIf {c : Prop} [Decidable c] {p : Prog Op Res Unit}
    {post : Unit → List (Event Op Res) → Prop} (hsafe : ∀ h, pre h → safe h)
    (hp : c → Triple safe pre p post) (hskip : ¬c → ∀ h, pre h → post () h) :
    Triple safe pre (onlyIf c p) post := by
  unfold CProgram.onlyIf
  split
  next hc => exact hp hc
  next hc => exact Triple.ret hsafe (hskip hc)

theorem Triple.hang (hsafe : ∀ h, pre h → safe h) : Triple safe pre hang post :=
  Triple.forever (fun _ => pre) fun _ => Triple.ret hsafe fun _ h => h

end Rules

section Exec

variable {S : Type}

/-- Running a loop with at most so many turns. -/
def loopExec (body : σ → S → Option (List (Event Op Res) × (σ ⊕ γ) × S)) :
    Nat → σ → S → Option (List (Event Op Res) × γ × S)
  | 0, _, _ => none
  | fuel + 1, st, s =>
    (body st s).bind fun x =>
      match x with
      | (t, .inr c, s) => some (t, c, s)
      | (t, .inl st, s) => (loopExec body fuel st s).map fun y => (t ++ y.1, y.2)

/-- Running a program on surroundings that answer each operation. -/
def Prog.exec (answer : S → (o : Op) → Res o × S) (fuel : Nat) :
    {α : Type} → Prog Op Res α → S → Option (List (Event Op Res) × α × S)
  | _, .ret a, s => some ([], a, s)
  | _, .op o next, s =>
    ((next (answer s o).1).exec answer fuel (answer s o).2).map fun x =>
      (⟨o, (answer s o).1⟩ :: x.1, x.2)
  | _, .loop body st next, s =>
    (loopExec (fun st => (body st).exec answer fuel) fuel st s).bind fun x =>
      ((next x.2.1).exec answer fuel x.2.2).map fun y => (x.1 ++ y.1, y.2)

theorem Prog.exec_runs {answer : S → (o : Op) → Res o × S} {fuel : Nat} {p : Prog Op Res α}
    {s s' : S} {t : List (Event Op Res)} {a : α} (h : p.exec answer fuel s = some (t, a, s')) :
    p.Runs t a := by
  induction p generalizing s t s' with
  | ret b =>
    cases h
    exact ⟨rfl, rfl⟩
  | op o next ih =>
    obtain ⟨⟨t', b, s₂⟩, hnext, heq⟩ := Option.map_eq_some_iff.mp h
    cases heq
    exact ⟨_, t', rfl, ih _ hnext⟩
  | loop body st next ihbody ih =>
    have hloop : ∀ n st s t c s', loopExec (fun st => (body st).exec answer fuel) n st s =
        some (t, c, s') → LoopRuns (fun st => (body st).Runs) st t c := by
      intro n
      induction n with
      | zero => exact fun _ _ _ _ _ hnone => absurd hnone nofun
      | succ n ihn =>
        intro st s t c s' hrun
        obtain ⟨⟨t₁, x, s₁⟩, hbody, hrest⟩ := Option.bind_eq_some_iff.mp hrun
        cases x with
        | inr d =>
          cases hrest
          exact .done (ihbody _ hbody)
        | inl st' =>
          obtain ⟨⟨t₂, d, s₂⟩, hmore, heq⟩ := Option.map_eq_some_iff.mp hrest
          cases heq
          exact .next (ihbody _ hbody) (ihn _ _ _ _ _ hmore)
    obtain ⟨⟨t₁, c, s₁⟩, hruns, hrest⟩ := Option.bind_eq_some_iff.mp h
    obtain ⟨⟨t₂, b, s₂⟩, hnext, heq⟩ := Option.map_eq_some_iff.mp hrest
    cases heq
    exact ⟨t₁, c, t₂, rfl, hloop _ _ _ _ _ _ hruns, ih _ hnext⟩

end Exec

/-- All the operations that `p` may ask for are among `ok`. -/
def Prog.Uses (ok : Op → Prop) : {α : Type} → Prog Op Res α → Prop
  | _, .ret _ => True
  | _, .op o next => ok o ∧ ∀ r, (next r).Uses ok
  | _, .loop body _ next => (∀ s, (body s).Uses ok) ∧ ∀ c, (next c).Uses ok

theorem Prog.Uses.mono {ok ok' : Op → Prop} {p : Prog Op Res α} (hp : p.Uses ok)
    (h : ∀ o, ok o → ok' o) : p.Uses ok' := by
  induction p with
  | ret a => trivial
  | op o next ih => exact ⟨h o hp.1, fun r => ih r (hp.2 r)⟩
  | loop body s next ihbody ih => exact ⟨fun s => ihbody s (hp.1 s), fun c => ih c (hp.2 c)⟩

theorem Prog.Uses.bind {ok : Op → Prop} {p : Prog Op Res α} {f : α → Prog Op Res β}
    (hp : p.Uses ok) (hf : ∀ a, (f a).Uses ok) : (p.bind f).Uses ok := by
  induction p with
  | ret a => exact hf a
  | op o next ih => exact ⟨hp.1, fun r => ih r (hp.2 r) hf⟩
  | loop body s next _ ih => exact ⟨hp.1, fun c => ih c (hp.2 c) hf⟩

theorem Prog.Uses.call {ok : Op → Prop} {o : Op} (h : ok o) :
    (call o : Prog Op Res (Res o)).Uses ok := ⟨h, fun _ => trivial⟩

theorem Prog.Uses.forever {ok : Op → Prop} {s : σ} {body : σ → Prog Op Res (σ ⊕ γ)}
    (h : ∀ s, (body s).Uses ok) : (forever s body).Uses ok := ⟨h, fun _ => trivial⟩

theorem Prog.Uses.whileDo {ok : Op → Prop} {cond : σ → Prop} [DecidablePred cond]
    {body : σ → Prog Op Res σ} {s : σ} (h : ∀ s, (body s).Uses ok) :
    (whileDo cond body s).Uses ok := by
  refine Prog.Uses.forever fun s => ?_
  split
  next => exact (h s).bind fun _ => trivial
  next => trivial

theorem Prog.Uses.onlyIf {ok : Op → Prop} {c : Prop} [Decidable c] {p : Prog Op Res Unit}
    (h : p.Uses ok) : (onlyIf c p).Uses ok := by
  unfold CProgram.onlyIf
  split
  next => exact h
  next => trivial

theorem Prog.Uses.starts {ok : Op → Prop} {p : Prog Op Res α} (hp : p.Uses ok)
    {t : List (Event Op Res)} (h : p.Starts t) : ∀ e ∈ t, ok e.1 := by
  have hloop : ∀ {σ γ : Type} {step : σ → List (Event Op Res) → σ ⊕ γ → Prop},
      (∀ s t x, step s t x → ∀ e ∈ t, ok e.1) →
      ∀ {s t c}, LoopRuns step s t c → ∀ e ∈ t, ok e.1 := by
    intro σ γ step hstep s t c hruns
    induction hruns with
    | done last => exact hstep _ _ _ last
    | next head _ ih => exact List.forall_mem_append.mpr ⟨hstep _ _ _ head, ih⟩
  have hbegin : ∀ {σ γ : Type} {step : σ → List (Event Op Res) → σ ⊕ γ → Prop}
      {start : σ → List (Event Op Res) → Prop}, (∀ s t x, step s t x → ∀ e ∈ t, ok e.1) →
      (∀ s t, start s t → ∀ e ∈ t, ok e.1) →
      ∀ {s t}, LoopStarts step start s t → ∀ e ∈ t, ok e.1 := by
    intro σ γ step start hstep hstart s t hbegins
    induction hbegins with
    | here head => exact hstart _ _ head
    | next head _ ih => exact List.forall_mem_append.mpr ⟨hstep _ _ _ head, ih⟩
  induction p generalizing t with
  | ret a =>
    rw [h]
    exact nofun
  | op o next ih =>
    rcases h with rfl | ⟨r, t', rfl, h⟩
    · exact nofun
    · exact List.forall_mem_cons.mpr ⟨hp.1, ih r (hp.2 r) h⟩
  | loop body s next ihbody ih =>
    have hstep : ∀ s t x, (body s).Runs t x → ∀ e ∈ t, ok e.1 := fun s t x hr =>
      ihbody s (hp.1 s) hr.starts
    rcases h with h | ⟨t₁, c, t₂, rfl, hruns, h⟩
    · exact hbegin hstep (fun s t hs => ihbody s (hp.1 s) hs) h
    · exact List.forall_mem_append.mpr ⟨hloop hstep hruns, ih c (hp.2 c) h⟩

section Tracks

variable {μ : Type}

/-- A measure of what has been done, which is `m` at first, stays good at every point of a run of
`p`, and is as `post` says when it returns. -/
def Tracks (record : μ → Event Op Res → μ) (good : μ → Prop) (m : μ) (p : Prog Op Res α)
    (post : α → μ → Prop) : Prop :=
  (∀ t, p.Starts t → good (t.foldl record m)) ∧
    ∀ t a, p.Runs t a → post a (t.foldl record m)

variable {record : μ → Event Op Res → μ} {good : μ → Prop} {m : μ} {post : α → μ → Prop}

theorem Tracks.ret {a : α} (hgood : good m) (hpost : post a m) :
    Tracks record good m (.ret a) post := by
  constructor
  · rintro t rfl
    exact hgood
  · rintro t b ⟨rfl, rfl⟩
    exact hpost

theorem Tracks.call {o : Op} (hgood : good m) (hnext : ∀ r, good (record m ⟨o, r⟩)) :
    Tracks record good m (call o) fun r m' => m' = record m ⟨o, r⟩ := by
  constructor
  · rintro t (rfl | ⟨r, t', rfl, rfl⟩)
    · exact hgood
    · exact hnext r
  · rintro t b ⟨r, t', rfl, rfl, rfl⟩
    rfl

theorem Tracks.bind {p : Prog Op Res α} {f : α → Prog Op Res β} {mid : α → μ → Prop}
    {post : β → μ → Prop} (hp : Tracks record good m p mid)
    (hf : ∀ a m', mid a m' → Tracks record good m' (f a) post) :
    Tracks record good m (p.bind f) post := by
  constructor
  · intro t ht
    rcases Prog.starts_bind ht with ht | ⟨t₁, a, t₂, rfl, h₁, h₂⟩
    · exact hp.1 t ht
    · rw [List.foldl_append]
      exact (hf a _ (hp.2 t₁ a h₁)).1 t₂ h₂
  · intro t b ht
    obtain ⟨t₁, a, t₂, rfl, h₁, h₂⟩ := Prog.runs_bind.mp ht
    rw [List.foldl_append]
    exact (hf a _ (hp.2 t₁ a h₁)).2 t₂ b h₂

theorem Tracks.conseq {p : Prog Op Res α} {post' : α → μ → Prop}
    (hp : Tracks record good m p post) (hpost : ∀ a m', post a m' → post' a m') :
    Tracks record good m p post' := ⟨hp.1, fun t a ht => hpost a _ (hp.2 t a ht)⟩

theorem Tracks.hang (hgood : good m) : Tracks record good m hang post := by
  have hnever : Triple (fun h => h.foldl record m = m) (fun h => h.foldl record m = m)
      (CProgram.hang : Prog Op Res α) fun _ _ => False := Triple.hang fun _ h => h
  obtain ⟨hstart, hrun⟩ := hnever [] rfl
  constructor
  · intro t ht
    have hsame : t.foldl record m = m := hstart t ht
    rwa [hsame]
  · exact fun t a ht => (hrun t a ht).elim

/-- A program whose operations the measure does not count. -/
theorem Tracks.uncounted {ok : Op → Prop} {p : Prog Op Res α} (hp : p.Uses ok)
    (hok : ∀ m e, ok e.1 → record m e = m) (hgood : good m) :
    Tracks record good m p fun _ m' => m' = m := by
  have hsame : ∀ t : List (Event Op Res), (∀ e ∈ t, ok e.1) → t.foldl record m = m := by
    intro t ht
    induction t with
    | nil => rfl
    | cons e t ih =>
      obtain ⟨he, ht⟩ := List.forall_mem_cons.mp ht
      rw [List.foldl_cons, hok m e he]
      exact ih ht
  constructor
  · intro t ht
    rwa [hsame t (hp.starts ht)]
  · exact fun t a ht => hsame t (hp.starts ht.starts)

end Tracks

/-- Where an element can stand in a list that has grown at its end. -/
theorem concat_eq_split {h pre post : List α} {e x : α} :
    h ++ [e] = pre ++ x :: post ↔
      (post = [] ∧ h = pre ∧ e = x) ∨ ∃ post', post = post' ++ [e] ∧ h = pre ++ x :: post' := by
  constructor
  · intro heq
    rcases List.eq_nil_or_concat post with rfl | ⟨post', y, rfl⟩
    · obtain ⟨rfl, hex⟩ := List.append_inj' heq rfl
      exact Or.inl ⟨rfl, rfl, List.head_eq_of_cons_eq hex⟩
    · rw [List.concat_eq_append, ← List.cons_append, ← List.append_assoc] at heq
      obtain ⟨rfl, hey⟩ := List.append_inj' heq rfl
      rw [List.head_eq_of_cons_eq hey]
      exact Or.inr ⟨post', List.concat_eq_append, rfl⟩
  · rintro (⟨rfl, rfl, rfl⟩ | ⟨post', rfl, rfl⟩)
    · rfl
    · simp

/-- The last element of a kind that the list has one of. -/
theorem exists_last {P : α → Prop} {l : List α} (h : ∃ x ∈ l, P x) :
    ∃ before y after, l = before ++ y :: after ∧ P y ∧ ∀ z ∈ after, ¬P z := by
  induction l with
  | nil => simp at h
  | cons a l ih =>
    by_cases hl : ∃ y ∈ l, P y
    · obtain ⟨before, y, after, rfl, hy, hafter⟩ := ih hl
      exact ⟨a :: before, y, after, rfl, hy, hafter⟩
    · obtain ⟨x, hx, hPx⟩ := h
      rcases List.mem_cons.mp hx with rfl | hx
      · exact ⟨[], x, l, rfl, hPx, fun z hz hPz => hl ⟨z, hz, hPz⟩⟩
      · exact absurd ⟨x, hx, hPx⟩ hl

end CProgram
