import ExternalTrusty.Program
import Mathlib.Logic.Relation

namespace CProgram

variable {Op : Type} {Res : Op → Type} {S α β σ γ : Type}

/-- What follows a turn of a loop. -/
def afterTurn (body : σ → Prog Op Res (σ ⊕ γ)) (next : γ → Prog Op Res α) :
    σ ⊕ γ → Prog Op Res α
  | .inl x => .loop body x next
  | .inr c => next c

theorem afterTurn_bind (body : σ → Prog Op Res (σ ⊕ γ)) (next : γ → Prog Op Res α)
    (f : α → Prog Op Res β) (r : σ ⊕ γ) :
    (afterTurn body next r).bind f = afterTurn body (fun c => (next c).bind f) r := by
  cases r with
  | inl x => rfl
  | inr c => rfl

variable (perform : (o : Op) → S → Res o × S) (env : S → S → Prop)

/-- One step of a program on a state that it shares: its own, or one of its surroundings, which
may come at any time. -/
inductive Prog.Step : {α : Type} → Prog Op Res α × S → Prog Op Res α × S → Prop
  | act {α : Type} (o : Op) (next : Res o → Prog Op Res α) (s : S) :
    Step (.op o next, s) (next (perform o s).1, (perform o s).2)
  | turn {σ γ α : Type} (body : σ → Prog Op Res (σ ⊕ γ)) (x : σ) (next : γ → Prog Op Res α)
    (s : S) : Step (.loop body x next, s) ((body x).bind (afterTurn body next), s)
  | outside {α : Type} (p : Prog Op Res α) {s s' : S} (h : env s s') : Step (p, s) (p, s')

def Prog.Reaches (c c' : Prog Op Res α × S) : Prop :=
  Relation.ReflTransGen (Prog.Step perform env) c c'

/-- A condition that the surroundings do not disturb. -/
def Stable (P : S → Prop) : Prop := ∀ s s', P s → env s s' → P s'

/-- From every state with `P`, the program keeps `I` in every state on its way, and ends with
`Q`, if it ends. Where its surroundings are `live`, it can still come to its end from anywhere on
its way. -/
def Valid (live : Prop) (P : S → Prop) (p : Prog Op Res α) (I : S → Prop) (Q : α → S → Prop) :
    Prop :=
  ∀ s, P s → ∀ p' s', Prog.Reaches perform env (p, s) (p', s') →
    I s' ∧ (∀ a, p' = .ret a → Q a s') ∧
      (live → ∃ a t, Prog.Reaches perform env (p', s') (.ret a, t))

variable {perform env} {live : Prop} {P I : S → Prop} {Q : α → S → Prop}

theorem Prog.Reaches.keeps {K : Prog Op Res α × S → Prop} {c c' : Prog Op Res α × S}
    (run : Prog.Reaches perform env c c') (start : K c)
    (step : ∀ c c', K c → Prog.Step perform env c c' → K c') : K c' := by
  induction run with
  | refl => exact start
  | tail _ last ih => exact step _ _ ih last

theorem Stable.run (stable : Stable env P) {s s' : S} (held : P s)
    (later : Relation.ReflTransGen env s s') : P s' := by
  induction later with
  | refl => exact held
  | tail _ step ih => exact stable _ _ ih step

/-- The surroundings may go on while the program does nothing. -/
theorem Prog.Reaches.outside {s s' : S} (later : Relation.ReflTransGen env s s')
    (p : Prog Op Res α) : Prog.Reaches perform env (p, s) (p, s') := by
  induction later with
  | refl => exact .refl
  | tail _ step ih => exact .tail ih (.outside p step)

theorem Valid.mono {P' I' : S → Prop} {Q' : α → S → Prop} {p : Prog Op Res α}
    (h : Valid perform env live P p I Q) (pre : ∀ s, P' s → P s) (always : ∀ s, I s → I' s)
    (post : ∀ a s, Q a s → Q' a s) : Valid perform env live P' p I' Q' := by
  intro s held p' s' run
  obtain ⟨on, last, ends⟩ := h s (pre s held) p' s' run
  exact ⟨always s' on, fun a same => post a s' (last a same), ends⟩

theorem valid_ret {a : α} (stable : Stable env P) (always : ∀ s, P s → I s)
    (post : ∀ s, P s → Q a s) : Valid perform env live P (.ret a) I Q := by
  intro s pre p' s' run
  obtain ⟨same, held⟩ : p' = .ret a ∧ P s' := by
    refine run.keeps (K := fun c => c.1 = .ret a ∧ P c.2) ⟨rfl, pre⟩ ?_
    rintro ⟨p, s⟩ c' ⟨rfl, held⟩ step
    cases step with
    | outside p h => exact ⟨rfl, stable _ _ held h⟩
  subst same
  refine ⟨always s' held, ?_, fun _ => ⟨a, s', .refl⟩⟩
  intro b same
  cases same
  exact post s' held

/-- An operation: what holds before it is not disturbed, and afterwards the rest goes on. -/
theorem valid_op {o : Op} {next : Res o → Prog Op Res α} {R : Res o → S → Prop}
    (stable : Stable env P) (always : ∀ s, P s → I s)
    (does : ∀ s, P s → R (perform o s).1 (perform o s).2)
    (rest : ∀ r, Valid perform env live (R r) (next r) I Q) :
    Valid perform env live P (.op o next) I Q := by
  intro s pre p' s' run
  have there : (p' = .op o next ∧ P s') ∨
      ∃ r s₁, R r s₁ ∧ Prog.Reaches perform env (next r, s₁) (p', s') := by
    refine run.keeps (K := fun c => (c.1 = .op o next ∧ P c.2) ∨
      ∃ r s₁, R r s₁ ∧ Prog.Reaches perform env (next r, s₁) c) (Or.inl ⟨rfl, pre⟩) ?_
    rintro ⟨p, s⟩ c' (⟨rfl, held⟩ | ⟨r, s₁, held, run⟩) step
    · cases step with
      | act o next s => exact Or.inr ⟨_, _, does _ held, .refl⟩
      | outside p h => exact Or.inl ⟨rfl, stable _ _ held h⟩
    · exact Or.inr ⟨r, s₁, held, run.tail step⟩
  rcases there with ⟨rfl, held⟩ | ⟨r, s₁, held, run⟩
  · refine ⟨always s' held, nofun, ?_⟩
    intro alive
    obtain ⟨a, t, ends⟩ := (rest _ _ (does s' held) _ _ .refl).2.2 alive
    exact ⟨a, t, .head (.act o next s') ends⟩
  · exact rest r s₁ held p' s' run

/-- A step of `p.bind f` is one of `p`, or `p` is done. -/
theorem Prog.Step.of_bind {p : Prog Op Res α} {f : α → Prog Op Res β} {s : S}
    {c : Prog Op Res β × S} (step : Prog.Step perform env (p.bind f, s) c) :
    (∃ a, p = .ret a) ∨
      ∃ p', c.1 = p'.bind f ∧ Prog.Step perform env (p, s) (p', c.2) := by
  cases p with
  | ret a => exact Or.inl ⟨a, rfl⟩
  | op o next =>
    right
    cases step with
    | act o _ s => exact ⟨_, rfl, .act o next s⟩
    | outside _ h => exact ⟨_, rfl, .outside _ h⟩
  | loop body x next =>
    right
    cases step with
    | turn _ x _ s =>
      refine ⟨_, ?_, .turn body x next s⟩
      rw [Prog.bind_assoc]
      exact congrArg (Prog.bind (body x)) (funext fun r => (afterTurn_bind body next f r).symm)
    | outside _ h => exact ⟨_, rfl, .outside _ h⟩

/-- What a run of `p.bind f` is at: still in `p`, or in what comes after it. -/
theorem Prog.Reaches.of_bind {p : Prog Op Res α} {f : α → Prog Op Res β} {s : S}
    {c : Prog Op Res β × S} (run : Prog.Reaches perform env (p.bind f, s) c) :
    (∃ p', c.1 = p'.bind f ∧ Prog.Reaches perform env (p, s) (p', c.2)) ∨
      ∃ a s₁, Prog.Reaches perform env (p, s) (.ret a, s₁) ∧
        Prog.Reaches perform env (f a, s₁) c := by
  refine run.keeps (K := fun c => (∃ p', c.1 = p'.bind f ∧
    Prog.Reaches perform env (p, s) (p', c.2)) ∨ ∃ a s₁,
      Prog.Reaches perform env (p, s) (.ret a, s₁) ∧ Prog.Reaches perform env (f a, s₁) c)
    (Or.inl ⟨p, rfl, .refl⟩) ?_
  rintro ⟨q, s⟩ c' (⟨p', rfl, run⟩ | ⟨a, s₁, first, run⟩) step
  · rcases step.of_bind with ⟨a, rfl⟩ | ⟨p'', same, step⟩
    · exact Or.inr ⟨a, s, run, .single step⟩
    · exact Or.inl ⟨p'', same, run.tail step⟩
  · exact Or.inr ⟨a, s₁, first, run.tail step⟩

theorem Prog.Step.bind {p : Prog Op Res α} {s : S} {c : Prog Op Res α × S}
    (step : Prog.Step perform env (p, s) c) (f : α → Prog Op Res β) :
    Prog.Step perform env (p.bind f, s) (c.1.bind f, c.2) := by
  cases step with
  | act o next s => exact .act o (fun r => (next r).bind f) s
  | turn body x next s =>
    have after : ((body x).bind (afterTurn body next)).bind f =
        (body x).bind (afterTurn body fun c => (next c).bind f) := by
      rw [Prog.bind_assoc]
      exact congrArg (Prog.bind (body x)) (funext (afterTurn_bind body next f))
    show Prog.Step perform env _ (((body x).bind (afterTurn body next)).bind f, s)
    rw [after]
    exact .turn body x (fun c => (next c).bind f) s
  | outside p h => exact .outside (p.bind f) h

theorem Prog.Reaches.bind {c c' : Prog Op Res α × S} (run : Prog.Reaches perform env c c')
    (f : α → Prog Op Res β) : Prog.Reaches perform env (c.1.bind f, c.2) (c'.1.bind f, c'.2) := by
  induction run with
  | refl => exact .refl
  | tail _ last ih => exact .tail ih (last.bind f)

theorem valid_bind {p : Prog Op Res α} {f : α → Prog Op Res β} {R : α → S → Prop}
    {Q : β → S → Prop} (first : Valid perform env live P p I R)
    (rest : ∀ a, Valid perform env live (R a) (f a) I Q) :
    Valid perform env live P (p.bind f) I Q := by
  intro s pre p' s' run
  rcases run.of_bind with ⟨q, same, run⟩ | ⟨a, s₁, run, later⟩
  · obtain ⟨on, last, ends⟩ := first s pre q s' run
    have same : p' = q.bind f := same
    subst same
    refine ⟨on, ?_, ?_⟩
    · intro b ended
      cases q with
      | ret a => exact (rest a s' (last a rfl) _ s' .refl).2.1 b ended
      | op o next => cases ended
      | loop body x next => cases ended
    · intro alive
      obtain ⟨a, s₁, leave⟩ := ends alive
      have after := (first s pre _ s₁ (run.trans leave)).2.1 a rfl
      obtain ⟨b, t, finish⟩ := (rest a s₁ after _ _ .refl).2.2 alive
      exact ⟨b, t, (leave.bind f).trans finish⟩
  · exact rest a s₁ ((first s pre _ s₁ run).2.1 a rfl) p' s' later

/-- What a run of a loop is at: the beginning of a turn, a turn, or what comes after the loop. -/
theorem Prog.Reaches.of_loop {body : σ → Prog Op Res (σ ⊕ γ)} {next : γ → Prog Op Res α}
    {J : σ → S → Prop} {R : γ → S → Prop} (stable : ∀ x, Stable env (J x))
    (turn : ∀ x, Valid perform env live (J x) (body x) I (Sum.elim J R)) {x : σ} {s : S}
    (start : J x s) {c : Prog Op Res α × S}
    (run : Prog.Reaches perform env (.loop body x next, s) c) :
    (∃ x, c.1 = .loop body x next ∧ J x c.2) ∨
      (∃ x s₁ q, J x s₁ ∧ Prog.Reaches perform env (body x, s₁) (q, c.2) ∧
        c.1 = q.bind (afterTurn body next)) ∨
      ∃ a s₁, R a s₁ ∧ Prog.Reaches perform env (next a, s₁) c := by
  refine run.keeps (K := fun c => (∃ x, c.1 = .loop body x next ∧ J x c.2) ∨
    (∃ x s₁ q, J x s₁ ∧ Prog.Reaches perform env (body x, s₁) (q, c.2) ∧
      c.1 = q.bind (afterTurn body next)) ∨
    ∃ a s₁, R a s₁ ∧ Prog.Reaches perform env (next a, s₁) c) (Or.inl ⟨x, rfl, start⟩) ?_
  rintro ⟨p, s⟩ c' (⟨x, rfl, held⟩ | ⟨x, s₁, q, held, run, rfl⟩ | ⟨a, s₁, held, run⟩) step
  · cases step with
    | turn _ _ _ _ => exact Or.inr (Or.inl ⟨x, s, body x, held, .refl, rfl⟩)
    | outside _ h => exact Or.inl ⟨x, rfl, stable x _ _ held h⟩
  · rcases step.of_bind with ⟨r, rfl⟩ | ⟨q', same, step⟩
    · have ended := (turn x s₁ held _ s run).2.1 r rfl
      cases r with
      | inl y =>
        cases step with
        | turn _ _ _ _ => exact Or.inr (Or.inl ⟨y, s, body y, ended, .refl, rfl⟩)
        | outside _ h => exact Or.inl ⟨y, rfl, stable y _ _ ended h⟩
      | inr a => exact Or.inr (Or.inr ⟨a, s, ended, .single step⟩)
    · exact Or.inr (Or.inl ⟨x, s₁, q', held, run.tail step, same⟩)
  · exact Or.inr (Or.inr ⟨a, s₁, held, run.tail step⟩)

/-- A loop: its invariant is kept by every turn that does not leave it, and it can be left. -/
theorem valid_loop {body : σ → Prog Op Res (σ ⊕ γ)} {next : γ → Prog Op Res α}
    {J : σ → S → Prop} {R : γ → S → Prop} (stable : ∀ x, Stable env (J x))
    (always : ∀ x s, J x s → I s)
    (turn : ∀ x, Valid perform env live (J x) (body x) I (Sum.elim J R))
    (leave : live → ∀ x s, J x s → ∃ c t, R c t ∧
      Prog.Reaches perform env (.loop body x next, s) (next c, t))
    (rest : ∀ c, Valid perform env live (R c) (next c) I Q) (x : σ) :
    Valid perform env live (J x) (.loop body x next) I Q := by
  intro s pre p' s' run
  have away : ∀ x s, J x s → live → ∃ a t,
      Prog.Reaches perform env (.loop body x next, s) (.ret a, t) := by
    intro x s held alive
    obtain ⟨c, s₁, after, out⟩ := leave alive x s held
    obtain ⟨a, t, finish⟩ := (rest c s₁ after _ _ .refl).2.2 alive
    exact ⟨a, t, out.trans finish⟩
  rcases run.of_loop stable turn pre with
    ⟨y, rfl, held⟩ | ⟨y, s₁, q, held, inside, rfl⟩ | ⟨a, s₁, held, run⟩
  · exact ⟨always y s' held, nofun, away y s' held⟩
  · obtain ⟨on, last, ends⟩ := turn y s₁ held q s' inside
    refine ⟨on, ?_, ?_⟩
    · intro b ended
      cases q with
      | ret r =>
        cases r with
        | inl z => cases ended
        | inr a => exact (rest a s' (last _ rfl) _ s' .refl).2.1 b ended
      | op o next => cases ended
      | loop body x next => cases ended
    · intro alive
      obtain ⟨r, s₂, ended⟩ := ends alive
      have after := (turn y s₁ held _ s₂ (inside.trans ended)).2.1 r rfl
      have onward := ended.bind (afterTurn body next)
      cases r with
      | inl z =>
        obtain ⟨a, t, finish⟩ := away z s₂ after alive
        exact ⟨a, t, onward.trans finish⟩
      | inr c =>
        obtain ⟨a, t, finish⟩ := (rest c s₂ after _ _ .refl).2.2 alive
        exact ⟨a, t, onward.trans finish⟩
  · exact rest a s₁ held p' s' run

/-! What the program knows of the state is a view of it, which the surroundings do not disturb. -/

section Views

variable {V : Type} (perform env live)

/-- From the view `v`, the program always has a view with `good`, and its last one is related to
its value. -/
def Keeps (inv : V → S → Prop) (good : V → Prop) (v : V) (p : Prog Op Res α)
    (Q : α → V → Prop) : Prop :=
  Valid perform env live (inv v) p (fun s => ∃ v, inv v s ∧ good v)
    (fun a s => ∃ v, inv v s ∧ Q a v)

variable {perform env live} {inv : V → S → Prop} {good : V → Prop} {v : V} {Q : α → V → Prop}

theorem Keeps.mono {Q' : α → V → Prop} {p : Prog Op Res α}
    (h : Keeps perform env live inv good v p Q) (post : ∀ a v, Q a v → Q' a v) :
    Keeps perform env live inv good v p Q' := by
  refine Valid.mono h (fun _ => id) (fun _ => id) ?_
  rintro a s ⟨v, held, last⟩
  exact ⟨v, held, post a v last⟩

variable (stable : ∀ v, Stable env (inv v))
include stable

theorem keeps_ret {a : α} (now : good v) (last : Q a v) :
    Keeps perform env live inv good v (.ret a) Q :=
  valid_ret (stable v) (fun _ held => ⟨v, held, now⟩) (fun _ held => ⟨v, held, last⟩)

/-- An operation whose answer depends on more than the view. -/
theorem keeps_call {o : Op} {f : Res o → Prog Op Res α} {R : Res o → V → Prop} (now : good v)
    (does : ∀ s, inv v s → ∃ v', inv v' (perform o s).2 ∧ R (perform o s).1 v')
    (rest : ∀ r v', R r v' → Keeps perform env live inv good v' (f r) Q) :
    Keeps perform env live inv good v (call o >>= f) Q := by
  refine valid_op (R := fun r s => ∃ v', inv v' s ∧ R r v') (stable v)
    (fun _ held => ⟨v, held, now⟩) does ?_
  rintro r s ⟨v', held, related⟩
  exact rest r v' related s held

/-- An operation whose answer the view determines. -/
theorem keeps_act {o : Op} {f : Res o → Prog Op Res α} {u : V} {r : Res o} (now : good v)
    (does : ∀ s, inv v s → (perform o s).1 = r ∧ inv u (perform o s).2)
    (rest : Keeps perform env live inv good u (f r) Q) :
    Keeps perform env live inv good v (call o >>= f) Q := by
  refine keeps_call stable (R := fun r' z => r' = r ∧ z = u) now ?_ ?_
  · intro s held
    exact ⟨u, (does s held).2, (does s held).1, rfl⟩
  · rintro _ _ ⟨rfl, rfl⟩
    exact rest

theorem keeps_last {o : Op} {u : V} {Q : Res o → V → Prop} (now : good v)
    (does : ∀ s, inv v s → inv u (perform o s).2 ∧ Q (perform o s).1 u) (after : good u) :
    Keeps perform env live inv good v (call o) Q := by
  refine valid_op (R := fun r s => inv u s ∧ Q r u) (stable v)
    (fun _ held => ⟨v, held, now⟩) does ?_
  rintro r s ⟨held, last⟩
  exact keeps_ret stable after last s held

omit stable

theorem keeps_bind {p : Prog Op Res α} {f : α → Prog Op Res β} {R : α → V → Prop}
    {Q : β → V → Prop} (first : Keeps perform env live inv good v p R)
    (rest : ∀ a v', R a v' → Keeps perform env live inv good v' (f a) Q) :
    Keeps perform env live inv good v (p >>= f) Q := by
  refine valid_bind first ?_
  rintro a s ⟨v', held, related⟩
  exact rest a v' related s held

include stable

theorem keeps_loop {body : σ → Prog Op Res (σ ⊕ γ)} {next : γ → Prog Op Res α}
    {J : σ → V → Prop} {R : γ → V → Prop} (now : ∀ x v, J x v → good v)
    (turn : ∀ x v, J x v → Keeps perform env live inv good v (body x) (Sum.elim J R))
    (leave : live → ∀ x v s, J x v → inv v s → ∃ c t, (∃ v', inv v' t ∧ R c v') ∧
      Prog.Reaches perform env (.loop body x next, s) (next c, t))
    (rest : ∀ c v', R c v' → Keeps perform env live inv good v' (next c) Q) {x : σ}
    (start : J x v) : Keeps perform env live inv good v (.loop body x next) Q := by
  intro s held
  refine valid_loop (J := fun x s => ∃ v, inv v s ∧ J x v) (R := fun c s => ∃ v, inv v s ∧ R c v)
    ?_ ?_ ?_ ?_ ?_ x s ⟨v, held, start⟩
  · rintro x s s' ⟨v, held, on⟩ step
    exact ⟨v, stable v s s' held step, on⟩
  · rintro x s ⟨v, held, on⟩
    exact ⟨v, held, now x v on⟩
  · rintro x s ⟨v, held, on⟩
    refine Valid.mono (turn x v on) (fun _ => id) (fun _ => id) ?_ s held
    rintro (y | c) s ⟨v', held, on⟩
    · exact ⟨v', held, on⟩
    · exact ⟨v', held, on⟩
  · rintro alive x s ⟨v, held, on⟩
    exact leave alive x v s on held
  · rintro c s ⟨v, held, on⟩
    exact rest c v on s held

/-- A loop that comes closer to its end with every turn can be left. -/
theorem keeps_variant {body : σ → Prog Op Res (σ ⊕ γ)} {next : γ → Prog Op Res α}
    {J : σ → V → Prop} {R : γ → V → Prop} (left : σ → Nat) (now : ∀ x v, J x v → good v)
    (turn : ∀ x v, J x v → Keeps perform env live inv good v (body x)
      (Sum.elim (fun y u => J y u ∧ left y < left x) R))
    (rest : ∀ c v', R c v' → Keeps perform env live inv good v' (next c) Q) {x : σ}
    (start : J x v) : Keeps perform env live inv good v (.loop body x next) Q := by
  refine keeps_loop stable now ?_ ?_ rest start
  · intro x v on
    refine (turn x v on).mono ?_
    rintro (y | c) u after
    · exact after.1
    · exact after
  · intro alive x
    induction h : left x using Nat.strongRecOn generalizing x with
    | _ n ih =>
      intro v s on held
      obtain ⟨r, t, ended⟩ := (turn x v on s held _ _ .refl).2.2 alive
      obtain ⟨u, view, after⟩ := (turn x v on s held _ t ended).2.1 r rfl
      have onward := Relation.ReflTransGen.head (Prog.Step.turn body x next s)
        (ended.bind (afterTurn body next))
      cases r with
      | inl y =>
        have closer : left y < n := by
          rw [← h]
          exact after.2
        obtain ⟨c, t', last, out⟩ := ih (left y) closer y rfl u t after.1 view
        exact ⟨c, t', last, onward.trans out⟩
      | inr c => exact ⟨c, t, ⟨u, view, after⟩, onward⟩

/-- A program that never ends only keeps the view that it has. -/
theorem keeps_hang (now : good v) (dead : ¬live) :
    Keeps perform env live inv good v (hang : Prog Op Res α) Q := by
  refine keeps_loop stable (J := fun _ u => u = v) (R := fun _ _ => False) ?_ ?_ ?_ ?_ rfl
  · rintro _ _ rfl
    exact now
  · rintro _ _ rfl
    exact keeps_ret stable now rfl
  · intro alive
    exact absurd alive dead
  · intro _ _ impossible
    exact impossible.elim

end Views

end CProgram
