import ExternalTrusty.Program

namespace CProgram

variable {Op Op' : Type} {Res : Op → Type} {Res' : Op' → Type} {S S' α β σ γ : Type}

/-- A program whose operations are done by programs of the layer below. -/
def Prog.expand (impl : (o : Op) → Prog Op' Res' (Res o)) :
    {α : Type} → Prog Op Res α → Prog Op' Res' α
  | _, .ret a => .ret a
  | _, .op o next => (impl o).bind fun r => (next r).expand impl
  | _, .loop body s next => .loop (fun s => (body s).expand impl) s fun c => (next c).expand impl

theorem Prog.Uses.expand {impl : (o : Op) → Prog Op' Res' (Res o)} {ok : Op → Prop}
    {ok' : Op' → Prop} {p : Prog Op Res α} (hp : p.Uses ok) (h : ∀ o, ok o → (impl o).Uses ok') :
    (p.expand impl).Uses ok' := by
  induction p with
  | ret a => trivial
  | op o next ih => exact (h o hp.1).bind fun r => ih r (hp.2 r)
  | loop body s next ihbody ih => exact ⟨fun s => ihbody s (hp.1 s), fun c => ih c (hp.2 c)⟩

theorem Prog.uses_any (p : Prog Op Res α) : p.Uses fun _ => True := by
  induction p with
  | ret a => trivial
  | op o next ih => exact ⟨trivial, ih⟩
  | loop body s next ihbody ih => exact ⟨ihbody, ih⟩

/-- What answers operations: the answers it may give, and how it goes on after one. -/
structure Layer (Op : Type) (Res : Op → Type) (S : Type) where
  may : S → Event Op Res → Prop
  next : S → Event Op Res → S

namespace Layer

variable (l : Layer Op Res S)

def after (s : S) (t : List (Event Op Res)) : S := t.foldl l.next s

@[simp] theorem after_nil (s : S) : l.after s [] = s := rfl

@[simp] theorem after_cons (s : S) (e : Event Op Res) (t : List (Event Op Res)) :
    l.after s (e :: t) = l.after (l.next s e) t := rfl

@[simp] theorem after_append (s : S) (t t' : List (Event Op Res)) :
    l.after s (t ++ t') = l.after (l.after s t) t' := List.foldl_append

/-- Every answer is one that may be given. -/
def Plays (l : Layer Op Res S) : S → List (Event Op Res) → Prop
  | _, [] => True
  | s, e :: t => l.may s e ∧ Plays l (l.next s e) t

@[simp] theorem plays_append {s : S} {t t' : List (Event Op Res)} :
    l.Plays s (t ++ t') ↔ l.Plays s t ∧ l.Plays (l.after s t) t' := by
  induction t generalizing s with
  | nil => simp [Plays]
  | cons e t ih => simp only [List.cons_append, Plays, ih, after_cons, and_assoc]

/-- Every operation comes when it is legal, as long as the answers are ones that may be given. -/
def Lawful (l : Layer Op Res S) (legal : S → Op → Prop) : S → List (Event Op Res) → Prop
  | _, [] => True
  | s, e :: t => legal s e.1 ∧ (l.may s e → Lawful l legal (l.next s e) t)

theorem lawful_append {l : Layer Op Res S} {legal : S → Op → Prop} {s : S}
    {t t' : List (Event Op Res)} : l.Lawful legal s (t ++ t') ↔
      l.Lawful legal s t ∧ (l.Plays s t → l.Lawful legal (l.after s t) t') := by
  induction t generalizing s with
  | nil => simp [Lawful, Plays]
  | cons e t ih =>
    simp only [List.cons_append, Lawful, Plays, ih, after_cons]
    tauto

theorem Lawful.rest {l : Layer Op Res S} {legal : S → Op → Prop} {s : S}
    {t t' : List (Event Op Res)} (h : l.Lawful legal s (t ++ t')) (plays : l.Plays s t) :
    l.Lawful legal (l.after s t) t' := (lawful_append.mp h).2 plays

end Layer

/-- However `p` runs on the layer, its result and the state that it leaves are as `post` says. -/
def Layer.Sure (l : Layer Op Res S) (s : S) (p : Prog Op Res α) (post : α → S → Prop) : Prop :=
  ∀ t a, p.Runs t a → l.Plays s t → post a (l.after s t)

namespace Layer.Sure

variable {l : Layer Op Res S} {s : S} {post : β → S → Prop}

theorem ret {b : β} (h : post b s) : l.Sure s (.ret b) post := by
  rintro t a ⟨rfl, rfl⟩ _
  exact h

theorem mono {post' : β → S → Prop} {p : Prog Op Res β} (h : l.Sure s p post)
    (hpost : ∀ b s', post b s' → post' b s') : l.Sure s p post' :=
  fun t b run plays => hpost b _ (h t b run plays)

theorem bind {p : Prog Op Res α} {f : α → Prog Op Res β}
    (h : l.Sure s p fun a s' => l.Sure s' (f a) post) : l.Sure s (p.bind f) post := by
  intro t b run plays
  obtain ⟨t₁, a, t₂, rfl, hp, hf⟩ := Prog.runs_bind.mp run
  rw [plays_append] at plays
  rw [after_append]
  exact h t₁ a hp plays.1 t₂ b hf plays.2

theorem call {o : Op} {post : Res o → S → Prop}
    (h : ∀ r, l.may s ⟨o, r⟩ → post r (l.next s ⟨o, r⟩)) : l.Sure s (CProgram.call o) post := by
  rintro t a ⟨r, t', rfl, rfl, rfl⟩ plays
  exact h r plays.1

end Layer.Sure

/-- However `p` runs on the layer, `good` holds at every point of the run, and `post` when it
returns. -/
def Layer.Keeps (l : Layer Op Res S) (good : S → Prop) (s : S) (p : Prog Op Res α)
    (post : α → S → Prop) : Prop :=
  (∀ t, p.Starts t → l.Plays s t → good (l.after s t)) ∧ l.Sure s p post

namespace Layer.Keeps

variable {l : Layer Op Res S} {good : S → Prop} {s : S} {post : β → S → Prop}

theorem ret {b : β} (hgood : good s) (h : post b s) : l.Keeps good s (.ret b) post := by
  refine ⟨?_, .ret h⟩
  rintro t rfl _
  exact hgood

theorem mono {post' : β → S → Prop} {p : Prog Op Res β} (h : l.Keeps good s p post)
    (hpost : ∀ b s', post b s' → post' b s') : l.Keeps good s p post' :=
  ⟨h.1, h.2.mono hpost⟩

theorem bind {p : Prog Op Res α} {f : α → Prog Op Res β}
    (h : l.Keeps good s p fun a s' => l.Keeps good s' (f a) post) :
    l.Keeps good s (p.bind f) post := by
  refine ⟨?_, .bind (h.2.mono fun _ _ hf => hf.2)⟩
  intro t starts plays
  rcases Prog.starts_bind starts with hp | ⟨t₁, a, t₂, rfl, hp, hf⟩
  · exact h.1 t hp plays
  · rw [plays_append] at plays
    rw [after_append]
    exact (h.2 t₁ a hp plays.1).1 t₂ hf plays.2

theorem call {o : Op} {post : Res o → S → Prop} (hgood : good s)
    (h : ∀ r, l.may s ⟨o, r⟩ → good (l.next s ⟨o, r⟩) ∧ post r (l.next s ⟨o, r⟩)) :
    l.Keeps good s (CProgram.call o) post := by
  refine ⟨?_, .call fun r may => (h r may).2⟩
  rintro t (rfl | ⟨r, t', rfl, rfl⟩) plays
  · exact hgood
  · exact (h r plays.1).1

end Layer.Keeps

theorem Prog.starts_nil (p : Prog Op Res α) : p.Starts [] := by
  induction p with
  | ret a => rfl
  | op o next ih => exact Or.inl rfl
  | loop body s next ihbody ih => exact Or.inl (.here (ihbody s))

/-- One more turn of a loop, at its beginning. -/
theorem starts_turn {body : σ → Prog Op Res (σ ⊕ γ)} {next : γ → Prog Op Res α} {st st' : σ}
    {t t' : List (Event Op Res)} (head : (body st).Runs t (.inl st'))
    (tail : (Prog.loop body st' next).Starts t') : (Prog.loop body st next).Starts (t ++ t') := by
  rcases tail with htail | ⟨t₁, c, t₂, rfl, hruns, hrest⟩
  · exact Or.inl (.next head htail)
  · exact Or.inr ⟨t ++ t₁, c, t₂, (List.append_assoc ..).symm, .next head hruns, hrest⟩

theorem Layer.lawful_of_splits {l : Layer Op Res S} {legal : S → Op → Prop} {s : S}
    {t : List (Event Op Res)}
    (h : ∀ before e after, t = before ++ e :: after → legal (l.after s before) e.1) :
    l.Lawful legal s t := by
  induction t generalizing s with
  | nil => trivial
  | cons e t ih =>
    refine ⟨h [] e t rfl, fun _ => ih ?_⟩
    rintro before e' after rfl
    exact h (e :: before) e' after rfl

/-- Whatever is answered, every operation of `p` is legal when it comes, and the state that `p`
leaves is as `post` says. -/
def Layer.Obeys (l : Layer Op Res S) (legal : S → Op → Prop) (s : S) (p : Prog Op Res α)
    (post : α → S → Prop) : Prop :=
  (∀ t, p.Starts t → l.Lawful legal s t) ∧ l.Sure s p post

namespace Layer.Obeys

variable {l : Layer Op Res S} {legal : S → Op → Prop} {s : S} {post : β → S → Prop}

theorem ret {b : β} (h : post b s) : l.Obeys legal s (.ret b) post := by
  refine ⟨?_, .ret h⟩
  rintro t rfl
  trivial

theorem mono {post' : β → S → Prop} {p : Prog Op Res β} (h : l.Obeys legal s p post)
    (hpost : ∀ b s', post b s' → post' b s') : l.Obeys legal s p post' :=
  ⟨h.1, h.2.mono hpost⟩

theorem bind {p : Prog Op Res α} {f : α → Prog Op Res β}
    (h : l.Obeys legal s p fun a s' => l.Obeys legal s' (f a) post) :
    l.Obeys legal s (p.bind f) post := by
  refine ⟨?_, .bind (h.2.mono fun _ _ hf => hf.2)⟩
  intro t starts
  rcases Prog.starts_bind starts with hp | ⟨t₁, a, t₂, rfl, hp, hf⟩
  · exact h.1 t hp
  · exact lawful_append.mpr ⟨h.1 t₁ hp.starts, fun plays => (h.2 t₁ a hp plays).1 t₂ hf⟩

theorem call {o : Op} {post : Res o → S → Prop} (hlegal : legal s o)
    (h : ∀ r, l.may s ⟨o, r⟩ → post r (l.next s ⟨o, r⟩)) :
    l.Obeys legal s (CProgram.call o) post := by
  refine ⟨?_, .call h⟩
  rintro t (rfl | ⟨r, t', rfl, rfl⟩)
  · trivial
  · exact ⟨hlegal, fun _ => trivial⟩

/-- The loop rule: the body keeps an invariant, or leaves with the postcondition. -/
theorem forever {body : σ → Prog Op Res (σ ⊕ γ)} (inv : σ → S → Prop) {post : γ → S → Prop}
    (hbody : ∀ st s, inv st s →
      l.Obeys legal s (body st) fun x s' => Sum.elim (inv · s') (post · s') x)
    {st : σ} (h : inv st s) : l.Obeys legal s (forever st body) post := by
  have hruns : ∀ {st t c}, LoopRuns (fun st => (body st).Runs) st t c → ∀ s, inv st s →
      l.Lawful legal s t ∧ (l.Plays s t → post c (l.after s t)) := by
    intro st t c hloop
    induction hloop with
    | done last => exact fun s h => ⟨(hbody _ s h).1 _ last.starts, (hbody _ s h).2 _ _ last⟩
    | next head _ ih =>
      intro s h
      have hhead := hbody _ s h
      refine ⟨lawful_append.mpr ⟨hhead.1 _ head.starts, fun plays =>
        (ih _ (hhead.2 _ _ head plays)).1⟩, fun plays => ?_⟩
      rw [plays_append] at plays
      rw [after_append]
      exact (ih _ (hhead.2 _ _ head plays.1)).2 plays.2
  have hstarts : ∀ {st t}, LoopStarts (fun st => (body st).Runs) (fun st => (body st).Starts) st t →
      ∀ s, inv st s → l.Lawful legal s t := by
    intro st t hloop
    induction hloop with
    | here head => exact fun s h => (hbody _ s h).1 _ head
    | next head _ ih =>
      intro s h
      exact lawful_append.mpr ⟨(hbody _ s h).1 _ head.starts, fun plays =>
        ih _ ((hbody _ s h).2 _ _ head plays)⟩
  constructor
  · rintro t (ht | ⟨t₁, c, t₂, rfl, hloop, rfl⟩)
    · exact hstarts ht s h
    · rw [List.append_nil]
      exact (hruns hloop s h).1
  · rintro t c ⟨t₁, c', t₂, rfl, hloop, rfl, rfl⟩
    rw [List.append_nil]
    exact (hruns hloop s h).2

theorem hang : l.Obeys legal s hang post := by
  refine forever (fun _ _ => True) ?_ trivial
  intro _ _ _
  refine ret ?_
  trivial

/-- Operations that are always legal and that do not change the state. -/
theorem quiet {ok : Op → Prop} {p : Prog Op Res β} (hp : p.Uses ok)
    (hlegal : ∀ o, ok o → legal s o) (hsame : ∀ o, ok o → ∀ r, l.next s ⟨o, r⟩ = s) :
    l.Obeys legal s p fun _ s' => s' = s := by
  have stays : ∀ t : List (Event Op Res), (∀ e ∈ t, ok e.1) →
      l.Lawful legal s t ∧ l.after s t = s := by
    intro t ht
    induction t with
    | nil => exact ⟨trivial, rfl⟩
    | cons e t ih =>
      obtain ⟨he, ht⟩ := List.forall_mem_cons.mp ht
      have same : l.next s e = s := hsame e.1 he e.2
      rw [after_cons, same]
      refine ⟨⟨hlegal e.1 he, fun _ => ?_⟩, (ih ht).2⟩
      rw [same]
      exact (ih ht).1
  exact ⟨fun t ht => (stays t (hp.starts ht)).1, fun t a ht _ => (stays t (hp.starts ht.starts)).2⟩

/-- What each operation above comes down to keeps an invariant, so a program does. -/
theorem expand {impl : (o : Op') → Prog Op Res (Res' o)} (inv : S → Prop)
    (himpl : ∀ o s, inv s → l.Obeys legal s (impl o) fun _ s' => inv s') (p : Prog Op' Res' β)
    (h : inv s) : l.Obeys legal s (p.expand impl) fun _ s' => inv s' := by
  induction p generalizing s with
  | ret b => exact .ret h
  | op o next ih => exact .bind ((himpl o s h).mono fun r s' h' => ih r h')
  | loop body st next ihbody ih =>
    have turns : l.Obeys legal s (CProgram.forever st fun st => (body st).expand impl)
        fun _ s' => inv s' := by
      refine forever (fun _ => inv) (fun st s h => (ihbody st h).mono ?_) h
      rintro (st' | c) s' h'
      · exact h'
      · exact h'
    exact .bind (turns.mono fun c s' h' => ih c h')

end Layer.Obeys

/-- The layer above is done by programs on the layer below: after a legal operation, the answer is
one that the layer above may give, and the states are still related. -/
def Implements (impl : (o : Op) → Prog Op' Res' (Res o)) (upper : Layer Op Res S)
    (lower : Layer Op' Res' S') (legal : S → Op → Prop) (R : S → S' → Prop) : Prop :=
  ∀ s s' o, R s s' → legal s o →
    lower.Sure s' (impl o) fun r s₁' => upper.may s ⟨o, r⟩ ∧ R (upper.next s ⟨o, r⟩) s₁'

namespace Implements

variable {impl : (o : Op) → Prog Op' Res' (Res o)} {upper : Layer Op Res S}
  {lower : Layer Op' Res' S'} {legal : S → Op → Prop} {R : S → S' → Prop} {s : S} {s' : S'}

/-- The first operation of a program, and what is then known of the rest. -/
theorem first (h : Implements impl upper lower legal R) {o : Op} {next : Res o → Prog Op Res α}
    (law : ∀ u, (Prog.op o next).Starts u → upper.Lawful legal s u) {t : List (Event Op' Res')}
    {r : Res o} (run : (impl o).Runs t r) (plays : lower.Plays s' t) (related : R s s') :
    upper.may s ⟨o, r⟩ ∧ R (upper.next s ⟨o, r⟩) (lower.after s' t) ∧
      ∀ u, (next r).Starts u → upper.Lawful legal (upper.next s ⟨o, r⟩) u := by
  have legalNow := (law [⟨o, r⟩] (Or.inr ⟨r, [], rfl, (next r).starts_nil⟩)).1
  obtain ⟨may, related'⟩ := h s s' o related legalNow t r run plays
  refine ⟨may, related', ?_⟩
  intro u starts
  exact (law (⟨o, r⟩ :: u) (Or.inr ⟨r, u, rfl, starts⟩)).2 may

/-- Turns of a loop. -/
theorem turns {body : σ → Prog Op Res (σ ⊕ γ)} {next : γ → Prog Op Res α}
    (hbody : ∀ {st : σ} {s : S} {s' : S'} {t : List (Event Op' Res')} {x : σ ⊕ γ},
      (∀ u, (body st).Starts u → upper.Lawful legal s u) → ((body st).expand impl).Runs t x →
      lower.Plays s' t → R s s' →
      ∃ u, (body st).Runs u x ∧ upper.Plays s u ∧ R (upper.after s u) (lower.after s' t))
    {st : σ} {t : List (Event Op' Res')} {c : γ}
    (run : LoopRuns (fun st => ((body st).expand impl).Runs) st t c)
    (law : ∀ u, (Prog.loop body st next).Starts u → upper.Lawful legal s u)
    (plays : lower.Plays s' t) (related : R s s') :
    ∃ u, LoopRuns (fun st => (body st).Runs) st u c ∧ upper.Plays s u ∧
      R (upper.after s u) (lower.after s' t) := by
  induction run generalizing s s' with
  | done last =>
    obtain ⟨u, hrun, hplays, hrel⟩ :=
      hbody (fun u hu => law u (Or.inl (.here hu))) last plays related
    exact ⟨u, .done hrun, hplays, hrel⟩
  | @next _ st' _ _ _ head _ ih =>
    rw [Layer.plays_append] at plays
    obtain ⟨u, hrun, hplays, hrel⟩ :=
      hbody (fun u hu => law u (Or.inl (.here hu))) head plays.1 related
    have law' : ∀ v, (Prog.loop body st' next).Starts v →
        upper.Lawful legal (upper.after s u) v := fun v hv =>
      Layer.Lawful.rest (law (u ++ v) (starts_turn hrun hv)) hplays
    obtain ⟨v, hruns, hplays', hrel'⟩ := ih law' plays.2 hrel
    exact ⟨u ++ v, .next hrun hruns, (upper.plays_append).mpr ⟨hplays, hplays'⟩,
      by simpa using hrel'⟩

/-- A complete run on the layer below is one on the layer above. -/
theorem runs (h : Implements impl upper lower legal R) {p : Prog Op Res α}
    (law : ∀ u, p.Starts u → upper.Lawful legal s u) {t : List (Event Op' Res')} {a : α}
    (run : (p.expand impl).Runs t a) (plays : lower.Plays s' t) (related : R s s') :
    ∃ u, p.Runs u a ∧ upper.Plays s u ∧ R (upper.after s u) (lower.after s' t) := by
  induction p generalizing s s' t with
  | ret b =>
    obtain ⟨rfl, rfl⟩ := run
    exact ⟨[], ⟨rfl, rfl⟩, trivial, related⟩
  | op o next ih =>
    obtain ⟨t₁, r, t₂, rfl, hop, hrest⟩ := Prog.runs_bind.mp run
    rw [Layer.plays_append] at plays
    obtain ⟨may, hrel, law'⟩ := h.first law hop plays.1 related
    obtain ⟨u, hrun, hplays, hrel'⟩ := ih r law' hrest plays.2 hrel
    exact ⟨⟨o, r⟩ :: u, ⟨r, u, rfl, hrun⟩, ⟨may, hplays⟩, by simpa using hrel'⟩
  | loop body st next ihbody ih =>
    obtain ⟨t₁, c, t₂, rfl, hloop, hrest⟩ := run
    rw [Layer.plays_append] at plays
    obtain ⟨u, hrun, hplays, hrel⟩ := turns (fun law run => ihbody _ law run) hloop law plays.1 related
    obtain ⟨v, hrun', hplays', hrel'⟩ := ih c (fun v hv => Layer.Lawful.rest
      (law (u ++ v) (Or.inr ⟨u, c, v, rfl, hrun, hv⟩)) hplays) hrest plays.2 hrel
    exact ⟨u ++ v, ⟨u, c, v, rfl, hrun, hrun'⟩, (upper.plays_append).mpr ⟨hplays, hplays'⟩,
      by simpa using hrel'⟩

/-- A part of a run on the layer below is one of a run on the layer above, and perhaps an operation
that has not been done to its end. -/
def Partly (impl : (o : Op) → Prog Op' Res' (Res o)) (upper : Layer Op Res S)
    (lower : Layer Op' Res' S') (R : S → S' → Prop) (starts : List (Event Op Res) → Prop)
    (s : S) (s' : S') (t : List (Event Op' Res')) : Prop :=
  ∃ u t₁ t₂, t = t₁ ++ t₂ ∧ starts u ∧ upper.Plays s u ∧
    R (upper.after s u) (lower.after s' t₁) ∧ (t₂ = [] ∨ ∃ o, (impl o).Starts t₂)

/-- What follows after operations that were done. -/
theorem Partly.after {starts starts' : List (Event Op Res) → Prop} {u : List (Event Op Res)}
    {t t' : List (Event Op' Res')} (plays : upper.Plays s u)
    (rest : Partly impl upper lower R starts (upper.after s u) (lower.after s' t) t')
    (hstarts : ∀ v, starts v → starts' (u ++ v)) :
    Partly impl upper lower R starts' s s' (t ++ t') := by
  obtain ⟨v, t₁, t₂, rfl, hv, hplays, hrel, hlast⟩ := rest
  refine ⟨u ++ v, t ++ t₁, t₂, (List.append_assoc ..).symm, hstarts v hv,
    (upper.plays_append).mpr ⟨plays, hplays⟩, ?_, hlast⟩
  simpa using hrel

theorem Partly.mono {starts starts' : List (Event Op Res) → Prop} {t : List (Event Op' Res')}
    (h : Partly impl upper lower R starts s s' t) (hstarts : ∀ v, starts v → starts' v) :
    Partly impl upper lower R starts' s s' t := by
  obtain ⟨v, t₁, t₂, heq, hv, rest⟩ := h
  exact ⟨v, t₁, t₂, heq, hstarts v hv, rest⟩

/-- Every beginning of a run on the layer below is a beginning of one on the layer above. -/
theorem starts (h : Implements impl upper lower legal R) {p : Prog Op Res α}
    (law : ∀ u, p.Starts u → upper.Lawful legal s u) {t : List (Event Op' Res')}
    (start : (p.expand impl).Starts t) (plays : lower.Plays s' t) (related : R s s') :
    Partly impl upper lower R p.Starts s s' t := by
  induction p generalizing s s' t with
  | ret b =>
    obtain rfl := start
    exact ⟨[], [], [], rfl, rfl, trivial, related, Or.inl rfl⟩
  | op o next ih =>
    rcases Prog.starts_bind start with hop | ⟨t₁, r, t₂, rfl, hop, hrest⟩
    · exact ⟨[], [], t, rfl, Or.inl rfl, trivial, related, Or.inr ⟨o, hop⟩⟩
    · rw [Layer.plays_append] at plays
      obtain ⟨may, hrel, law'⟩ := h.first law hop plays.1 related
      exact .after (u := [⟨o, r⟩]) ⟨may, trivial⟩ (ih r law' hrest plays.2 hrel)
        fun v hv => Or.inr ⟨r, v, rfl, hv⟩
  | loop body st next ihbody ih =>
    have hloop : ∀ {st : _} {t : List (Event Op' Res')},
        LoopStarts (fun st => ((body st).expand impl).Runs)
          (fun st => ((body st).expand impl).Starts) st t →
        ∀ {s : S} {s' : S'}, (∀ u, (Prog.loop body st next).Starts u → upper.Lawful legal s u) →
          lower.Plays s' t → R s s' →
          Partly impl upper lower R (Prog.loop body st next).Starts s s' t := by
      intro st t hstart
      induction hstart with
      | here head =>
        intro s s' law plays related
        exact (ihbody _ (fun u hu => law u (Or.inl (.here hu))) head plays related).mono
          fun v hv => Or.inl (.here hv)
      | next head _ ihtail =>
        intro s s' law plays related
        rw [Layer.plays_append] at plays
        obtain ⟨u, hrun, hplays, hrel⟩ :=
          h.runs (fun u hu => law u (Or.inl (.here hu))) head plays.1 related
        have hmore : ∀ v, (Prog.loop body _ next).Starts v →
            (Prog.loop body _ next).Starts (u ++ v) := fun v hv => starts_turn hrun hv
        exact .after hplays (ihtail (fun v hv => Layer.Lawful.rest (law _ (hmore v hv)) hplays)
          plays.2 hrel) hmore
    rcases start with hstart | ⟨t₁, c, t₂, rfl, hruns, hrest⟩
    · exact hloop hstart law plays related
    · rw [Layer.plays_append] at plays
      obtain ⟨u, hrun, hplays, hrel⟩ :=
        turns (fun law run => h.runs law run) hruns law plays.1 related
      exact .after hplays (ih c (fun v hv => Layer.Lawful.rest
        (law (u ++ v) (Or.inr ⟨u, c, v, rfl, hrun, hv⟩)) hplays) hrest plays.2 hrel)
        fun v hv => Or.inr ⟨u, c, v, rfl, hrun, hv⟩

end Implements

/-- Running a program on a layer whose answers are given by a function gives answers that the
layer may give. -/
theorem Layer.exec_plays {l : Layer Op Res S} (answer : S → (o : Op) → Res o)
    (hmay : ∀ s o, l.may s ⟨o, answer s o⟩) {fuel : Nat} {p : Prog Op Res α} {s s' : S}
    {t : List (Event Op Res)} {a : α}
    (h : p.exec (fun s o => (answer s o, l.next s ⟨o, answer s o⟩)) fuel s = some (t, a, s')) :
    l.Plays s t ∧ l.after s t = s' := by
  induction p generalizing s t s' with
  | ret b =>
    cases h
    exact ⟨trivial, rfl⟩
  | op o next ih =>
    obtain ⟨⟨t', b, s₂⟩, hnext, heq⟩ := Option.map_eq_some_iff.mp h
    cases heq
    obtain ⟨hplays, hafter⟩ := ih _ hnext
    exact ⟨⟨hmay s o, hplays⟩, hafter⟩
  | loop body st next ihbody ih =>
    have hloop : ∀ n st s t c s', loopExec (fun st => (body st).exec
        (fun s o => (answer s o, l.next s ⟨o, answer s o⟩)) fuel) n st s = some (t, c, s') →
        l.Plays s t ∧ l.after s t = s' := by
      intro n
      induction n with
      | zero => exact fun _ _ _ _ _ hnone => absurd hnone nofun
      | succ n ihn =>
        intro st s t c s' hrun
        obtain ⟨⟨t₁, x, s₁⟩, hbody, hrest⟩ := Option.bind_eq_some_iff.mp hrun
        obtain ⟨hplays, rfl⟩ := ihbody _ hbody
        cases x with
        | inr d =>
          cases hrest
          exact ⟨hplays, rfl⟩
        | inl st' =>
          obtain ⟨⟨t₂, d, s₂⟩, hmore, heq⟩ := Option.map_eq_some_iff.mp hrest
          cases heq
          obtain ⟨hplays', hafter⟩ := ihn _ _ _ _ _ hmore
          exact ⟨l.plays_append.mpr ⟨hplays, hplays'⟩, by rw [after_append, hafter]⟩
    obtain ⟨⟨t₁, c, s₁⟩, hruns, hrest⟩ := Option.bind_eq_some_iff.mp h
    obtain ⟨⟨t₂, b, s₂⟩, hnext, heq⟩ := Option.map_eq_some_iff.mp hrest
    cases heq
    obtain ⟨hplays, rfl⟩ := hloop _ _ _ _ _ _ hruns
    obtain ⟨hplays', hafter⟩ := ih _ hnext
    exact ⟨l.plays_append.mpr ⟨hplays, hplays'⟩, by rw [after_append, hafter]⟩

section Beside

variable {Out : Type} {OutRes : Out → Type}

/-- The answers, when there are also operations of others. -/
abbrev Beside (Res : Op → Type) (OutRes : Out → Type) : Op ⊕ Out → Type := Sum.elim Res OutRes

/-- A layer that leaves the operations of others alone. -/
def Layer.beside (l : Layer Op Res S) : Layer (Op ⊕ Out) (Beside Res OutRes) S where
  may
    | s, ⟨.inl o, r⟩ => l.may s ⟨o, r⟩
    | _, ⟨.inr _, _⟩ => True
  next
    | s, ⟨.inl o, r⟩ => l.next s ⟨o, r⟩
    | s, ⟨.inr _, _⟩ => s

def Prog.left (p : Prog Op Res α) : Prog (Op ⊕ Out) (Beside Res OutRes) α :=
  p.expand fun o => call (Sum.inl o)

theorem Layer.Sure.left {l : Layer Op Res S} {s : S} {p : Prog Op Res α} {post : α → S → Prop}
    (h : l.Sure s p post) :
    (l.beside : Layer (Op ⊕ Out) (Beside Res OutRes) S).Sure s p.left post := by
  intro t a run plays
  have himpl : Implements (fun o => CProgram.call (Sum.inl o)) l
      (l.beside : Layer (Op ⊕ Out) (Beside Res OutRes) S) (fun _ _ => True) Eq := by
    rintro s _ o rfl _
    exact Layer.Sure.call fun r may => ⟨may, rfl⟩
  have hlaw : ∀ u s, l.Lawful (fun _ _ => True) s u := by
    intro u
    induction u with
    | nil => exact fun _ => trivial
    | cons e u ih => exact fun s => ⟨trivial, fun _ => ih _⟩
  obtain ⟨u, hrun, hplays, heq⟩ := himpl.runs (fun u _ => hlaw u s) run plays rfl
  rw [← heq]
  exact h u a hrun hplays

/-- The layer above is done by programs, and the operations of others stay as they are. -/
def implBeside (impl : (o : Op) → Prog Op' Res' (Res o)) :
    (o : Op ⊕ Out) → Prog (Op' ⊕ Out) (Beside Res' OutRes) (Beside Res OutRes o)
  | .inl o => (impl o).left
  | .inr o => call (Sum.inr o)

theorem Implements.beside {impl : (o : Op) → Prog Op' Res' (Res o)} {upper : Layer Op Res S}
    {lower : Layer Op' Res' S'} {legal : S → Op → Prop} {R : S → S' → Prop}
    (h : Implements impl upper lower legal R) :
    Implements (implBeside impl) (upper.beside : Layer (Op ⊕ Out) (Beside Res OutRes) S)
      (lower.beside) (fun s => Sum.elim (legal s) fun _ => True) R := by
  intro s s' o related legalNow
  cases o with
  | inl o => exact (h s s' o related legalNow).left
  | inr o => exact .call fun r _ => ⟨trivial, related⟩

end Beside

section Invariant

variable {μ : Type} {record : μ → Event Op Res → μ} {good : μ → Prop} {m : μ}

/-- What every operation of a program keeps, it keeps. -/
theorem Tracks.invariant {ok : Op → Prop} (inv : μ → Prop) {p : Prog Op Res α} (hp : p.Uses ok)
    (hkeep : ∀ m e, ok e.1 → inv m → inv (record m e)) (hgood : ∀ m, inv m → good m)
    (h : inv m) : Tracks record good m p fun _ m' => inv m' := by
  have hfold : ∀ t : List (Event Op Res), (∀ e ∈ t, ok e.1) → ∀ m, inv m →
      inv (t.foldl record m) := by
    intro t
    induction t with
    | nil => exact fun _ m h => h
    | cons e t ih =>
      intro ht m h
      obtain ⟨he, ht⟩ := List.forall_mem_cons.mp ht
      exact ih ht _ (hkeep m e he h)
  constructor
  · exact fun t ht => hgood _ (hfold t (hp.starts ht) m h)
  · exact fun t a ht => hfold t (hp.starts ht.starts) m h

end Invariant

end CProgram
