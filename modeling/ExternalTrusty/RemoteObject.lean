import Mathlib.Data.List.Basic
import Mathlib.Tactic.Common

namespace Remote

/-- An object that answers requests, one after the other. -/
structure Object (Req : Type) (Ans : Req → Type) (σ : Type) where
  init : σ
  step : σ → (r : Req) → Ans r × σ

/-- The client's side of an object: what each call asks for, what it makes of the answer, and the
outcomes of a call that the object never took. -/
structure Stub (Req : Type) (Ans : Req → Type) (Call Out : Type) where
  request : Call → Req
  outcome : (c : Call) → Ans (request c) → Out
  Refused : Call → Out → Prop

variable {Req : Type} {Ans : Req → Type} {σ Call Out : Type}

namespace Object

variable (obj : Object Req Ans σ)

/-- The state after these requests. -/
def after (taken : List Req) : σ := taken.foldl (fun s r => (obj.step s r).2) obj.init

/-- The answer to a request that comes after these. -/
def answer (taken : List Req) (r : Req) : Ans r := (obj.step (obj.after taken) r).1

/-- The calls of a history, each with its outcome, are those of a client of the object, which has
taken the first requests before and all of them after. -/
inductive Explains (stub : Stub Req Ans Call Out) (before : List Req) :
    List (Call × Out) → List Req → Prop
  | nil : Explains stub before [] before
  | taken {history : List (Call × Out)} {reqs : List Req} (c : Call)
    (sofar : Explains stub before history reqs) :
    Explains stub before (history ++ [(c, stub.outcome c (obj.answer reqs (stub.request c)))])
      (reqs ++ [stub.request c])
  | refused {history : List (Call × Out)} {reqs : List Req} {c : Call} {out : Out}
    (sofar : Explains stub before history reqs) (no : stub.Refused c out) :
    Explains stub before (history ++ [(c, out)]) reqs

variable {obj} {stub : Stub Req Ans Call Out} {before reqs : List Req}
  {history : List (Call × Out)}

/-- No request is taken that was not made, none is taken twice, and none overtakes another. -/
theorem Explains.sublist (h : obj.Explains stub before history reqs) :
    ∃ done, reqs = before ++ done ∧
      done.Sublist (history.map fun call => stub.request call.1) := by
  induction h with
  | nil => exact ⟨[], (List.append_nil _).symm, List.Sublist.refl _⟩
  | taken c sofar ih =>
    obtain ⟨done, rfl, sub⟩ := ih
    refine ⟨done ++ [stub.request c], List.append_assoc .., ?_⟩
    rw [List.map_append]
    exact sub.append (List.Sublist.refl _)
  | refused sofar no ih =>
    obtain ⟨done, rfl, sub⟩ := ih
    refine ⟨done, rfl, ?_⟩
    rw [List.map_append]
    exact sub.trans (List.sublist_append_left ..)

end Object

end Remote
