/-!
# Dialogues

A computation that may stop to ask. It is a tree: either it is done, or it asks one question and
goes on with every answer. Whatever runs foreign code is written against this type, so a law that
holds for each single answer holds for every dialogue, by induction on the tree and without
looking at who wrote it.
-/
namespace ScriptHost

/-- A computation that asks questions in `Q`, is told answers in `A` and ends with a value. -/
inductive Dialogue (Q A α : Type) where
  | done (value : α)
  | ask (question : Q) (next : A → Dialogue Q A α)

namespace Dialogue

variable {Q A α β γ : Type}

/-- Goes on with `f` where a dialogue is done. -/
def bind : Dialogue Q A α → (α → Dialogue Q A β) → Dialogue Q A β
  | .done a, f => f a
  | .ask q k, f => .ask q fun a => (k a).bind f

instance : Monad (Dialogue Q A) where
  pure := .done
  bind := bind

@[simp] theorem done_bind (a : α) (f : α → Dialogue Q A β) : (Dialogue.done a).bind f = f a := rfl

@[simp] theorem ask_bind (q : Q) (k : A → Dialogue Q A α) (f : α → Dialogue Q A β) :
    (Dialogue.ask q k).bind f = .ask q fun a => (k a).bind f := rfl

theorem bind_done (d : Dialogue Q A α) : d.bind .done = d := by
  induction d with
  | done a => rfl
  | ask q k ih => exact congrArg (ask q) (funext ih)

theorem bind_bind (d : Dialogue Q A α) (f : α → Dialogue Q A β) (g : β → Dialogue Q A γ) :
    (d.bind f).bind g = d.bind fun a => (f a).bind g := by
  induction d with
  | done a => rfl
  | ask q k ih => exact congrArg (ask q) (funext ih)

/-- Asks and is done with the answer. -/
def request (q : Q) : Dialogue Q A A :=
  .ask q .done

/-- Answers every question by `answer` and hands on the value the dialogue ends with. -/
def run {m : Type → Type} [Monad m] (answer : Q → m A) : Dialogue Q A α → m α
  | .done a => pure a
  | .ask q k => do run answer (k (← answer q))

@[simp] theorem run_done {m : Type → Type} [Monad m] (answer : Q → m A) (a : α) :
    (Dialogue.done a : Dialogue Q A α).run answer = pure a := rfl

@[simp] theorem run_ask {m : Type → Type} [Monad m] (answer : Q → m A) (q : Q)
    (k : A → Dialogue Q A α) :
    (Dialogue.ask q k).run answer = answer q >>= fun a => (k a).run answer := rfl

theorem run_bind {m : Type → Type} [Monad m] [LawfulMonad m] (answer : Q → m A)
    (d : Dialogue Q A α) (f : α → Dialogue Q A β) :
    (d.bind f).run answer = d.run answer >>= fun a => (f a).run answer := by
  induction d with
  | done a => simp
  | ask q k ih => simp [ih]

end Dialogue

end ScriptHost
