import ScriptHost.World

/-!
# Outcomes

What an operation ends in from a world, and the world it leaves. Both are computed step by step,
so a fact about a long operation is put together from facts about its steps.
-/
namespace ScriptHost

variable {α β ε : Type}

/-- A value at the end of two steps comes from a value of the first. -/
theorem exists_of_except_bind {x : Except ε α} {k : α → Except ε β} {b : β}
    (h : x >>= k = .ok b) : ∃ a, x = .ok a ∧ k a = .ok b := by
  cases x with
  | error e => cases h
  | ok a => exact ⟨a, rfl, h⟩

theorem exists_of_except_map {x : Except ε α} {f : α → β} {b : β} (h : f <$> x = .ok b) :
    ∃ a, x = .ok a ∧ f a = b := by
  cases x with
  | error e => cases h
  | ok a => exact ⟨a, rfl, Except.ok.inj h⟩

namespace Op

/-- What an operation ends in. -/
def outcome (m : Op α) (w : World) : Except Fault α :=
  (StateT.run (ExceptT.run m) w).1

/-- The world an operation leaves, however it ends. -/
def after (m : Op α) (w : World) : World :=
  (StateT.run (ExceptT.run m) w).2

/-- An operation ends in a value. -/
def Ends (m : Op α) (w : World) : Prop :=
  (m.outcome w).isOk

/-- An operation ends in a value or in a fault that a session contains. -/
def Tame (m : Op α) (w : World) : Prop :=
  match m.outcome w with
  | .ok _ => True
  | .error f => f.isContained

instance (m : Op α) (w : World) : Decidable (m.Ends w) :=
  inferInstanceAs (Decidable (_ = true))

instance (m : Op α) (w : World) : Decidable (m.Tame w) := by
  unfold Tame
  split
  · exact instDecidableTrue
  · exact inferInstanceAs (Decidable (_ = true))

/-! ### Single steps -/

@[simp] theorem outcome_pure (a : α) (w : World) : (pure a : Op α).outcome w = .ok a := rfl

@[simp] theorem after_pure (a : α) (w : World) : (pure a : Op α).after w = w := rfl

@[simp] theorem outcome_throw (f : Fault) (w : World) :
    (throw f : Op α).outcome w = .error f := rfl

@[simp] theorem after_throw (f : Fault) (w : World) : (throw f : Op α).after w = w := rfl

@[simp] theorem outcome_get (w : World) : (get : Op World).outcome w = .ok w := rfl

@[simp] theorem after_get (w : World) : (get : Op World).after w = w := rfl

@[simp] theorem outcome_modify (f : World → World) (w : World) :
    (modify f : Op Unit).outcome w = .ok () := rfl

@[simp] theorem after_modify (f : World → World) (w : World) :
    (modify f : Op Unit).after w = f w := rfl

@[simp] theorem outcome_modifyGet (f : World → α × World) (w : World) :
    (modifyGet f : Op α).outcome w = .ok (f w).1 := rfl

@[simp] theorem after_modifyGet (f : World → α × World) (w : World) :
    (modifyGet f : Op α).after w = (f w).2 := rfl

@[simp] theorem outcome_attempt (m : Op α) (w : World) :
    (attempt m).outcome w = .ok (m.outcome w) := rfl

@[simp] theorem after_attempt (m : Op α) (w : World) : (attempt m).after w = m.after w := rfl

@[simp] theorem outcome_ofExcept (x : Except Fault α) (w : World) :
    (ofExcept x : Op α).outcome w = x := by
  cases x <;> rfl

@[simp] theorem after_ofExcept (x : Except Fault α) (w : World) :
    (ofExcept x : Op α).after w = w := by
  cases x <;> rfl

/-! ### One step after another -/

theorem outcome_bind (m : Op α) (k : α → Op β) (w : World) :
    (m >>= k).outcome w =
      match m.outcome w with
      | .ok a => (k a).outcome (m.after w)
      | .error f => .error f := by
  change (StateT.run (ExceptT.run (m >>= k)) w).1 = _
  simp only [ExceptT.run_bind, StateT.run_bind, outcome, after]
  cases h : StateT.run (ExceptT.run m) w with
  | mk o w' => cases o <;> rfl

theorem after_bind (m : Op α) (k : α → Op β) (w : World) :
    (m >>= k).after w =
      match m.outcome w with
      | .ok a => (k a).after (m.after w)
      | .error _ => m.after w := by
  change (StateT.run (ExceptT.run (m >>= k)) w).2 = _
  simp only [ExceptT.run_bind, StateT.run_bind, outcome, after]
  cases h : StateT.run (ExceptT.run m) w with
  | mk o w' => cases o <;> rfl

/-- The step that follows is decided by the value of the one before. -/
theorem outcome_bind_of_ok {m : Op α} {w : World} {a : α} (h : m.outcome w = .ok a)
    (k : α → Op β) : (m >>= k).outcome w = (k a).outcome (m.after w) := by
  rw [outcome_bind, h]

theorem after_bind_of_ok {m : Op α} {w : World} {a : α} (h : m.outcome w = .ok a)
    (k : α → Op β) : (m >>= k).after w = (k a).after (m.after w) := by
  rw [after_bind, h]

/-- A fault skips all that follows. -/
theorem outcome_bind_of_error {m : Op α} {w : World} {f : Fault} (h : m.outcome w = .error f)
    (k : α → Op β) : (m >>= k).outcome w = .error f := by
  rw [outcome_bind, h]

theorem after_bind_of_error {m : Op α} {w : World} {f : Fault} (h : m.outcome w = .error f)
    (k : α → Op β) : (m >>= k).after w = m.after w := by
  rw [after_bind, h]

theorem outcome_ofExcept_bind (x : Except Fault α) (k : α → Op β) (w : World) :
    (ofExcept x >>= k).outcome w = x >>= fun a => (k a).outcome w := by
  rw [outcome_bind, outcome_ofExcept, after_ofExcept]
  cases x <;> rfl

/-- A value at the end comes from values all along. -/
theorem exists_of_bind_ok {m : Op α} {k : α → Op β} {w : World} {b : β}
    (h : (m >>= k).outcome w = .ok b) :
    ∃ a, m.outcome w = .ok a ∧ (k a).outcome (m.after w) = .ok b ∧
      (m >>= k).after w = (k a).after (m.after w) := by
  cases hm : m.outcome w with
  | error f =>
    rw [outcome_bind_of_error hm] at h
    cases h
  | ok a => exact ⟨a, rfl, (outcome_bind_of_ok hm k).symm.trans h, after_bind_of_ok hm k⟩

@[simp] theorem outcome_get_bind (k : World → Op β) (w : World) :
    (get >>= k).outcome w = (k w).outcome w := rfl

@[simp] theorem after_get_bind (k : World → Op β) (w : World) :
    (get >>= k).after w = (k w).after w := rfl

@[simp] theorem outcome_modify_bind (f : World → World) (k : Unit → Op β) (w : World) :
    ((modify f : Op Unit) >>= k).outcome w = (k ()).outcome (f w) := rfl

@[simp] theorem after_modify_bind (f : World → World) (k : Unit → Op β) (w : World) :
    ((modify f : Op Unit) >>= k).after w = (k ()).after (f w) := rfl

@[simp] theorem outcome_attempt_bind (m : Op α) (k : Except Fault α → Op β) (w : World) :
    (attempt m >>= k).outcome w = (k (m.outcome w)).outcome (m.after w) :=
  outcome_bind_of_ok rfl k

@[simp] theorem after_attempt_bind (m : Op α) (k : Except Fault α → Op β) (w : World) :
    (attempt m >>= k).after w = (k (m.outcome w)).after (m.after w) :=
  after_bind_of_ok rfl k

/-- Where a value is not wanted, only what comes after it matters. -/
theorem discard_bind (m : Op α) (k : PUnit → Op β) :
    (discard m >>= k) = (m >>= fun _ => k ⟨⟩) := by
  change ((fun _ => PUnit.unit) <$> m) >>= k = _
  rw [map_eq_pure_bind, bind_assoc]
  simp only [pure_bind]

theorem after_discard (m : Op α) (w : World) : (discard m).after w = m.after w := by
  change ((fun _ => PUnit.unit) <$> m).after w = _
  rw [map_eq_pure_bind, after_bind]
  cases m.outcome w <;> rfl

/-! ### Ways to end -/

theorem ends_iff {m : Op α} {w : World} : m.Ends w ↔ ∃ a, m.outcome w = .ok a := by
  unfold Ends
  cases m.outcome w with
  | ok a => simp [Except.isOk, Except.toBool]
  | error f => simp [Except.isOk, Except.toBool]

theorem not_ends_of_error {m : Op α} {w : World} {f : Fault} (h : m.outcome w = .error f) :
    ¬ m.Ends w := by
  rw [Ends, h]
  exact Bool.false_ne_true

theorem tame_of_ends {m : Op α} {w : World} (h : m.Ends w) : m.Tame w := by
  obtain ⟨a, ha⟩ := ends_iff.1 h
  rw [Tame, ha]
  trivial

/-- Two steps end in a value if both do. -/
theorem ends_bind_iff {m : Op α} {k : α → Op β} {w : World} :
    (m >>= k).Ends w ↔ ∃ a, m.outcome w = .ok a ∧ (k a).Ends (m.after w) := by
  unfold Ends
  rw [outcome_bind]
  cases m.outcome w with
  | ok a => simp
  | error f => simp [Except.isOk, Except.toBool]

theorem ends_bind_iff_of_ok {m : Op α} {k : α → Op β} {w : World} {a : α}
    (h : m.outcome w = .ok a) : (m >>= k).Ends w ↔ (k a).Ends (m.after w) := by
  rw [Ends, Ends, outcome_bind_of_ok h]

theorem not_ends_bind_of_error {m : Op α} {k : α → Op β} {w : World} {f : Fault}
    (h : m.outcome w = .error f) : ¬ (m >>= k).Ends w :=
  not_ends_of_error (outcome_bind_of_error h k)

/-- A value given back at the end makes no difference to what happens. -/
theorem after_bind_pure (m : Op α) (f : α → β) (w : World) :
    (m >>= fun a => pure (f a) : Op β).after w = m.after w := by
  rw [after_bind]
  cases m.outcome w <;> rfl

theorem ends_bind_pure_iff {m : Op α} {f : α → β} {w : World} :
    Ends (m >>= fun a => pure (f a)) w ↔ m.Ends w := by
  rw [ends_bind_iff]
  exact ⟨fun ⟨a, h, _⟩ => ends_iff.2 ⟨a, h⟩, fun h => (ends_iff.1 h).imp fun _ h => ⟨h, rfl⟩⟩

theorem ends_discard_iff {m : Op α} {w : World} : (discard m).Ends w ↔ m.Ends w := by
  change Ends ((fun _ => PUnit.unit) <$> m) w ↔ _
  rw [map_eq_pure_bind, ends_bind_iff]
  exact ⟨fun ⟨a, h, _⟩ => ends_iff.2 ⟨a, h⟩, fun h => (ends_iff.1 h).imp fun _ h => ⟨h, rfl⟩⟩

/-- Two steps are tame if both are. -/
theorem tame_bind_iff {m : Op α} {k : α → Op β} {w : World} :
    (m >>= k).Tame w ↔ m.Tame w ∧ ∀ a, m.outcome w = .ok a → (k a).Tame (m.after w) := by
  unfold Tame
  rw [outcome_bind]
  cases m.outcome w with
  | ok a => simp
  | error f => simp

end Op

end ScriptHost
