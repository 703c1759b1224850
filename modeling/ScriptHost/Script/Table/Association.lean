import ScriptHost.Script.Value

/-!
# Association lists

Keys with values as a list. `lookup_assign_self` and `lookup_assign_of_ne` say what a list answers
after a change, and `lookup_living` that keys without a value can be left out.
-/
namespace ScriptHost.Script

/-- The value of a key, nil where there is none. -/
def lookup (key : Value) : List (Value × Value) → Value
  | [] => .nil
  | (k, v) :: rest => if k = key then v else lookup key rest

/-- Gives a key a value in its place, or at the end where it is new. -/
def assign (key value : Value) : List (Value × Value) → List (Value × Value)
  | [] => [(key, value)]
  | (k, v) :: rest => if k = key then (k, value) :: rest else (k, v) :: assign key value rest

@[simp] theorem lookup_assign_self (key value : Value) (l : List (Value × Value)) :
    lookup key (assign key value l) = value := by
  induction l with
  | nil => simp [assign, lookup]
  | cons e rest ih =>
    by_cases h : e.1 = key <;> simp [assign, lookup, h, ih]

theorem lookup_assign_of_ne {key other : Value} (h : other ≠ key) (value : Value)
    (l : List (Value × Value)) : lookup other (assign key value l) = lookup other l := by
  induction l with
  | nil => simp [assign, lookup, Ne.symm h]
  | cons e rest ih =>
    by_cases hk : e.1 = key
    · simp [assign, lookup, hk, Ne.symm h]
    · by_cases ho : e.1 = other
      · simp [assign, lookup, ho, h]
      · simp [assign, lookup, hk, ho, ih]

theorem lookup_filter_self (key : Value) (l : List (Value × Value)) :
    lookup key (l.filter (·.1 ≠ key)) = .nil := by
  induction l with
  | nil => rfl
  | cons e rest ih =>
    by_cases hk : e.1 = key
    · simp only [List.filter, hk, ne_eq, not_true, decide_false]
      exact ih
    · simp [List.filter, lookup, hk] at ih ⊢
      exact ih

theorem lookup_filter_of_ne {key other : Value} (h : other ≠ key) (l : List (Value × Value)) :
    lookup other (l.filter (·.1 ≠ key)) = lookup other l := by
  induction l with
  | nil => rfl
  | cons e rest ih =>
    by_cases hk : e.1 = key
    · simp [List.filter, lookup, hk, Ne.symm h] at ih ⊢
      exact ih
    · by_cases ho : e.1 = other <;> simp_all [List.filter, lookup]

/-- Leaves out the keys whose value is nil. -/
def living : List (Value × Value) → List (Value × Value)
  | [] => []
  | (k, v) :: rest =>
    if v = .nil then (living rest).filter (·.1 ≠ k) else (k, v) :: living rest

@[simp] theorem lookup_living (key : Value) (l : List (Value × Value)) :
    lookup key (living l) = lookup key l := by
  induction l with
  | nil => rfl
  | cons e rest ih =>
    obtain ⟨k, v⟩ := e
    by_cases hv : v = .nil
    · by_cases hk : k = key
      · subst hk
        simp only [living, lookup, if_true, hv]
        exact lookup_filter_self k _
      · simp only [living, hv, lookup, hk, if_true, if_false]
        rw [lookup_filter_of_ne (Ne.symm hk), ih]
    · by_cases hk : k = key <;> simp [living, hv, lookup, hk, ih]

end ScriptHost.Script
