import ScriptHost.Proofs.Admission

/-!
# Hooks in their turn

A phase reads its list anew at every turn: the hook it calls there is the one that has the place of the
turn by then. So it calls the hooks it began with, each once, in order, and no others, exactly where the
list has at every turn what it had in that place when the phase began, and ends there (`fire_inTurn_iff`).
A hook that joins the list is called too, one that leaves it takes the turn of the one behind it, and
one that always joins again is called without end (`not_runsHooks_of_meddlers`). None of this can happen
to listeners, who are told by the list as it was (`after_report`).
-/
namespace ScriptHost.Op

open World

variable {host : Responder} {phase : Phase} {args : List Datum} {w : World}

/-- The world after hooks have been run, one after the other. -/
def afterHooks (host : Responder) (phase : Phase) (args : List Datum) (hooks : List Nat) (w : World) :
    World :=
  hooks.foldl (fun v hook => (runHook host phase args hook).after v) w

/-- The hooks that a phase runs from a position on, so many at most. -/
def hooksRun (host : Responder) (phase : Phase) (args : List Datum) : Nat → Nat → World → List Nat
  | 0, _, _ => []
  | n + 1, i, w =>
    match (w.session.hooks.at phase)[i]? with
    | none => []
    | some hook =>
      hook :: hooksRun host phase args n (i + 1) ((runHook host phase args hook).after w)

/-- What a phase does is to run hooks one after the other, and it never fails. -/
theorem fireFrom_eq (host : Responder) (phase : Phase) (args : List Datum) (n i : Nat) (w : World) :
    (fireFrom host phase args n i).outcome w = .ok () ∧
      (fireFrom host phase args n i).after w =
        afterHooks host phase args (hooksRun host phase args n i w) w := by
  induction n generalizing i w with
  | zero => exact ⟨rfl, rfl⟩
  | succ n ih =>
    rw [fireFrom, outcome_get_bind, after_get_bind, hooksRun]
    cases (w.session.hooks.at phase)[i]? with
    | none => exact ⟨rfl, rfl⟩
    | some hook =>
      obtain ⟨_, hrun⟩ := ends_iff.mp (ends_runHook host phase args hook w)
      dsimp only
      rw [outcome_bind_of_ok hrun, after_bind_of_ok hrun]
      exact ih (i + 1) _

/-- The hooks that a phase runs are those that have their turn's place in the list when it comes. It
stops where the list has no hook for the turn, or at the limit. -/
theorem hooksRun_eq_iff {n i : Nat} {hooks : List Nat} :
    hooksRun host phase args n i w = hooks ↔
      (∀ k hook, hooks[k]? = some hook →
        ((afterHooks host phase args (hooks.take k) w).session.hooks.at phase)[i + k]? = some hook) ∧
      hooks.length ≤ n ∧ (hooks.length < n →
        ((afterHooks host phase args hooks w).session.hooks.at phase)[i + hooks.length]? = none) := by
  induction n generalizing i w hooks with
  | zero =>
    cases hooks <;> simp [hooksRun]
  | succ n ih =>
    rw [hooksRun]
    cases hooks with
    | nil =>
      cases hi : (w.session.hooks.at phase)[i]? <;> simp [afterHooks, hi]
    | cons first rest =>
      cases hi : (w.session.hooks.at phase)[i]? with
      | none =>
        refine iff_of_false nofun fun ⟨hturn, _⟩ => ?_
        have h := hturn 0 first rfl
        rw [List.take_zero, Nat.add_zero] at h
        exact absurd (hi.symm.trans h) nofun
      | some hook =>
        rw [List.cons.injEq, ih]
        constructor
        · rintro ⟨rfl, hturn, hlen, hstop⟩
          refine ⟨fun k other hk => ?_, Nat.succ_le_succ hlen, fun hlt => ?_⟩
          · cases k with
            | zero => exact hi.trans hk
            | succ k => simpa [afterHooks, Nat.add_assoc, Nat.add_comm 1] using hturn k other hk
          · simpa [afterHooks, Nat.add_assoc, Nat.add_comm 1] using
              hstop (Nat.lt_of_succ_lt_succ hlt)
        · rintro ⟨hturn, hlen, hstop⟩
          obtain rfl : hook = first := by simpa [afterHooks, hi] using hturn 0 first rfl
          refine ⟨rfl, fun k other hk => ?_, Nat.le_of_succ_le_succ hlen, fun hlt => ?_⟩
          · simpa [afterHooks, Nat.add_assoc, Nat.add_comm 1] using hturn (k + 1) other hk
          · simpa [afterHooks, Nat.add_assoc, Nat.add_comm 1] using hstop (Nat.succ_lt_succ hlt)

/-- A phase runs certain hooks and comes to an end by itself: no limit makes a difference to it. -/
def RunsHooks (host : Responder) (phase : Phase) (args : List Datum) (w : World) (hooks : List Nat) :
    Prop :=
  ∃ n, ∀ limit, n ≤ limit → hooksRun host phase args limit 0 w = hooks

/-- At every turn, up to the one after the last hook, the list of a phase has in the place of the turn
what it had there when the phase began. -/
def InTurn (host : Responder) (phase : Phase) (args : List Datum) (w : World) : Prop :=
  let hooks := w.session.hooks.at phase
  ∀ i ≤ hooks.length,
    ((afterHooks host phase args (hooks.take i) w).session.hooks.at phase)[i]? = hooks[i]?

theorem hooksRun_self_iff {limit : Nat} (hl : (w.session.hooks.at phase).length < limit) :
    hooksRun host phase args limit 0 w = w.session.hooks.at phase ↔ InTurn host phase args w := by
  rw [hooksRun_eq_iff]
  simp only [Nat.zero_add, hl, hl.le, true_imp_iff, true_and]
  constructor
  · rintro ⟨hturn, hstop⟩ i hi
    rcases hi.lt_or_eq with hi | rfl
    · rw [List.getElem?_eq_getElem hi]
      exact hturn i _ (List.getElem?_eq_getElem hi)
    · rw [List.take_length, hstop, List.getElem?_eq_none le_rfl]
  · intro hturn
    refine ⟨fun k hook hk => ?_, ?_⟩
    · exact (hturn k (List.getElem?_eq_some_iff.mp hk).1.le).trans hk
    · have h := hturn _ le_rfl
      rwa [List.take_length, List.getElem?_eq_none le_rfl] at h

theorem runsHooks_iff :
    RunsHooks host phase args w (w.session.hooks.at phase) ↔ InTurn host phase args w := by
  constructor
  · rintro ⟨n, h⟩
    exact (hooksRun_self_iff (Nat.lt_of_lt_of_le (Nat.lt_succ_self _) (Nat.le_max_right n _))).mp
      (h _ (Nat.le_max_left n _))
  · exact fun h => ⟨_ + 1, fun _ hlimit => (hooksRun_self_iff hlimit).mpr h⟩

/-- Each hook leaves the list of the phase alone in its turn. -/
def LeavesList (host : Responder) (phase : Phase) (args : List Datum) (w : World) : Prop :=
  ∀ before hook, before ++ [hook] <+: w.session.hooks.at phase →
    let v := afterHooks host phase args before w
    ((runHook host phase args hook).after v).session.hooks.at phase = v.session.hooks.at phase

theorem LeavesList.inTurn (h : LeavesList host phase args w) : InTurn host phase args w := by
  have hkept (hooks : List Nat) (hp : hooks <+: w.session.hooks.at phase) :
      (afterHooks host phase args hooks w).session.hooks.at phase = w.session.hooks.at phase := by
    induction hooks using List.reverseRecOn with
    | nil => rfl
    | append_singleton before hook ih =>
      rw [← ih ((List.prefix_append _ _).trans hp), ← h before hook hp, afterHooks,
        List.foldl_concat]
      rfl
  intro i _
  rw [hkept _ (List.take_prefix _ _)]

/-- **Hooks in their turn.** Firing a phase never fails, whatever the hooks do. It comes to an end with
the hooks it began with called, each once, in order and with the arguments of the phase, and no others
called, iff the list has the hook in its place at every turn. Then a phase does just what going through
a copy of the list does, and so it is where every hook leaves the list alone. -/
theorem fire_inTurn_iff (host : Responder) (phase : Phase) (args : List Datum) (w : World) :
    let hooks := w.session.hooks.at phase
    let called := hooksRun host phase args (hookLimit + hooks.length) 0 w
    (fire host phase args).outcome w = .ok () ∧
    (fire host phase args).after w = afterHooks host phase args called w ∧
    (called = hooks ↔ InTurn host phase args w) ∧
    (RunsHooks host phase args w hooks ↔ InTurn host phase args w) ∧
    (InTurn host phase args w →
      (fire host phase args).after w = (hooks.forM (runHook host phase args)).after w) ∧
    (LeavesList host phase args w → InTurn host phase args w) := by
  intro hooks called
  obtain ⟨hends, hafter⟩ := fireFrom_eq host phase args (hookLimit + hooks.length) 0 w
  have hcalled : called = hooks ↔ InTurn host phase args w :=
    hooksRun_self_iff (Nat.lt_add_of_pos_left (Nat.two_pow_pos 32))
  have hfire : (fire host phase args).after w = afterHooks host phase args called w := by
    rw [fire, after_get_bind]
    exact hafter
  refine ⟨?_, hfire, hcalled, runsHooks_iff, fun h => ?_, LeavesList.inTurn⟩
  · rw [fire, outcome_get_bind]
    exact hends
  · rw [hfire, hcalled.mpr h, after_forM fun hook v => ends_runHook host phase args hook v]
    rfl

/-- Hooks that can change the list of a phase: the first lets the second join it, the third leaves it,
the fourth joins it once more, and the last fails. -/
def meddling (loaded : List Nat) : World where
  objects := #[.absent,
    .callable ⟨"function", "<function>", fun _ => Program.request (.addHook .loaded 2), none⟩,
    .callable ⟨"function", "<function>", fun _ => pure .none, none⟩,
    .callable ⟨"function", "<function>", fun _ => Program.request .halt, none⟩,
    .callable ⟨"function", "<function>", fun _ => Program.request (.addHook .loaded 4), none⟩,
    .callable ⟨"function", "<function>", fun _ => throw .noCharacter, none⟩]
  session := { hooks := { loaded } }

/-- A host that also lets its third object leave the list of hooks. -/
def lenient : Responder
  | .halt => do
    modifySession fun s => { s with hooks := { s.hooks with loaded := s.hooks.loaded.erase 3 } }
    return .none
  | q => respond 2 q

/-- A hook that fails takes no turn from the one behind it. -/
theorem fire_inTurn_of_failing :
    InTurn lenient .loaded [] (meddling [5, 2]) ∧ RunsHooks lenient .loaded [] (meddling [5, 2]) [5, 2] ∧
      (fire lenient .loaded []).outcome (meddling [5, 2]) = .ok () := by
  obtain ⟨hends, -, hcalled, hruns, -⟩ := fire_inTurn_iff lenient .loaded [] (meddling [5, 2])
  have h := hcalled.mp (by decide +kernel)
  exact ⟨h, hruns.mpr h, hends⟩

theorem after_runHook_rejoining (hooks : List Nat) (past : Array Deed) :
    (runHook (respond 2) .loaded [] 4).after { meddling hooks with history := past } =
      { meddling (hooks ++ [4]) with history := past.push (.hook .loaded 4) } := rfl

/-- A hook that joins the list once more in each of its turns has another one after it. -/
theorem hooksRun_of_rejoining (n i : Nat) (past : Array Deed) :
    hooksRun (respond 2) .loaded [] n i
      { meddling (List.replicate (i + 1) 4) with history := past } = List.replicate n 4 := by
  induction n generalizing i past with
  | zero => rfl
  | succ n ih =>
    have hi : (({ meddling (List.replicate (i + 1) 4) with history := past } : World).session.hooks.at
        .loaded)[i]? = some 4 := by
      simp [meddling, Hooks.at]
    rw [hooksRun, hi]
    dsimp only
    rw [after_runHook_rejoining, ← List.replicate_succ', ih, List.replicate_succ]

/-- A hook that joins is called, the one behind a hook that leaves is not, and a phase whose hook always
joins again has no end. -/
theorem not_runsHooks_of_meddlers :
    (hooksRun (respond 2) .loaded [] 9 0 (meddling [1]) = [1, 2] ∧
      ¬ RunsHooks (respond 2) .loaded [] (meddling [1]) [1]) ∧
    (hooksRun lenient .loaded [] 9 0 (meddling [3, 2]) = [3] ∧
      ¬ RunsHooks lenient .loaded [] (meddling [3, 2]) [3, 2]) ∧
    ∀ n, hooksRun (respond 2) .loaded [] n 0 (meddling [4]) = List.replicate n 4 := by
  refine ⟨⟨by decide +kernel, fun h => ?_⟩, ⟨by decide +kernel, fun h => ?_⟩,
    fun n => hooksRun_of_rejoining n 0 #[]⟩
  · exact absurd (runsHooks_iff.mp h 1 le_rfl) (by decide +kernel)
  · exact absurd (runsHooks_iff.mp h 1 (by decide)) (by decide +kernel)

end ScriptHost.Op
