import ScriptHost.Proofs.Containment
import ScriptHost.Proofs.Invariants

/-!
# What calls into the script report

Whatever foreign code does, the log only gets longer (`logs_respond`), so what an operation reports
is what it adds. A call of a global of the script breaks off just when the global cannot be looked up
(`ends_callFunction_iff`), and reports one failed call of its own just when the global is a function
and calling it fails (`reports_callFunction`).
-/
namespace ScriptHost

namespace World

/-- A log goes on like the one of `base`. -/
def Logged (base w : World) : Prop :=
  base.log.toList <+: w.log.toList

theorem free_logged (base : World) : Free (Logged base) where
  apart h hv := by
    rw [Logged, hv.log]
    exact h
  log e _ h := h.trans (by simp)
  clock _ h := h
  queue _ h := h
  session _ h := h
  record _ h := h
  quiet _ h := h
  signals _ _ h := h
  forget h := h
  discovered _ h := h
  welcome _ _ h := h
  active _ h := h

end World

namespace Op

open World

variable {α β : Type} {host : Responder}

/-- The log only gets longer, and what happens does not hang on the rest of it. -/
def Logs (m : Op α) : Prop :=
  ∀ base, Alike (Only (Logged base)) m m

theorem Logs.prefix_log {m : Op α} (hm : m.Logs) (w : World) :
    w.log.toList <+: (m.after w).log.toList :=
  (hm w w w ⟨rfl, List.prefix_rfl⟩).2.2

theorem bond_logged (base : World) : Bond (Only (Logged base)) :=
  (free_logged base).toInvariant.bond

/-- The log only gets longer, whatever foreign code asks and does with it. -/
theorem logs_respond (n : Nat) (base : World) :
    (respond n).Alike (Only (Logged base)) (respond n) :=
  alike_free_respond (free_logged base).bond n

/-! ### Reports -/

/-- The faults that an operation reports. -/
def reports (m : Op α) (w : World) : List Fault :=
  ((m.after w).log.toList.drop w.log.size).filterMap LogEntry.fault

/-- Steps report one after the other. -/
theorem reports_bind_of_ok {m : Op α} {k : α → Op β} {w : World} {a : α} (hm : m.Logs)
    (hk : (k a).Logs) (h : m.outcome w = .ok a) :
    (m >>= k).reports w = m.reports w ++ (k a).reports (m.after w) := by
  obtain ⟨es, he⟩ := hm.prefix_log w
  obtain ⟨fs, hf⟩ := hk.prefix_log (m.after w)
  have hl : (m.after w).log.size = w.log.size + es.length := by
    rw [← Array.length_toList, ← he, List.length_append, Array.length_toList]
  have h₁ : (m.after w).log.toList.drop w.log.size = es := by
    rw [← he, List.drop_left' (by simp)]
  have h₂ : ((k a).after (m.after w)).log.toList.drop (m.after w).log.size = fs := by
    rw [← hf, List.drop_left' (by simp)]
  have h₃ : ((k a).after (m.after w)).log.toList.drop w.log.size = es ++ fs := by
    rw [← hf, ← he, List.append_assoc, List.drop_left' (by simp)]
  rw [reports, reports, reports, after_bind_of_ok h, h₁, h₂, h₃, List.filterMap_append]

/-- What is reported shows in the world that is left. -/
theorem reports_congr {m : Op α} {m' : Op β} {w : World} (h : m.after w = m'.after w) :
    m.reports w = m'.reports w := by
  rw [reports, reports, h]

theorem reports_pure (a : α) (w : World) : (pure a : Op α).reports w = [] := by
  rw [reports, after_pure, List.drop_eq_nil_of_le (by simp)]
  rfl

theorem reports_log (level : LogLevel) (logger text : String) (fault : Option Fault) (w : World) :
    (log level logger text fault).reports w = fault.toList := by
  change ((w.log.push _).toList.drop w.log.size).filterMap LogEntry.fault = _
  rw [Array.toList_push, List.drop_left' (by simp)]
  cases fault <;> rfl

/-- Tells all listeners of a fault. -/
def hear (host : Responder) (f : Fault) : Op Unit := do
  let listeners := (← get).session.listeners
  if !listeners.isEmpty then
    let place ← newObject (.fault f)
    listeners.forM fun listener => do
      match ← attempt (callObject host listener [.object place]) with
      | .ok _ => return ()
      | .error _ => error "luahost.dispatch" "on_error listener failed"

theorem report_eq (host : Responder) (f : Fault) (level : LogLevel) :
    report host f level = (do
      log level "luahost.dispatch" f.message (some f)
      hear host f) :=
  rfl

/-- The world in which listeners hear of a fault. -/
def logged (f : Fault) (level : LogLevel) (w : World) : World :=
  { w with log := w.log.push ⟨level, "luahost.dispatch", f.message, some f⟩ }

/-! ### Calls of globals -/

section

variable (n : Nat)

theorem logs_report (f : Fault) (level : LogLevel) : (report (respond n) f level).Logs :=
  fun base => alike_report (bond_logged base) (logs_respond n base) f level trivial

theorem logs_callWith (home : Nat) (v : Datum) (args : List Datum) :
    (callWith (respond n) home v args).Logs :=
  fun base => alike_callWith (bond_logged base) (logs_respond n base) home v args

theorem logs_lookUp (home : Nat) (name : Datum) : (lookUp (respond n) home name).Logs :=
  fun base => alike_lookUp (bond_logged base) (logs_respond n base) home name

theorem logs_callFound (home : Nat) (shown : String) (v : Datum) (args : List Datum) :
    (callFound (respond n) home shown v args).Logs :=
  fun base => alike_callFound (bond_logged base) (logs_respond n base) home shown v args
    fun _ _ => trivial

/-- A report is the fault itself, and what listeners report when they hear of it. -/
theorem reports_report (f : Fault) (level : LogLevel) (w : World) :
    (report (respond n) f level).reports w =
      f :: (hear (respond n) f).reports (logged f level w) := by
  have hear_logs : (hear (respond n) f).Logs := by
    intro base
    have B := (bond_logged base)
    refine alike_get B (fun _ => rfl) fun w => .ite ?_ (alike_pure _)
    refine (alike_newObject B _).bind fun place => alike_forM (fun listener => ?_) _
    refine (alike_callObject B (logs_respond n base) listener _).attempt.bind fun r => ?_
    cases r with
    | ok _ => exact alike_pure _
    | error _ => exact alike_log B _ _ _
  have log_logs : (log level "luahost.dispatch" f.message (some f)).Logs := fun base =>
    alike_log_fault (bond_logged base) _ _ _ _ fun _ _ => trivial
  rw [report_eq, reports_bind_of_ok log_logs hear_logs rfl]
  rw [reports_log]
  rfl

/-- What is reported of calling what an environment has under a name, apart from looking it up. -/
def callReports (host : Responder) (home : Nat) (shown : String) (v : Datum) (args : List Datum)
    (w : World) : List Fault :=
  let call := callWith host home v args
  if (isCallable v).outcome w = .ok true then
    call.reports w ++
      match call.outcome w with
      | .ok _ => []
      | .error f =>
        .callFailed shown f ::
          (hear host (.callFailed shown f)).reports
            (logged (.callFailed shown f) .error (call.after w))
  else []

theorem reports_callFound (home : Nat) (shown : String) (v : Datum) (args : List Datum)
    (w : World) :
    (callFound (respond n) home shown v args).reports w =
      callReports (respond n) home shown v args w := by
  have found : ∃ b, (isCallable v).outcome w = .ok b ∧ (isCallable v).after w = w := by
    unfold isCallable
    split <;> exact ⟨_, rfl, rfl⟩
  obtain ⟨b, hb, hw⟩ := found
  have call : (attempt (callWith (respond n) home v args)).Logs := fun base =>
    (logs_callWith n home v args base).attempt
  unfold callReports
  cases b with
  | false =>
    have ha : (callFound (respond n) home shown v args).after w = (skipCall shown).after w := by
      rw [callFound, after_bind_of_ok hb, hw]
      rfl
    rw [reports_congr ha, hb, if_neg (by simp)]
    exact reports_log _ _ _ none w
  | true =>
    have ha : (callFound (respond n) home shown v args).after w = (do
        match ← attempt (callWith (respond n) home v args) with
        | .ok _ => return ()
        | .error fault => report (respond n) (.callFailed shown fault) .error : Op Unit).after w := by
      rw [callFound, after_bind_of_ok hb, hw]
      rfl
    rw [reports_congr ha, hb, if_pos rfl]
    cases hc : (callWith (respond n) home v args).outcome w with
    | ok d =>
      have ho : (attempt (callWith (respond n) home v args)).outcome w = .ok (.ok d) := by
        rw [outcome_attempt, hc]
      rw [reports_bind_of_ok call (fun base => alike_pure ()) ho, reports_pure]
      rfl
    | error f =>
      have ho : (attempt (callWith (respond n) home v args)).outcome w = .ok (.error f) := by
        rw [outcome_attempt, hc]
      rw [reports_bind_of_ok call (logs_report n _ _) ho, reports_report]
      rfl

/-- The name of a global can be looked up. -/
def CanLookUp (host : Responder) (name : Datum) (w : World) : Prop :=
  ∀ home, w.session.environment = some home → (lookUp host home name).Ends w

/-- A call of a global breaks off just when the global cannot be looked up. -/
theorem ends_callFunction_iff (host : Responder) (name : Datum) (args : List Datum) (w : World) :
    (callFunction host name args).Ends w ↔ CanLookUp host name w := by
  unfold callFunction CanLookUp Ends
  rw [outcome_get_bind]
  cases w.session.environment with
  | none => exact iff_of_true rfl nofun
  | some home =>
    constructor
    · intro h other hother
      obtain rfl := Option.some.inj hother
      obtain ⟨f, hf, _⟩ := ends_bind_iff.1 h
      exact ends_iff.2 ⟨f, hf⟩
    · intro h
      obtain ⟨f, hf⟩ := ends_iff.1 (h home rfl)
      exact ends_bind_iff.2 ⟨f, hf, ends_callFound _ _ _ _ _⟩

/-- **A call of a global is contained.** It breaks off just when the global cannot be looked up.
Otherwise it reports nothing without an environment or if the global is no function, and if it is
one, what the call itself reports and then exactly one failed call, just when making the arguments
ready or calling fails. -/
theorem callFunction_contained_iff (name : Datum) (args : List Datum) (w : World) :
    ((callFunction (respond n) name args).Ends w ↔ CanLookUp (respond n) name w) ∧
      (w.session.environment = none → (callFunction (respond n) name args).reports w = []) ∧
      ∀ home v, w.session.environment = some home →
        (lookUp (respond n) home name).outcome w = .ok v →
        (callFunction (respond n) name args).reports w =
          (lookUp (respond n) home name).reports w ++
            callReports (respond n) home (w.shown name) v args
              ((lookUp (respond n) home name).after w) := by
  refine ⟨ends_callFunction_iff _ _ _ _, fun hn => ?_, fun home v hs hv => ?_⟩
  · have ha : (callFunction (respond n) name args).after w = (skipCall (w.shown name)).after w := by
      rw [callFunction, after_get_bind]
      simp only [hn]
    rw [reports_congr ha]
    exact reports_log _ _ _ none w
  · have ha : (callFunction (respond n) name args).after w = (do
        callFound (respond n) home (w.shown name) (← lookUp (respond n) home name) args :
          Op Unit).after w := by
      rw [callFunction, after_get_bind]
      simp only [hs]
    rw [reports_congr ha, reports_bind_of_ok (logs_lookUp n home name)
      (logs_callFound n home _ v args) hv, reports_callFound]

end

/-- A world with one script, whose function calls what is not there. -/
def failing : World where
  files := (default : Files.Node).put (.file (Text.encode "function f() g() end")) ["a.lua"]

/-- A function that fails does not break the call off, and is reported once. -/
theorem callFunction_contained_of_failing :
    let w := (load (respond 5) (.text "a.lua")).after failing
    (callFunction (respond 5) (.text "f") []).Ends w ∧
      (callFunction (respond 5) (.text "f") []).reports w =
        [.callFailed "f" (.script "[string \"<python>\"]:1: attempt to call a nil value (global 'g')")] := by
  intro w
  have hs : w.session.environment = some 0 := by decide +kernel
  have hv : (lookUp (respond 5) 0 (.text "f")).outcome w = .ok (.script 0 (.function 1)) := by
    decide +kernel
  obtain ⟨hends, -, hreports⟩ := callFunction_contained_iff 5 (.text "f") [] w
  refine ⟨hends.2 fun home h => ?_, ?_⟩
  · obtain rfl := Option.some.inj (hs.symm.trans h)
    exact ends_iff.2 ⟨_, hv⟩
  · rw [hreports 0 _ hs hv]
    decide +kernel

/-- A world with one script, whose global is a text that is not well-formed. -/
def mangled : World where
  files := (default : Files.Node).put (.file (Text.encode "x = '\\xff'")) ["a.lua"]

/-- What the script has left under the name cannot become a value of the host, and the call breaks
off. -/
theorem not_contained_callFunction_of_mangled :
    (load (respond 5) (.text "a.lua")).outcome mangled = .ok true ∧
      ¬ (callFunction (respond 5) (.text "x") []).Ends
        ((load (respond 5) (.text "a.lua")).after mangled) := by
  refine ⟨?_, ?_⟩ <;> decide +kernel

end Op

end ScriptHost
