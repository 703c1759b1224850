import ScriptHost.Proofs.Attachment

/-!
# Signals in step all along

A host at which nothing is done past the books keeps its signals in step with them, wherever foreign
code asks anything and where subscriptions end with a script (`Stretch.steady_run`). What foreign code
finds is what an alarm may ring at: where it never does, a run is the same with it as without it.
-/
namespace ScriptHost

open Files (Path)

/-! ### Hosts -/

/-- Whether a request connects handlers or clears them, or has an event begin or cease, past the
books. -/
def Request.intrudes : Request → Bool
  | connect .. | clearHandlers _ | subscribe _ | unsubscribe _ => true
  | _ => false

namespace Op

open World

/-- How a host answers that refuses to do anything past the books. -/
def sealed (f : Fault) : Nat → Responder :=
  refusing Request.intrudes f

/-- The same, but whoever asks anything in a world that rings is given an answer by others. -/
def watched (rings : World → Bool) (alarm : Responder) (f : Fault) : Nat → Responder
  | 0, q => do if rings (← get) then alarm q else throw .tooDeep
  | n + 1, q => do
    if rings (← get) then alarm q
    else if q.intrudes then throw f
    else answerRequest (watched rings alarm f n) q

/-- What is not refused is answered alike. -/
theorem alike_kept_answer {host host' : Responder}
    (hh : ∀ base, host.Alike (Only (Kept base)) host') (base : World) {q : Request}
    (hq : q.intrudes = false) :
    Alike (Only (Kept base)) (answerRequest host q) (answerRequest host' q) := by
  refine alike_answerRequest (lifeInvariant_kept base).toInvariant.bond (governs_kept hh base)
    (fun _ => (timeless_kept base).restless) fun hm => ?_
  cases q with
  | disconnect signal handler => exact (alike_kept_disconnect base _ _).andNone
  | connect | clearHandlers | subscribe | unsubscribe => cases hq
  | _ => cases hm

/-- Nobody who asks anything finds a world out of step. -/
theorem alike_watched {rings : World → Bool} (hr : ∀ w, w.InStep → rings w = false)
    (alarm : Responder) (f : Fault) (n : Nat) (base : World) :
    (watched rings alarm f n).Alike (Only (Kept base)) (sealed f n) := by
  induction n generalizing base with
  | zero =>
    rintro q w _ ⟨rfl, hw⟩
    unfold watched
    rw [outcome_get_bind, after_get_bind, hr w hw.1]
    exact ⟨rfl, rfl, hw⟩
  | succ n ih =>
    rintro q w _ ⟨rfl, hw⟩
    unfold watched
    rw [outcome_get_bind, after_get_bind, hr w hw.1]
    unfold sealed refusing
    cases hq : q.intrudes with
    | true => exact ⟨rfl, rfl, hw⟩
    | false => exact alike_kept_answer ih base hq w w ⟨rfl, hw⟩

/-- Two operations do the same from a world on. -/
def AgreeAt {α : Type} (m m' : Op α) (w : World) : Prop :=
  m.outcome w = m'.outcome w ∧ m.after w = m'.after w

section

variable {α β : Type} {m m' : Op α} {k k' : α → Op β} {w : World}

theorem AgreeAt.refl (m : Op α) (w : World) : AgreeAt m m w := ⟨rfl, rfl⟩

theorem AgreeAt.trans {m'' : Op α} (h : AgreeAt m m' w) (h' : AgreeAt m' m'' w) : AgreeAt m m'' w :=
  ⟨h.1.trans h'.1, h.2.trans h'.2⟩

theorem AgreeAt.bind (h : AgreeAt m m' w)
    (hk : ∀ a, m.outcome w = .ok a → AgreeAt (k a) (k' a) (m.after w)) :
    AgreeAt (m >>= k) (m' >>= k') w := by
  unfold AgreeAt
  rw [outcome_bind, after_bind, outcome_bind, after_bind, ← h.1, ← h.2]
  cases ho : m.outcome w with
  | error f => exact ⟨rfl, rfl⟩
  | ok a => exact hk a ho

theorem AgreeAt.attempt (h : AgreeAt m m' w) : AgreeAt (Op.attempt m) (Op.attempt m') w :=
  ⟨congrArg Except.ok h.1, h.2⟩

theorem AgreeAt.get {k k' : World → Op α} (h : AgreeAt (k w) (k' w) w) :
    AgreeAt (get >>= k) (get >>= k') w :=
  h

theorem agreeAt_get_bind {k : World → Op α} (h : AgreeAt (k w) m w) : AgreeAt (get >>= k) m w :=
  h

theorem AgreeAt.discard (h : AgreeAt m m' w) :
    AgreeAt (Functor.discard m) (Functor.discard m') w := by
  change AgreeAt ((fun _ => PUnit.unit) <$> m) ((fun _ => PUnit.unit) <$> m') w
  rw [map_eq_pure_bind, map_eq_pure_bind]
  exact h.bind fun _ _ => .refl _ _

theorem agreeAt_request {host host' : Responder} {q : Request} (h : AgreeAt (host q) (host' q) w) :
    AgreeAt (perform host (Program.request q)) (perform host' (Program.request q)) w :=
  (h.attempt.bind fun _ _ => .refl _ _).bind fun _ _ => .refl _ _

theorem agreeAt_order {host host' : Responder} {q : Request} (h : AgreeAt (host q) (host' q) w) :
    AgreeAt (perform host (Program.order q)) (perform host' (Program.order q)) w :=
  (h.attempt.bind fun r _ => by cases r <;> exact .refl _ _).bind fun _ _ => .refl _ _

end

end Op

/-! ### Runs -/

/-- A stretch of a run. -/
inductive Stretch where
  /-- Code of the host. -/
  | code (p : Program Unit)
  /-- An unloading, up to where the subscriptions end. -/
  | leave
  /-- A load that fails, up to where the subscriptions end. -/
  | undo (path : Path)

namespace Stretch

open World Op

/-- What is done in a stretch. -/
def op (host : Responder) : Stretch → Op Unit
  | code p => perform host p
  | leave => do
    takeLeave host
    tell host "OnUnload"
    record .teardown
  | undo path => do
    record (.load path)
    match ← attempt (runScript host path) with
    | .ok _ => return ()
    | .error f =>
      report host f .error
      record .teardown

/-- Stretches one after the other, however each of them ends. -/
def run (host : Responder) (ss : List Stretch) : Op Unit :=
  ss.forM fun s => discard (attempt (s.op host))

theorem alike_run {R : World → World → Prop} {host host' : Responder} (B : LifeBond R)
    (hm : Minds R host host') (ss : List Stretch) : Op.Alike R (run host ss) (run host' ss) := by
  refine alike_forM (fun s => Alike.discard (Alike.attempt ?_)) ss
  cases s with
  | code p => exact alike_perform hm.answers p
  | leave =>
    refine Alike.bind ((alike_record B rfl).bind fun _ => alike_fire B hm.answers _ _) fun _ => ?_
    exact (alike_tell B hm.answers _ fun _ _ => trivial).bind fun _ => alike_record B rfl
  | undo path =>
    refine (alike_record B rfl).bind fun _ => (alike_runScript B hm path).attempt.bind fun r => ?_
    cases r with
    | ok _ => exact alike_pure _
    | error f => exact (alike_report B.toBond hm.answers f _ trivial).bind fun _ => alike_record B rfl

/-- **Signals stay in step with the books.** From a world in which nothing has been subscribed on,
let a run be as it would be if nobody could do anything past the books. Then wherever foreign code
asks anything, and at its end, the handlers of each signal are the events that scripts listen to, each
once and in the order they began, and no subscription fails where it begins or ends, as long as all
known events forward signals. -/
theorem steady_run {n : Nat} {f : Fault} {ss : List Stretch} {w : World}
    (hbooks : w.eventBooks = {}) (hsignals : ∀ x ∈ w.signals.entries, x.2 = [])
    (hseal : AgreeAt (run (sealed f n) ss) (run (respond n) ss) w) :
    (((run (respond n) ss).after w).Signalled → ((run (respond n) ss).after w).Steady) ∧
      ∀ rings alarm, (∀ u : World, (u.Signalled → u.Steady) → rings u = false) →
        AgreeAt (run (watched rings alarm f n) ss) (run (respond n) ss) w := by
  have hw : w.InStep := inStep_of_unused hbooks hsignals
  have hrun : ∀ rings alarm, (∀ u : World, (u.Signalled → u.Steady) → rings u = false) →
      AgreeAt (run (watched rings alarm f n) ss) (run (sealed f n) ss) w ∧
        ((run (sealed f n) ss).after w).InStep := by
    intro rings alarm hr
    have hhost := alike_watched (fun u hu => hr u (steady_of_inStep hu)) alarm f n
    have hgov := governs_kept hhost w
    obtain ⟨ho, he, hk⟩ := alike_run (lifeInvariant_kept w).lifeBond
      ⟨hhost w, hgov.discover, hgov.unsubscribeAll⟩ ss w w ⟨rfl, hw.kept⟩
    exact ⟨⟨ho, he⟩, he ▸ hk.1⟩
  refine ⟨fun hsig => ?_, fun rings alarm hr => ?_⟩
  · have hin := (hrun (fun _ => false) (sealed f n) fun _ _ => rfl).2
    rw [hseal.2] at hin
    exact steady_of_inStep hin hsig
  · obtain ⟨⟨ho, ha⟩, -⟩ := hrun rings alarm hr
    exact ⟨ho.trans hseal.1, ha.trans hseal.2⟩

end Stretch

/-! ### A run in step -/

namespace Op

open World

variable {w : World} {host host' : Responder}

/-- Events that are made without asking anything are discovered alike. -/
theorem agreeAt_discover (h : ∀ x ∈ w.catalog.events.entries, ∃ d, x.2 = pure d) :
    AgreeAt (discover host) (discover host') w := by
  have hall : ∀ offers : List (String × EventFactory), (∀ x ∈ offers, ∃ d, x.2 = pure d) →
      (offers.mapM fun x => discoverOne host x.1 x.2) =
        offers.mapM fun x => discoverOne host' x.1 x.2 := by
    intro offers ho
    induction offers with
    | nil => rfl
    | cons x offers ih =>
      obtain ⟨d, hd⟩ := ho x (by simp)
      have hx : discoverOne host x.1 x.2 = discoverOne host' x.1 x.2 := by
        rw [hd]
        rfl
      rw [List.mapM_cons, List.mapM_cons, ih fun y hy => ho y (by simp [hy])]
      exact congrArg (· >>= _) hx
  unfold discover AgreeAt
  simp only [outcome_get_bind, after_get_bind]
  have hsame := congrArg (fun m => (do return (← m).count true : Op Nat)) (hall _ h)
  exact ⟨congrArg (·.outcome w) hsame, congrArg (·.after w) hsame⟩

theorem agreeAt_listenTo (h : w.InStep) (hsig : w.Signalled) {name : String}
    (ho : (listen host name).outcome w = .ok ()) :
    AgreeAt (listenTo host [.text name]) (listenTo host' [.text name]) w := by
  obtain ⟨r, v, hv, -⟩ := exists_listen h hsig name
  have hl : AgreeAt (listen host name) (listen host' name) w :=
    ⟨(hv host).1.trans (hv host').1.symm, (hv host).2.trans (hv host').2.symm⟩
  refine AgreeAt.get (AgreeAt.bind (m := attempt (listen host name)) hl.attempt fun r hr => ?_)
  rw [outcome_attempt, ho] at hr
  cases hr
  exact .refl _ _

end Op

namespace Stretch

open World Op

theorem agreeAt_run_cons {w : World} {host host' : Responder} {s : Stretch} {ss : List Stretch}
    (h : AgreeAt (s.op host) (s.op host') w)
    (hs : AgreeAt (run host ss) (run host' ss) ((s.op host).after w)) :
    AgreeAt (run host (s :: ss)) (run host' (s :: ss)) w :=
  (h.attempt.bind fun _ _ => .refl _ _).bind fun _ _ => hs

/-- A world with two events on one signal. -/
def paired : World where
  signals := ⟨[("s", [])]⟩
  catalog :=
    { events := ⟨["t", "u"].map fun name => (name, pure ⟨name, .signal "s" name fun _ _ => pure ()⟩)⟩ }

/-- The host makes the events known and listens to both, the second first. -/
def calls : List Stretch :=
  [.code (Program.order .discover), .code (Program.order (.listenTo [.text "u"])),
    .code (Program.order (.listenTo [.text "t"]))]

theorem agreeAt_calls :
    AgreeAt (run (sealed .tooDeep 3) calls) (run (respond 3) calls) paired := by
  refine agreeAt_run_cons (agreeAt_order ((agreeAt_discover ?_).bind fun _ _ => .refl _ _)) ?_
  · simp [paired]
  set w₁ := ((code (Program.order .discover)).op (sealed .tooDeep 3)).after paired
  have h₁ : w₁.InStep ∧ w₁.Signalled ∧ (listen (sealed .tooDeep 2) "u").outcome w₁ = .ok () := by
    refine ⟨inStep_of_signals ?_ ?_ ?_ ?_ ?_, ?_, ?_⟩ <;> decide +kernel
  obtain ⟨hin₁, hsig₁, ho₁⟩ := h₁
  refine agreeAt_run_cons
    (agreeAt_order ((agreeAt_listenTo hin₁ hsig₁ ho₁).bind fun _ _ => .refl _ _)) ?_
  set w₂ := ((code (Program.order (.listenTo [.text "u"]))).op (sealed .tooDeep 3)).after w₁
  have h₂ : w₂.InStep ∧ w₂.Signalled ∧ (listen (sealed .tooDeep 2) "t").outcome w₂ = .ok () := by
    refine ⟨inStep_of_signals ?_ ?_ ?_ ?_ ?_, ?_, ?_⟩ <;> decide +kernel
  obtain ⟨hin₂, hsig₂, ho₂⟩ := h₂
  exact agreeAt_run_cons
    (agreeAt_order ((agreeAt_listenTo hin₂ hsig₂ ho₂).bind fun _ _ => .refl _ _)) (.refl _ _)

/-- Whether the handlers of some signal are not what they should be. -/
def astray (w : World) : Bool :=
  decide w.Signalled && w.signals.names.any fun signal =>
    w.signals.find? signal ≠ some (w.attached signal)

theorem astray_of_steady {w : World} (h : w.Signalled → w.Steady) : astray w = false := by
  by_contra hne
  simp only [astray, Bool.not_eq_false, Bool.and_eq_true, decide_eq_true_eq, List.any_eq_true] at hne
  obtain ⟨hsig, signal, hm, hne⟩ := hne
  obtain ⟨hs, hf⟩ := Option.isSome_iff_exists.1 (Roster.contains_iff.2 hm)
  exact hne (by rw [hf, (h hsig).handlers hf])

/-- Both events are connected, in the order they began, and nobody finds the signal astray. -/
theorem steady_run_of_paired :
    let v := (run (respond 3) calls).after paired
    v.Signalled ∧ v.signals.find? "s" = some [.event 1, .event 0] ∧ v.Steady ∧
      AgreeAt (run (watched astray (fun _ => throw .tooDeep) .tooDeep 3) calls)
        (run (respond 3) calls) paired := by
  intro v
  obtain ⟨hsteady, halarm⟩ := steady_run (n := 3) (f := .tooDeep) (w := paired) rfl
    (by decide) agreeAt_calls
  have h : v.Signalled ∧ v.signals.find? "s" = some [.event 1, .event 0] := by decide +kernel
  exact ⟨h.1, h.2, hsteady h.1, halarm astray _ fun u hu => astray_of_steady hu⟩

end Stretch

end ScriptHost
