import Mathlib.Data.List.Infix
import ScriptHost.Session.Lifecycle
import ScriptHost.Proofs.Subscriptions

/-!
# The steps of loading and unloading

What each step of a load or an unloading does itself, in whatever world it is taken, and when it
ends in a value. Hooks and reports never fail; telling a script fails if what it is told by cannot
be looked up.
-/
namespace ScriptHost.Op

open World
open Files (Path)

variable {α β : Type}

/-- An operation has certain deeds of its own. -/
def Does (m : Op α) (w : World) (own : List Deed) : Prop :=
  ∃ ds, Leads w own ds (m.after w)

theorem Follows.does {m : Op α} (h : m.Follows) (w : World) : m.Does w [] :=
  h w

theorem Does.bind_of_ok {m : Op α} {k : α → Op β} {w : World} {a : α} {own own' : List Deed}
    (h : m.outcome w = .ok a) (hm : m.Does w own) (hk : (k a).Does (m.after w) own') :
    (m >>= k).Does w (own ++ own') := by
  obtain ⟨ds, hm⟩ := hm
  obtain ⟨es, hk⟩ := hk
  rw [Does, after_bind_of_ok h]
  exact ⟨ds ++ es, hm.trans hk⟩

theorem Does.bind_of_error {m : Op α} {k : α → Op β} {w : World} {f : Fault} {own : List Deed}
    (h : m.outcome w = .error f) (hm : m.Does w own) : (m >>= k).Does w own := by
  rw [Does, after_bind_of_error h]
  exact hm

/-- What an operation adds to the history. -/
def deeds (m : Op α) (w : World) : List Deed :=
  (m.after w).history.toList.drop w.history.size

theorem Does.leads {m : Op α} {w : World} {own : List Deed} (h : m.Does w own) :
    Leads w own (m.deeds w) (m.after w) := by
  obtain ⟨ds, h⟩ := h
  have hd : m.deeds w = ds := h.deeds_eq.symm
  rw [hd]
  exact h

theorem deeds_bind {m : Op α} {k : α → Op β} {w : World} {a : α} {own own' : List Deed}
    (h : m.outcome w = .ok a) (hm : m.Does w own) (hk : (k a).Does (m.after w) own') :
    (m >>= k).deeds w = m.deeds w ++ (k a).deeds (m.after w) := by
  have hl := hm.leads.trans hk.leads
  rw [deeds, after_bind_of_ok h]
  exact hl.deeds_eq.symm

/-- An operation has certain deeds of its own, the first before all that happens. -/
def Begins (m : Op α) (w : World) (d : Deed) (own : List Deed) : Prop :=
  ∃ ds, Leads w (d :: own) (d :: ds) (m.after w) ∧ Woven own ds

theorem Begins.bind_of_ok {m : Op α} {k : α → Op β} {w : World} {a : α} {d : Deed}
    {own own' : List Deed} (h : m.outcome w = .ok a) (hm : m.Begins w d own)
    (hk : (k a).Does (m.after w) own') : (m >>= k).Begins w d (own ++ own') := by
  obtain ⟨ds, hm, hw⟩ := hm
  obtain ⟨es, hk⟩ := hk
  rw [Begins, after_bind_of_ok h]
  exact ⟨ds ++ es, hm.trans hk, hw.append hk.woven⟩

theorem Begins.leads {m : Op α} {w : World} {d : Deed} {own : List Deed} (h : m.Begins w d own) :
    m.Does w (d :: own) := by
  obtain ⟨ds, h, _⟩ := h
  exact ⟨_, h⟩

/-- To those around it, what an operation does itself is a block. -/
theorem Begins.does {m : Op α} {w : World} {d : Deed} {own : List Deed} (h : m.Begins w d own)
    (hb : Block (d :: own)) (hnew : ∀ home, .occupy home ∈ d :: own → w.homes.size ≤ home) :
    m.Does w [] := by
  obtain ⟨ds, h, hw⟩ := h
  exact ⟨d :: ds, h.block hb hw hnew⟩

theorem Does.grown {m : Op α} {w : World} {own : List Deed} (h : m.Does w own) :
    Grown w (m.after w) :=
  h.choose_spec.grown

/-- A deed is entered that makes nothing else of the session. -/
theorem does_record (w : World) {d : Deed} (hd : d.isQuiet = false)
    (hs : w.session.holding.step d = w.session.holding) (ha : w.session.holding.Admits d)
    (hn : ∀ home, d ≠ .occupy home := by intro _ h; cases h) : (record d).Does w [d] :=
  ⟨_, leads_enter w w.session d hd rfl hs.symm ha fun home h => absurd h (hn home)⟩

theorem begins_record (w : World) {d : Deed} (hd : d.isQuiet = false)
    (hs : w.session.holding.step d = w.session.holding) (ha : w.session.holding.Admits d)
    (hn : ∀ home, d ≠ .occupy home := by intro _ h; cases h) : (record d).Begins w d [] :=
  ⟨[], leads_enter w w.session d hd rfl hs.symm ha fun home h => absurd h (hn home), .nil⟩

section

variable {host : Responder}

/-! ### Reports -/

theorem ends_forM {f : α → Op PUnit} (hf : ∀ a w, (f a).Ends w) (xs : List α) (w : World) :
    (xs.forM f).Ends w := by
  induction xs generalizing w with
  | nil => rfl
  | cons a xs ih =>
    obtain ⟨u, hu⟩ := ends_iff.1 (hf a w)
    exact ends_bind_iff.2 ⟨u, hu, ih _⟩

/-- A report never fails, whatever the listeners do. -/
theorem ends_report (host : Responder) (f : Fault) (level : LogLevel) (w : World) :
    (report host f level).Ends w := by
  unfold report
  refine ends_bind_iff.2 ⟨(), rfl, ?_⟩
  refine ends_bind_iff.2 ⟨_, rfl, ?_⟩
  dsimp only
  split
  · refine ends_bind_iff.2 ⟨_, rfl, ends_forM (fun listener w => ?_) _ _⟩
    unfold Ends
    rw [outcome_attempt_bind]
    cases (callObject host listener _).outcome w <;> rfl
  · rfl

theorem follows_report (hh : host.Follows) (f : Fault) (level : LogLevel) :
    (report host f level).Follows := by
  refine (follows_log _ _ _ _).bind fun _ => follows_get.bind fun w => .ite ?_ (follows_pure _)
  refine (follows_newObject _).bind fun place => ?_
  refine follows_forM (fun listener => (follows_callObject hh _ _).attempt.bind fun r => ?_) _
  cases r with
  | ok _ => exact follows_pure _
  | error _ => exact follows_log _ _ _ _

/-! ### Hooks -/

theorem ends_runHook (host : Responder) (phase : Phase) (args : List Datum) (hook : Nat)
    (w : World) : (runHook host phase args hook).Ends w := by
  refine ends_bind_iff.2 ⟨(), rfl, ?_⟩
  unfold Ends
  rw [outcome_attempt_bind]
  cases (callObject host hook args).outcome _ <;> rfl

/-- Hooks never fail, whatever they do. -/
theorem ends_fire (phase : Phase) (args : List Datum) (w : World) :
    (fire host phase args).Ends w := by
  have from_ends : ∀ n i w, (fireFrom host phase args n i).Ends w := by
    intro n
    induction n with
    | zero => exact fun _ _ => rfl
    | succ n ih =>
      intro i w
      unfold fireFrom
      refine ends_bind_iff.2 ⟨w, rfl, ?_⟩
      split
      · rfl
      · obtain ⟨u, hu⟩ := ends_iff.1 (ends_runHook host phase args _ w)
        exact ends_bind_iff.2 ⟨u, hu, ih _ _⟩
  exact ends_bind_iff.2 ⟨w, rfl, from_ends _ _ _⟩

theorem does_runHook (hh : host.Follows) (phase : Phase) (args : List Datum) (hook : Nat)
    (w : World) : (runHook host phase args hook).Does w [.hook phase hook] := by
  have first : (record (.hook phase hook)).Does w [.hook phase hook] :=
    does_record w rfl rfl trivial
  refine first.bind_of_ok rfl (Follows.does ?_ _)
  refine (follows_callObject hh _ _).attempt.bind fun r => ?_
  cases r with
  | ok _ => exact follows_pure _
  | error _ => exact follows_get.bind fun _ => follows_log _ _ _ _

/-- The hooks of a phase are run in order from a position on, those that join meanwhile too. -/
theorem does_fireFrom (hh : host.Follows) (phase : Phase) (args : List Datum) (n i : Nat)
    (w : World) :
    ∃ hooks, (fireFrom host phase args n i).Does w (hooks.map (.hook phase)) ∧
      ((w.session.hooks.at phase).drop i).take n <+: hooks ∧
      hooks <+: (((fireFrom host phase args n i).after w).session.hooks.at phase).drop i := by
  induction n generalizing i w with
  | zero => exact ⟨[], (follows_pure ()).does w, by simp, List.nil_prefix⟩
  | succ n ih =>
    cases hi : (w.session.hooks.at phase)[i]? with
    | none =>
      have ha : (fireFrom host phase args (n + 1) i).after w = w := by
        rw [fireFrom, after_get_bind]
        simp only [hi, after_pure]
      refine ⟨[], ⟨[], by rw [ha]; exact .refl w⟩, ?_, List.nil_prefix⟩
      rw [List.drop_eq_nil_of_le (List.getElem?_eq_none_iff.1 hi)]
      simp
    | some hook =>
      obtain ⟨hl, hg⟩ := List.getElem?_eq_some_iff.1 hi
      have hd : (w.session.hooks.at phase).drop i =
          hook :: (w.session.hooks.at phase).drop (i + 1) := by
        rw [List.drop_eq_getElem_cons hl, hg]
      let w₁ := (runHook host phase args hook).after w
      have hrun := does_runHook hh phase args hook w
      obtain ⟨u, hu⟩ := ends_iff.1 (ends_runHook host phase args hook w)
      obtain ⟨hooks, hdoes, hall, honly⟩ := ih (i + 1) w₁
      have ha : (fireFrom host phase args (n + 1) i).after w =
          (fireFrom host phase args n (i + 1)).after w₁ := by
        rw [fireFrom, after_get_bind]
        simp only [hi]
        exact after_bind_of_ok hu _
      have hgrown : (w.session.hooks.at phase) <+: w₁.session.hooks.at phase :=
        hrun.grown.hooks phase
      have hgrown' := hdoes.grown.hooks phase
      refine ⟨hook :: hooks, ?_, ?_, ?_⟩
      · obtain ⟨ds, hrun⟩ := hrun
        obtain ⟨es, hdoes⟩ := hdoes
        rw [Does, ha]
        exact ⟨_, hrun.trans hdoes⟩
      · rw [hd, List.take_succ_cons, List.cons_prefix_cons]
        exact ⟨rfl, ((hgrown.drop (i + 1)).take n).trans hall⟩
      · have hlong := hgrown.trans hgrown'
        rw [ha, List.drop_eq_getElem_cons (Nat.lt_of_lt_of_le hl hlong.length_le),
          List.cons_prefix_cons, ← hlong.getElem hl, hg]
        exact ⟨rfl, honly⟩

/-- A phase runs the hooks it has when it begins, and others only if they join it meanwhile. -/
theorem does_fire (hh : host.Follows) (phase : Phase) (args : List Datum) (w : World) :
    ∃ hooks, (fire host phase args).Does w (hooks.map (.hook phase)) ∧
      w.session.hooks.at phase <+: hooks ∧
      hooks <+: ((fire host phase args).after w).session.hooks.at phase := by
  have ha : (fire host phase args).after w =
      (fireFrom host phase args (hookLimit + (w.session.hooks.at phase).length) 0).after w := by
    unfold fire
    rw [after_get_bind]
  obtain ⟨hooks, hdoes, hall, honly⟩ :=
    does_fireFrom hh phase args (hookLimit + (w.session.hooks.at phase).length) 0 w
  rw [List.drop_zero, List.take_of_length_le (Nat.le_add_left _ _)] at hall
  refine ⟨hooks, ?_, hall, ?_⟩
  · rw [Does, ha]
    exact hdoes
  · rw [ha]
    exact honly

/-! ### Calls into the script -/

theorem follows_skipCall (shown : String) : (skipCall shown).Follows :=
  follows_log _ _ _ _

theorem follows_lookUp (hh : host.Follows) (home : Nat) (name : Datum) :
    (lookUp host home name).Follows := by
  have index : ∀ k, Follows (do
      let v ← evaluate host home ((← siteOf home).context.index (← globalsOf home) k)
      toHost home v) := fun k =>
    (follows_siteOf _).bind fun _ => (follows_globalsOf _).bind fun _ =>
      (follows_evaluate hh _ _).bind fun _ => follows_toHost _ _
  unfold lookUp
  split
  · exact follows_getGlobal hh _ _
  · split
    · exact (follows_pure _).bind index
    · exact (follows_toScript _ _).bind index

theorem follows_callFound (hh : host.Follows) (home : Nat) (shown : String) (f : Datum)
    (args : List Datum) : (callFound host home shown f args).Follows := by
  refine (follows_isCallable f).bind fun b => .ite ?_ (follows_skipCall _)
  refine (follows_callWith hh _ _ _).attempt.bind fun r => ?_
  cases r with
  | ok _ => exact follows_pure _
  | error fault => exact follows_report hh _ _

theorem follows_callFunction (hh : host.Follows) (name : Datum) (args : List Datum) :
    (callFunction host name args).Follows := by
  refine follows_get.bind fun w => ?_
  split
  · exact follows_skipCall _
  · exact (follows_lookUp hh _ _).bind fun f => follows_callFound hh _ _ _ _

/-- A call never fails once it is known what is to be called. -/
theorem ends_callFound (home : Nat) (shown : String) (f : Datum) (args : List Datum) (w : World) :
    (callFound host home shown f args).Ends w := by
  have hc : (isCallable f).Ends w := by
    unfold isCallable
    split <;> rfl
  obtain ⟨b, hb⟩ := ends_iff.1 hc
  refine ends_bind_iff.2 ⟨b, hb, ?_⟩
  split
  · unfold Ends
    rw [outcome_attempt_bind]
    split
    · rfl
    · exact ends_report _ _ _ _
  · rfl

/-- The world in which a script is asked for the global that it is to be told by. -/
def asked (name : String) (w : World) : World :=
  (record (.tell w.session.environment name)).after w

/-- What a script is to be told by can be looked up. -/
def CanAsk (host : Responder) (name : String) (w : World) : Prop :=
  match w.session.environment with
  | some home => (lookUp host home (.text name)).Ends (asked name w)
  | none => True

theorem ends_tell_iff (name : String) (w : World) :
    (tell host name).Ends w ↔ CanAsk host name w := by
  have he : (tell host name).Ends w ↔ (callFunction host (.text name) []).Ends (asked name w) := by
    unfold tell Ends
    rw [outcome_get_bind]
    rfl
  have hs : (asked name w).session.environment = w.session.environment := rfl
  rw [he, CanAsk, callFunction]
  unfold Ends
  rw [outcome_get_bind, hs]
  cases w.session.environment with
  | none => exact iff_of_true rfl trivial
  | some home =>
    constructor
    · intro h
      obtain ⟨f, hf, _⟩ := ends_bind_iff.1 h
      exact ends_iff.2 ⟨f, hf⟩
    · intro h
      obtain ⟨f, hf⟩ := ends_iff.1 h
      exact ends_bind_iff.2 ⟨f, hf, ends_callFound _ _ _ _ _⟩

theorem does_tell (hh : host.Follows) (name : String) (w : World) :
    (tell host name).Does w [.tell w.session.environment name] := by
  have first : (record (.tell w.session.environment name)).Does w
      [.tell w.session.environment name] := does_record w rfl rfl rfl
  unfold tell
  rw [Does, after_get_bind]
  exact first.bind_of_ok rfl ((follows_callFunction hh _ _).does _)

/-! ### Ending subscriptions -/

theorem ends_endSubscriptions_iff (w : World) :
    (endSubscriptions host).Ends w ↔ (unsubscribeAll host).Ends ((record .teardown).after w) := by
  constructor
  · intro h
    obtain ⟨_, _, h⟩ := ends_bind_iff.1 h
    obtain ⟨faults, hf, _⟩ := ends_bind_iff.1 h
    exact ends_iff.2 ⟨faults, hf⟩
  · intro h
    obtain ⟨faults, hf⟩ := ends_iff.1 h
    refine ends_bind_iff.2 ⟨(), rfl, ends_bind_iff.2 ⟨faults, hf, ?_⟩⟩
    exact ends_forM (fun f w => ends_report host f .error w) _ _

theorem begins_endSubscriptions (hh : host.Follows) (w : World) :
    (endSubscriptions host).Begins w .teardown [] := by
  have first : (record .teardown).Begins w .teardown [] := begins_record w rfl rfl trivial
  refine first.bind_of_ok rfl (Follows.does ?_ _)
  exact (follows_unsubscribeAll hh).bind fun faults =>
    follows_forM (fun f => follows_report hh f .error) faults

theorem does_endSubscriptions (hh : host.Follows) (w : World) :
    (endSubscriptions host).Does w [.teardown] :=
  (begins_endSubscriptions hh w).leads

/-- Once all subscriptions have ended they are forgotten. -/
theorem forget_mem_deeds (hh : host.Follows) {w : World} (he : (endSubscriptions host).Ends w) :
    .forget ∈ (endSubscriptions host).deeds w := by
  have first : (record .teardown).Does w [.teardown] := does_record w rfl rfl trivial
  have hend := (ends_endSubscriptions_iff w).1 he
  obtain ⟨faults, hf⟩ := ends_iff.1 hend
  let w₁ := (record .teardown).after w
  let reports : List Fault → Op PUnit := fun faults => faults.forM fun f => report host f .error
  have hun := (follows_unsubscribeAll hh).does w₁
  have hreports : (reports faults).Does ((unsubscribeAll host).after w₁) [] :=
    (follows_forM (fun f => follows_report hh f .error) faults).does _
  have hrest := hun.bind_of_ok (k := reports) hf hreports
  have hd : (endSubscriptions host).deeds w = (record .teardown).deeds w ++
      ((unsubscribeAll host).deeds w₁ ++ (reports faults).deeds ((unsubscribeAll host).after w₁)) :=
    (deeds_bind rfl first hrest).trans (congrArg _ (deeds_bind (k := reports) hf hun hreports))
  obtain ⟨ds, hl, hforget⟩ := exists_leads_unsubscribeAll hh w₁
  obtain ⟨_, es, hes⟩ := hforget hend
  have hu : (unsubscribeAll host).deeds w₁ = es ++ [.forget] := hl.deeds_eq.symm.trans hes
  rw [hd, hu]
  simp

/-! ### Making functions -/

theorem ends_createFunction (host : Responder) (ident : String) (make : FunctionFactory)
    (w : World) : (createFunction host ident make).Ends w := by
  refine ends_bind_iff.2 ⟨(), rfl, ?_⟩
  unfold Ends
  rw [outcome_attempt_bind]
  cases (perform host make).outcome _ <;> rfl

theorem does_createFunction (hh : host.Follows) (ident : String) (make : FunctionFactory)
    (w : World) : (createFunction host ident make).Does w [.make ident] := by
  have first : (record (.make ident)).Does w [.make ident] := does_record w rfl rfl trivial
  refine first.bind_of_ok rfl (Follows.does ?_ _)
  refine (follows_perform hh make).attempt.bind fun r => ?_
  cases r with
  | ok d => exact follows_pure _
  | error f => exact (follows_log _ _ _ _).bind fun _ => follows_pure _

/-- Functions are made in order; all of them, unless that breaks off. -/
theorem does_createFrom (hh : host.Follows) (count : Nat)
    (offers : List (String × FunctionFactory)) (w : World) :
    ∃ idents, (createFrom host count offers).Does w (idents.map .make) ∧
      idents <+: offers.map (·.1) ∧
      ((createFrom host count offers).Ends w → idents = offers.map (·.1)) := by
  induction offers generalizing w with
  | nil => exact ⟨[], (follows_pure _).does w, List.prefix_rfl, fun _ => rfl⟩
  | cons offer offers ih =>
    obtain ⟨ident, make⟩ := offer
    have hfirst := does_createFunction hh ident make w
    obtain ⟨made, hm⟩ := ends_iff.1 (ends_createFunction host ident make w)
    let w₁ := (createFunction host ident make).after w
    by_cases hc : w₁.catalog.functions.entries.length = count
    · obtain ⟨idents, hrest, hpre, hall⟩ := ih w₁
      refine ⟨ident :: idents, hfirst.bind_of_ok hm ?_, ?_, ?_⟩
      · rw [Does, after_get_bind, hc, checkCount, if_pos rfl, pure_bind, after_bind]
        cases (createFrom host count offers).outcome w₁ <;> exact hrest
      · rw [List.map_cons, List.cons_prefix_cons]
        exact ⟨rfl, hpre⟩
      · intro he
        rw [createFrom, Ends, outcome_bind_of_ok hm, outcome_get_bind, hc, checkCount, if_pos rfl,
          pure_bind] at he
        obtain ⟨more, hmore, _⟩ := ends_bind_iff.1 he
        rw [List.map_cons, hall (ends_iff.2 ⟨more, hmore⟩)]
    · refine ⟨[ident], hfirst.bind_of_ok hm ?_, ?_, ?_⟩
      · rw [Does, after_get_bind, checkCount, if_neg hc]
        exact ⟨[], .refl w₁⟩
      · exact List.cons_prefix_cons.2 ⟨rfl, List.nil_prefix⟩
      · intro he
        rw [createFrom, Ends, outcome_bind_of_ok hm, outcome_get_bind, checkCount, if_neg hc] at he
        exact absurd he Bool.false_ne_true

theorem does_createFunctions (hh : host.Follows) (w : World) :
    ∃ idents, (createFunctions host).Does w (idents.map .make) ∧
      idents <+: w.catalog.functions.names ∧
      ((createFunctions host).Ends w → idents = w.catalog.functions.names) :=
  does_createFrom hh w.catalog.functions.entries.length w.catalog.functions.entries w

/-! ### Building an environment -/

theorem follows_openHome (hh : host.Follows) : (openHome host).Follows := by
  refine follows_get.bind fun w => (follows_ofExcept _).bind fun keep => ?_
  refine (follows_openEnvironment _ _).bind fun home => ?_
  exact (follows_discover hh).discard.bind fun _ => follows_pure _

theorem follows_furnish (hh : host.Follows) (home : Nat) (functions : List FunctionDescriptor) :
    (furnish host home functions).Follows := by
  refine (follows_installAll hh _ _).bind fun installed => (follows_newObject _).bind fun listen => ?_
  refine (follows_setGlobal hh _ _ _).bind fun _ => follows_get.bind fun w => ?_
  exact follows_log _ _ _ _

theorem home_of_openHome (hh : host.Follows) {w : World} {home : Nat}
    (h : (openHome host).outcome w = .ok home) :
    home = w.homes.size ∧ home < ((openHome host).after w).homes.size := by
  unfold openHome at h ⊢
  rw [outcome_get_bind] at h
  rw [after_get_bind]
  obtain ⟨keep, _, h, ha⟩ := exists_of_bind_ok h
  obtain ⟨opened, ho, h, ha'⟩ := exists_of_bind_ok h
  obtain ⟨_, _, h, ha''⟩ := exists_of_bind_ok h
  rw [after_ofExcept] at ho h ha ha' ha''
  obtain ⟨hopened, hlt⟩ := outcome_openEnvironment keep true w
  have hsame : w.homes.size = opened := Except.ok.inj (hopened.symm.trans ho)
  have hhome : opened = home := Except.ok.inj h
  have hgrown := ((follows_discover hh).discard.does ((openEnvironment keep true).after w)).grown
  rw [ha, ha', ha'', ← hhome, ← hsame]
  exact ⟨rfl, Nat.lt_of_lt_of_le hlt hgrown.homes⟩

/-- An environment is built with a function for each offer. -/
theorem does_buildEnvironment (hh : host.Follows) (w : World) :
    ∃ idents, (buildEnvironment host).Does w (idents.map .make) ∧
      idents <+: ((buildEnvironment host).after w).catalog.functions.names ∧
      ((buildEnvironment host).Ends w → w.catalog.functions.names <+: idents) := by
  have hfirst := follows_openHome hh w
  cases hp : (openHome host).outcome w with
  | error f =>
    refine ⟨[], Does.bind_of_error hp hfirst, List.nil_prefix, fun he => ?_⟩
    rw [buildEnvironment, Ends, outcome_bind_of_error hp] at he
    exact absurd he Bool.false_ne_true
  | ok home =>
    let w₁ := (openHome host).after w
    obtain ⟨idents, hmake, hpre, hall⟩ := does_createFunctions hh w₁
    let rest : List FunctionDescriptor → Op Nat := fun functions => do
      furnish host home functions
      return home
    have hrest : (createFunctions host >>= rest).Does w₁ (idents.map .make) := by
      cases hc : (createFunctions host).outcome w₁ with
      | error f => exact Does.bind_of_error hc hmake
      | ok functions =>
        have hf : (rest functions).Follows :=
          (follows_furnish hh home functions).bind fun _ => follows_pure home
        simpa using hmake.bind_of_ok (k := rest) hc (hf.does _)
    have hdoes : (buildEnvironment host).Does w (idents.map .make) :=
      Does.bind_of_ok hp hfirst hrest
    refine ⟨idents, hdoes, ?_, fun he => ?_⟩
    · have ha : (buildEnvironment host).after w = _ := after_bind_of_ok hp _
      rw [ha]
      exact hpre.trans hrest.grown.names
    · obtain ⟨home', hp', he⟩ := ends_bind_iff.1 he
      obtain ⟨functions, hc, _⟩ := ends_bind_iff.1 he
      rw [hall (ends_iff.2 ⟨functions, hc⟩)]
      exact hfirst.choose_spec.grown.names

/-- The environment that is built is new. -/
theorem home_of_buildEnvironment (hh : host.Follows) {w : World} {home : Nat}
    (h : (buildEnvironment host).outcome w = .ok home) :
    home = w.homes.size ∧ home < ((buildEnvironment host).after w).homes.size := by
  obtain ⟨opened, ho, h, ha⟩ := exists_of_bind_ok h
  obtain ⟨functions, hc, h, ha'⟩ := exists_of_bind_ok h
  obtain ⟨_, _, h, ha''⟩ := exists_of_bind_ok h
  have hhome : opened = home := Except.ok.inj h
  obtain ⟨hnew, hlt⟩ := home_of_openHome hh ho
  obtain ⟨idents, hmake, _, _⟩ := does_createFunctions hh ((openHome host).after w)
  have hgrown := hmake.grown.trans ((follows_furnish hh opened functions).does _).grown
  rw [← hhome]
  refine ⟨hnew, ?_⟩
  rw [buildEnvironment, ha, ha', ha'']
  exact Nat.lt_of_lt_of_le hlt hgrown.homes

end

end ScriptHost.Op
