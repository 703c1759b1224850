import Mathlib.Data.List.Induction
import ScriptHost.World

/-!
# Histories

What histories can tell. The three fields of a session that say what is loaded follow from its
deeds, by `Holding.replay`, and so do the names scripts listen to, by `listening`. A history has the
shape of the calls behind it: a load or an unloading is a `Block` of deeds, with what others began
and ended meanwhile woven in as whole blocks.
-/
namespace ScriptHost

open Files (Path)

namespace Deed

/-- Whether a load or an unloading begins. -/
def isStart : Deed → Bool
  | load _ | unload => true
  | _ => false

/-- Whether a deed is only about subscriptions. -/
def isQuiet : Deed → Bool
  | listen _ | forget | attach _ | detach _ => true
  | _ => false

/-- Whether a deed is a step of a load or an unloading that makes no difference to what is held. -/
def isPlain : Deed → Bool
  | make _ | hook _ _ | tell _ _ | teardown => true
  | _ => false

/-- Whether a script is told that it is unloaded. -/
def isFarewell : Deed → Bool
  | tell _ name => name == "OnUnload"
  | _ => false

/-- Whether a deed is such a step of a load. -/
def isSteady (d : Deed) : Bool :=
  d.isPlain && !d.isFarewell

/-- Whether a deed can happen between the first and the last one of a load. -/
def isRising : Deed → Bool
  | occupy _ | body _ _ | adopt _ => true
  | d => d.isSteady

theorem isPlain_of_isSteady {d : Deed} (h : d.isSteady) : d.isPlain := by
  simp only [isSteady, Bool.and_eq_true] at h
  exact h.1

theorem isRising_of_isSteady {d : Deed} (h : d.isSteady) : d.isRising := by
  cases d <;> first | rfl | exact h

theorem isStart_of_isQuiet {d : Deed} (h : d.isQuiet) : d.isStart = false := by
  cases d <;> first | rfl | cases h

theorem isFarewell_of_isRising {d : Deed} (h : d.isRising) : d.isFarewell = false := by
  cases d with
  | tell home name => simpa [isRising, isSteady, isPlain] using h
  | _ => rfl

end Deed

/-! ### What is held -/

/-- What a session holds. -/
structure Holding where
  environment : Option Nat := none
  path : Option Path := none
  loaded : Bool := false
  deriving DecidableEq, Repr

/-- What a session holds at the moment. -/
def Session.holding (s : Session) : Holding :=
  ⟨s.environment, s.path, s.loaded⟩

namespace Holding

/-- What a deed leaves of what is held. -/
def step (s : Holding) : Deed → Holding
  | .occupy home => { s with environment := some home }
  | .adopt path => { s with path := some path }
  | .succeed => { s with loaded := true }
  | .fail => { s with environment := none, path := none }
  | .vacate => {}
  | _ => s

/-- What deeds leave of what is held. -/
def replay (s : Holding) (ds : List Deed) : Holding :=
  ds.foldl step s

/-- When a deed can happen. -/
def Admits (s : Holding) : Deed → Prop
  | .load _ => s.loaded = false
  | .unload => s.loaded = true
  | .body home _ => s.environment = some home
  | .tell home _ => s.environment = home
  | _ => True

/-- Each deed can happen after those before it. -/
def AdmitsAll : Holding → List Deed → Prop
  | _, [] => True
  | s, d :: ds => s.Admits d ∧ (s.step d).AdmitsAll ds

@[simp] theorem replay_nil (s : Holding) : s.replay [] = s := rfl

@[simp] theorem replay_cons (s : Holding) (d : Deed) (ds : List Deed) :
    s.replay (d :: ds) = (s.step d).replay ds := rfl

@[simp] theorem replay_append (s : Holding) (ds es : List Deed) :
    s.replay (ds ++ es) = (s.replay ds).replay es :=
  List.foldl_append

@[simp] theorem admitsAll_nil (s : Holding) : s.AdmitsAll [] := trivial

@[simp] theorem admitsAll_cons {s : Holding} {d : Deed} {ds : List Deed} :
    s.AdmitsAll (d :: ds) ↔ s.Admits d ∧ (s.step d).AdmitsAll ds :=
  Iff.rfl

@[simp] theorem admitsAll_append {s : Holding} {ds es : List Deed} :
    s.AdmitsAll (ds ++ es) ↔ s.AdmitsAll ds ∧ (s.replay ds).AdmitsAll es := by
  induction ds generalizing s with
  | nil => simp
  | cons d ds ih => simp [ih, and_assoc]

/-- Deeds about subscriptions and steps along the way leave what is held as it is. -/
theorem step_of_aside (s : Holding) {d : Deed} (h : d.isPlain ∨ d.isQuiet) : s.step d = s := by
  cases d <;> simp_all [step, Deed.isPlain, Deed.isQuiet]

theorem replay_of_aside (s : Holding) {ds : List Deed}
    (h : ∀ d ∈ ds, d.isPlain ∨ d.isQuiet) : s.replay ds = s := by
  induction ds generalizing s with
  | nil => rfl
  | cons d ds ih =>
    rw [replay_cons, step_of_aside s (h d (by simp))]
    exact ih s fun e he => h e (by simp [he])

theorem replay_of_isSteady (s : Holding) {ds : List Deed} (h : ∀ d ∈ ds, d.isSteady) :
    s.replay ds = s :=
  s.replay_of_aside fun d hd => .inl (Deed.isPlain_of_isSteady (h d hd))

/-- Deeds about subscriptions make no difference to what is held. -/
theorem replay_filter_quiet (s : Holding) (ds : List Deed) :
    s.replay (ds.filter (!·.isQuiet)) = s.replay ds := by
  induction ds generalizing s with
  | nil => rfl
  | cons d ds ih =>
    by_cases hd : d.isQuiet
    · rw [List.filter_cons_of_neg (by simp [hd]), ih, replay_cons, step_of_aside s (.inr hd)]
    · rw [List.filter_cons_of_pos (by simp [hd]), replay_cons, replay_cons, ih]

/-- Deeds about subscriptions can happen at any time. -/
theorem admitsAll_filter_quiet {s : Holding} {ds : List Deed} :
    s.AdmitsAll (ds.filter (!·.isQuiet)) ↔ s.AdmitsAll ds := by
  induction ds generalizing s with
  | nil => rfl
  | cons d ds ih =>
    by_cases hd : d.isQuiet
    · have ha : s.Admits d := by cases d <;> trivial
      rw [List.filter_cons_of_neg (by simp [hd]), ih, admitsAll_cons,
        step_of_aside s (.inr hd)]
      exact (and_iff_right ha).symm
    · rw [List.filter_cons_of_pos (by simp [hd]), admitsAll_cons, admitsAll_cons, ih]

theorem loaded_step_of_rising (s : Holding) {d : Deed} (h : d.isRising ∨ d.isQuiet) :
    (s.step d).loaded = s.loaded := by
  cases d with
  | succeed | vacate => rcases h with h | h <;> cases h
  | _ => rfl

/-- Between the first and the last deed of a load nothing becomes loaded or unloaded. -/
theorem loaded_replay_of_rising (s : Holding) {ds : List Deed}
    (h : ∀ d ∈ ds, d.isRising ∨ d.isQuiet) : (s.replay ds).loaded = s.loaded := by
  induction ds generalizing s with
  | nil => rfl
  | cons d ds ih =>
    rw [replay_cons, ih _ fun e he => h e (by simp [he]), s.loaded_step_of_rising (h d (by simp))]

end Holding

/-! ### What deeds have come to -/

/-- A deed has been done, and nothing has overturned it since. -/
def Stands (undoes : Deed → Bool) (d : Deed) (ds : List Deed) : Prop :=
  ∃ pre post, ds = pre ++ d :: post ∧ ∀ e ∈ post, undoes e = false

theorem Stands.mem {undoes : Deed → Bool} {d : Deed} {ds : List Deed} (h : Stands undoes d ds) :
    d ∈ ds := by
  obtain ⟨pre, post, rfl, _⟩ := h
  simp

theorem not_stands_nil {undoes : Deed → Bool} {d : Deed} : ¬ Stands undoes d [] := by
  exact fun h => List.not_mem_nil h.mem

theorem stands_concat {undoes : Deed → Bool} {d e : Deed} {ds : List Deed} :
    Stands undoes d (ds ++ [e]) ↔ e = d ∨ (undoes e = false ∧ Stands undoes d ds) := by
  constructor
  · rintro ⟨pre, post, h, hpost⟩
    rcases List.eq_nil_or_concat post with rfl | ⟨post, f, rfl⟩
    · obtain ⟨_, h⟩ := List.append_inj' h rfl
      exact .inl (List.cons.inj h).1
    · rw [List.concat_eq_append] at h hpost
      rw [← List.cons_append, ← List.append_assoc] at h
      obtain ⟨hds, he⟩ := List.append_inj' h rfl
      obtain ⟨rfl, _⟩ := List.cons.inj he
      exact .inr ⟨hpost _ (by simp), pre, post, hds, fun f hf => hpost f (by simp [hf])⟩
  · rintro (rfl | ⟨he, pre, post, rfl, hpost⟩)
    · exact ⟨ds, [], rfl, nofun⟩
    · refine ⟨pre, post ++ [e], by simp, fun f hf => ?_⟩
      rcases List.mem_append.1 hf with hf | hf
      · exact hpost f hf
      · rw [List.mem_singleton.1 hf]
        exact he

/-- Something is loaded iff a load has succeeded and nothing has been given up since. -/
theorem Holding.loaded_replay_iff {s : Holding} {ds : List Deed} :
    (s.replay ds).loaded = true ↔
      Stands (· == .vacate) .succeed ds ∨ (s.loaded = true ∧ .vacate ∉ ds) := by
  induction ds using List.reverseRecOn with
  | nil => simp [not_stands_nil]
  | append_singleton ds d ih =>
    rw [replay_append, stands_concat]
    cases d <;> simp [step, ih]

/-! ### What scripts listen to -/

/-- The names scripts listen to after a deed. -/
def listeningStep (names : List String) : Deed → List String
  | .listen name => if name ∈ names then names else names ++ [name]
  | .forget => []
  | _ => names

/-- The names scripts listen to after deeds. -/
def listening (names : List String) (ds : List Deed) : List String :=
  ds.foldl listeningStep names

@[simp] theorem listening_nil (names : List String) : listening names [] = names := rfl

@[simp] theorem listening_cons (names : List String) (d : Deed) (ds : List Deed) :
    listening names (d :: ds) = listening (listeningStep names d) ds := rfl

@[simp] theorem listening_append (names : List String) (ds es : List Deed) :
    listening names (ds ++ es) = listening (listening names ds) es :=
  List.foldl_append

theorem mem_listeningStep_listen {names : List String} {name other : String} :
    name ∈ listeningStep names (.listen other) ↔ other = name ∨ name ∈ names := by
  by_cases ho : other ∈ names
  · simp only [listeningStep, ho, if_true]
    refine ⟨.inr, ?_⟩
    rintro (rfl | hn)
    · exact ho
    · exact hn
  · simp [listeningStep, ho, or_comm, eq_comm]

/-- Scripts listen to what they have begun to listen to and what has not been forgotten since. -/
theorem mem_listening_iff {names : List String} {ds : List Deed} {name : String} :
    name ∈ listening names ds ↔
      Stands (· == .forget) (.listen name) ds ∨ (name ∈ names ∧ .forget ∉ ds) := by
  induction ds using List.reverseRecOn with
  | nil => simp [not_stands_nil]
  | append_singleton ds d ih =>
    rw [listening_append, stands_concat]
    cases d with
    | listen other => simp [mem_listeningStep_listen, ih, or_assoc]
    | _ => simp [listeningStep, ih]

/-- What scripts begin to listen to once all else is forgotten. -/
theorem listening_eq_nil {names : List String} {ds es : List Deed}
    (h : ∀ name, .listen name ∉ es) : listening names (ds ++ .forget :: es) = [] := by
  have hn : ∀ name, name ∉ listening [] es := fun name hm => by
    rcases mem_listening_iff.1 hm with hs | ⟨hs, -⟩
    · exact h name hs.mem
    · exact List.not_mem_nil hs
  rw [listening_append, listening_cons]
  exact List.eq_nil_iff_forall_not_mem.2 hn

end ScriptHost
