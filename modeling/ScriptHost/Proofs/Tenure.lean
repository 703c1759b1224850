import ScriptHost.Proofs.Coherence

/-!
# Deeds in turn

A history in which everything has its turn (`InTurn`): no load and no unloading begins within a load
or where nothing is loaded, each load ends as it should, and scripts begin to listen only while
subscriptions have not begun to end. It is told by the tenure of the session, which each deed takes
on; where a host is asked for one thing after another and nothing is loaded in the end, the session is
vacant (`World.tenure_eq_vacant`).
-/
namespace ScriptHost

/-- How far the subscriptions of a script have come. -/
inductive Stage where
  /-- Scripts may begin to listen. -/
  | free
  /-- An event has begun to come in, and the books do not have it yet. -/
  | begun (event : Nat)
  /-- All subscriptions are about to end. -/
  | ending
  /-- Nothing is listened to any more. -/
  | over
  deriving DecidableEq, Repr

/-- In whose time things happen: in nobody's, or in that of a script, which is loaded already or is
not. -/
inductive Tenure where
  | vacant
  | held (settled : Bool) (stage : Stage)
  deriving DecidableEq, Repr

namespace Tenure

/-- What comes of a tenure if it is the turn of a deed. -/
def step : Tenure → Deed → Option Tenure
  | .vacant, .load _ => some (.held false .free)
  | .held false .free, .make _ | .held false .free, .occupy _ | .held false .free, .body _ _
  | .held false .free, .adopt _ => some (.held false .free)
  | .held false .free, .succeed | .held true .free, .unload => some (.held true .free)
  | .held settled .free, .hook _ _ | .held settled .free, .tell _ _ => some (.held settled .free)
  | .held settled .free, .attach event => some (.held settled (.begun event))
  | .held settled (.begun _), .listen _ => some (.held settled .free)
  | .held settled .free, .teardown | .held settled .ending, .detach _ =>
    some (.held settled .ending)
  | .held settled .ending, .forget => some (.held settled .over)
  | .held false .over, .fail | .held true .over, .vacate => some .vacant
  | _, _ => none

/-- What comes of a tenure if each deed comes in its turn. -/
def track (t : Tenure) (ds : List Deed) : Option Tenure :=
  ds.foldlM step t

/-- Whether a load is in progress. -/
def isBusy : Tenure → Bool
  | .held settled _ => !settled
  | .vacant => false

/-- Whether a script is loaded. -/
def isSettled : Tenure → Bool
  | .held settled _ => settled
  | .vacant => false

/-- Whether nothing can be listened to. -/
def isIdle : Tenure → Bool
  | .vacant | .held _ .over => true
  | _ => false

/-- The event that has begun to come in without the books. -/
def begun? : Tenure → Option Nat
  | .held _ (.begun event) => some event
  | _ => none

variable {t u : Tenure} {d : Deed} {ds es : List Deed}

@[simp] theorem track_nil (t : Tenure) : t.track [] = some t := rfl

@[simp] theorem track_cons (t : Tenure) (d : Deed) (ds : List Deed) :
    t.track (d :: ds) = (t.step d).bind (track · ds) := rfl

theorem track_append (t : Tenure) (ds es : List Deed) :
    t.track (ds ++ es) = (t.track ds).bind (track · es) :=
  List.foldlM_append ..

theorem track_cons_eq_some : t.track (d :: ds) = some u ↔
    ∃ v, t.step d = some v ∧ v.track ds = some u :=
  Option.bind_eq_some_iff

/-! ### What single deeds do -/

theorem busyStep_of_step (h : t.step d = some u) : busyStep t.isBusy d = u.isBusy ∧
    (d.isLoad = true → t.isBusy = false) ∧ d ≠ .abort := by
  revert h
  fun_cases step <;> rintro ⟨⟩ <;> exact ⟨rfl, by simp [Deed.isLoad, isBusy], nofun⟩

theorem loaded_of_step (h : t.step d = some u) {s : Holding} (hs : s.loaded = t.isSettled) :
    (s.step d).loaded = u.isSettled := by
  revert h hs
  fun_cases step <;> rintro ⟨⟩ hs <;> first | exact hs | rfl

theorem listening_of_step (h : t.step d = some u) {names : List String}
    (hn : t.isIdle = true → names = []) (hu : u.isIdle = true) :
    listeningStep names d = [] := by
  revert h
  fun_cases step <;> rintro ⟨⟩ <;>
    first | rfl | exact hn rfl | exact absurd hu Bool.false_ne_true

/-- Once an event has begun to come in, the books have to get it. -/
theorem step_of_begun {event : Nat} (ht : t.begun? = some event) (h : t.step d = some u) :
    (∃ name, d = .listen name) ∧ u.begun? = none := by
  revert h
  fun_cases step <;> rintro ⟨⟩ <;> first | exact ⟨⟨_, rfl⟩, rfl⟩ | cases ht

/-- The event that is not in the books is the one that has begun to come in. -/
theorem begun?_of_step_attach {event : Nat} (h : t.step (.attach event) = some u) :
    t.begun? = none ∧ u.begun? = some event := by
  generalize hd : Deed.attach event = d at h
  revert h
  fun_cases step <;> rintro ⟨⟩ <;> cases hd
  exact ⟨rfl, rfl⟩

/-- Where subscriptions are ending, there is nothing else to do. -/
theorem step_of_ending {settled : Bool} (h : step (.held settled .ending) d = some u) :
    (∃ event, d = .detach event) ∧ u = .held settled .ending ∨
      d = .forget ∧ u = .held settled .over := by
  generalize ht : held settled .ending = t at h
  revert h
  fun_cases step <;> rintro ⟨⟩ <;> cases ht
  · exact .inl ⟨⟨_, rfl⟩, rfl⟩
  · exact .inr ⟨rfl, rfl⟩

/-- Where they have ended, it is time for the script to go. -/
theorem step_of_over {settled : Bool} (h : step (.held settled .over) d = some u) :
    d.isQuiet = false ∧ d.isStart = false := by
  generalize ht : held settled .over = t at h
  revert h
  fun_cases step <;> rintro ⟨⟩ <;> cases ht <;> exact ⟨rfl, rfl⟩

/-- Subscriptions cease only where they are all ending. -/
theorem eq_ending_of_step {event : Nat} (h : t.step d = some u)
    (hd : d = .detach event ∨ d = .forget) : ∃ settled, t = .held settled .ending := by
  revert h
  fun_cases step <;> rintro ⟨⟩ <;> first | exact ⟨_, rfl⟩ | rcases hd with hd | hd <;> cases hd

/-! ### Runs -/

theorem unnested_of_track (h : t.track ds = some u) :
    Unnested t.isBusy ds ∧ ds.foldl busyStep t.isBusy = u.isBusy := by
  induction ds generalizing t with
  | nil =>
    cases h
    exact ⟨trivial, rfl⟩
  | cons d ds ih =>
    obtain ⟨v, hv, h⟩ := track_cons_eq_some.1 h
    obtain ⟨hstep, hload, habort⟩ := busyStep_of_step hv
    obtain ⟨hrest, hlast⟩ := ih h
    refine ⟨⟨hload, habort, hstep ▸ hrest⟩, ?_⟩
    rw [List.foldl_cons, hstep, hlast]

theorem loaded_of_track (h : t.track ds = some u) {s : Holding} (hs : s.loaded = t.isSettled) :
    (s.replay ds).loaded = u.isSettled := by
  induction ds generalizing t s with
  | nil =>
    cases h
    exact hs
  | cons d ds ih =>
    obtain ⟨v, hv, h⟩ := track_cons_eq_some.1 h
    exact ih h (loaded_of_step hv hs)

theorem listening_of_track (h : t.track ds = some u) {names : List String}
    (hn : t.isIdle = true → names = []) (hu : u.isIdle = true) : listening names ds = [] := by
  induction ds generalizing t names with
  | nil =>
    cases h
    exact hn hu
  | cons d ds ih =>
    obtain ⟨v, hv, h⟩ := track_cons_eq_some.1 h
    exact ih h (listening_of_step hv hn)

/-- Where all subscriptions have ended, whole blocks have to wait. -/
theorem eq_nil_of_over (hw : Woven [] ds) {settled : Bool}
    (h : track (.held settled .over) ds = some u) : ds = [] := by
  cases hw with
  | nil => rfl
  | quiet hd _ =>
    obtain ⟨v, hv, -⟩ := track_cons_eq_some.1 h
    exact absurd ((step_of_over hv).1.symm.trans hd) Bool.false_ne_true
  | nested hb _ _ =>
    obtain ⟨v, hv, -⟩ := track_cons_eq_some.1 h
    exact absurd ((step_of_over hv).2.symm.trans hb.isStart_head) Bool.false_ne_true

/-- While subscriptions are ending, others can but end some. -/
theorem eq_detach_of_ending (hw : Woven [] ds) {settled settled' : Bool}
    (h : track (.held settled .ending) ds = some (.held settled' .ending)) :
    ∀ d ∈ ds, ∃ event, d = .detach event := by
  induction ds with
  | nil => nofun
  | cons d ds ih =>
    obtain ⟨v, hv, h⟩ := track_cons_eq_some.1 h
    have hrest : Woven [] ds := by
      cases hw with
      | quiet _ hw => exact hw
      | nested hb _ _ =>
        have hd := hb.isStart_head
        rcases step_of_ending hv with ⟨⟨event, rfl⟩, -⟩ | ⟨rfl, -⟩ <;> cases hd
    rcases step_of_ending hv with ⟨hd, rfl⟩ | ⟨-, rfl⟩
    · exact List.forall_mem_cons.2 ⟨hd, ih hrest h⟩
    · rw [eq_nil_of_over hrest h] at h
      cases h

end Tenure

/-! ### Histories -/

/-- Everything has its turn. -/
def InTurn (ds : List Deed) : Prop :=
  (Tenure.vacant.track ds).isSome

instance (ds : List Deed) : Decidable (InTurn ds) :=
  inferInstanceAs (Decidable (_ = true))

namespace World

/-- In whose time a world is, if everything has had its turn. -/
def tenure (w : World) : Option Tenure :=
  Tenure.vacant.track w.history.toList

variable {w v : World} {t : Tenure} {d : Deed}

theorem tenure_of_push (h : v.history = w.history.push d) :
    v.tenure = w.tenure.bind (·.step d) := by
  rw [tenure, h, Array.toList_push, Tenure.track_append]
  refine congrArg _ (funext fun t => ?_)
  rw [Tenure.track_cons]
  cases t.step d <;> rfl

end World

namespace Op

/-- A host that is asked for one thing after another is back in nobody's time when nothing is loaded:
the session holds nothing, and nothing is listened to if nothing was at first. -/
theorem tenure_askAll (n : Nat) (qs : List Request) {w : World} (hw : w.Fresh)
    (hturn : InTurn ((askAll n qs).after w).history.toList)
    (hl : ((askAll n qs).after w).session.loaded = false) :
    ((askAll n qs).after w).tenure = some .vacant ∧
      ((askAll n qs).after w).session.holding = {} ∧
      (w.eventBooks.active.names = [] →
        ((askAll n qs).after w).eventBooks.active.names = []) := by
  obtain ⟨t, ht⟩ := Option.isSome_iff_exists.1 hturn
  obtain ⟨hu, hbusy⟩ := Tenure.unnested_of_track ht
  have hcoherent := (coherent_after_iff n qs w hw).2 hu
  have h := ((follows_askAll n qs).does w).leads
  have hd : ((askAll n qs).after w).history.toList = (askAll n qs).deeds w := by
    rw [h.history, hw.history]
    rfl
  rw [hd] at ht hu hbusy
  have hfits : Fits [] {} false [] := ⟨nofun, Holding.coherent_nothing _⟩
  have hfree := (h.woven.fits hfits hu (hw.holding ▸ h.admits)).of_nil.1
  have hsettled : (Holding.replay {} ((askAll n qs).deeds w)).loaded = t.isSettled :=
    Tenure.loaded_of_track ht rfl
  have hvacant : t = .vacant := by
    cases t with
    | vacant => rfl
    | held settled stage =>
      have hs : settled = false := by
        rw [← hw.holding, ← h.holding] at hsettled
        exact hsettled.symm.trans hl
      subst hs
      exact absurd (hfree.symm.trans hbusy) Bool.false_ne_true
  subst hvacant
  refine ⟨by rw [World.tenure, hd, ht], hcoherent.of_not_loaded hl, fun hn => ?_⟩
  rw [h.active, Tenure.listening_of_track ht (fun _ => hn) rfl]

end Op

end ScriptHost
