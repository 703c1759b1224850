import ScriptHost.Proofs.Alike

/-!
# Operations without deeds of their own

Most operations do nothing to the session by themselves: what they leave in the history are whole
blocks, by the foreign code they run. `Follows` says so of an operation from every world, and is
kept by all ways to put operations together.
-/
namespace ScriptHost

open World

variable {α β : Type}

/-- An operation has no deeds of its own. -/
def Op.Follows (m : Op α) : Prop :=
  ∀ w, ∃ ds, Leads w [] ds (m.after w)

/-- Answering has no deeds of its own, whatever is asked. -/
def Responder.Follows (host : Responder) : Prop :=
  ∀ q, (host q).Follows

namespace Op

/-- A world stays tidy. -/
theorem Follows.tidy {m : Op α} (hm : m.Follows) {w : World} (ht : w.Tidy) : (m.after w).Tidy := by
  obtain ⟨ds, h⟩ := hm w
  exact (h.links ht).tidy

theorem follows_pure (a : α) : (pure a : Op α).Follows :=
  fun w => ⟨[], .refl w⟩

theorem follows_throw (f : Fault) : (throw f : Op α).Follows :=
  fun w => ⟨[], .refl w⟩

theorem follows_get : (get : Op World).Follows :=
  fun w => ⟨[], .refl w⟩

theorem follows_ofExcept (x : Except Fault α) : (ofExcept x : Op α).Follows := by
  cases x with
  | ok a => exact follows_pure a
  | error f => exact follows_throw f

theorem follows_modify {f : World → World} (h : ∀ w, Still w (f w)) :
    (modify f : Op Unit).Follows :=
  fun w => ⟨[], (h w).leads⟩

theorem follows_modifyGet {f : World → α × World} (h : ∀ w, Still w (f w).2) :
    (modifyGet f : Op α).Follows :=
  fun w => ⟨[], (h w).leads⟩

theorem Follows.bind {m : Op α} {k : α → Op β} (hm : m.Follows) (hk : ∀ a, (k a).Follows) :
    (m >>= k).Follows := by
  intro w
  obtain ⟨ds, h⟩ := hm w
  rw [after_bind]
  cases m.outcome w with
  | error f => exact ⟨ds, h⟩
  | ok a =>
    obtain ⟨es, h'⟩ := hk a (m.after w)
    exact ⟨ds ++ es, h.trans h'⟩

theorem Follows.map {m : Op α} (hm : m.Follows) (f : α → β) : (f <$> m).Follows := by
  rw [map_eq_pure_bind]
  exact hm.bind fun a => follows_pure (f a)

theorem Follows.discard {m : Op α} (hm : m.Follows) : (Functor.discard m).Follows := by
  have h : Functor.discard m = (fun _ => PUnit.unit) <$> m := rfl
  rw [h]
  exact hm.map _

theorem Follows.attempt {m : Op α} (hm : m.Follows) : (Op.attempt m).Follows :=
  hm

theorem Follows.ite {c : Prop} [Decidable c] {m m' : Op α} (hm : m.Follows) (hm' : m'.Follows) :
    (if c then m else m').Follows := by
  split
  · exact hm
  · exact hm'

theorem follows_forM {f : α → Op PUnit} (hf : ∀ a, (f a).Follows) (xs : List α) :
    (xs.forM f).Follows := by
  induction xs with
  | nil => exact follows_pure _
  | cons a xs ih => exact (hf a).bind fun _ => ih

theorem follows_mapM {f : α → Op β} (hf : ∀ a, (f a).Follows) (xs : List α) :
    (xs.mapM f).Follows := by
  induction xs with
  | nil => exact follows_pure _
  | cons a xs ih =>
    rw [List.mapM_cons]
    exact (hf a).bind fun _ => ih.bind fun _ => follows_pure _

/-! ### Operations that are alike -/

/-- The same world twice, with no deeds of its own after the one where a stretch began. -/
def Trail (base : World) : World → World → Prop :=
  Only fun w => ∃ ds, Leads base [] ds w

theorem bond_trail (base : World) : Bond (Trail base) :=
  Invariant.bond
    { apart := fun ⟨_, h⟩ hv => ⟨_, h.trans hv.toStill.leads⟩
      log := fun {w} e _ ⟨_, h⟩ =>
        have hs : Still w { w with log := w.log.push e } :=
          ⟨.of_eq rfl rfl rfl rfl rfl, rfl, rfl, rfl, rfl⟩
        ⟨_, h.trans hs.leads⟩ }

theorem restless_trail (base : World) : Restless (Trail base) :=
  Timeless.restless
    { clock := fun {w} f ⟨_, h⟩ =>
        have hs : Still w { w with application := f w.application } :=
          ⟨.of_eq rfl rfl rfl rfl rfl, rfl, rfl, rfl, rfl⟩
        ⟨_, h.trans hs.leads⟩
      queue := fun {w} f ⟨_, h⟩ =>
        have hs : Still w { w with pending := f w.pending } :=
          ⟨.of_eq rfl rfl rfl rfl rfl, rfl, rfl, rfl, rfl⟩
        ⟨_, h.trans hs.leads⟩ }

/-- An operation has no deeds of its own iff it is alike to itself wherever the stretch began. -/
theorem follows_iff_alike {m : Op α} : m.Follows ↔ ∀ base, Alike (Trail base) m m := by
  constructor
  · rintro hm base w _ ⟨rfl, ds, h⟩
    obtain ⟨es, h'⟩ := hm w
    exact ⟨rfl, rfl, _, h.trans h'⟩
  · intro h w
    exact (h w w w ⟨rfl, [], .refl w⟩).2.2

theorem follows_of_alike {m : Op α} (h : ∀ {R}, Bond R → Alike R m m) : m.Follows :=
  follows_iff_alike.2 fun base => h (bond_trail base)

end Op

namespace Responder

variable {host : Responder}

theorem Follows.alike (hh : host.Follows) (base : World) : host.Alike (Op.Trail base) host :=
  fun q => Op.follows_iff_alike.1 (hh q) base

/-- What is alike to itself for every bond has no deeds of its own if the answers have none. -/
theorem Follows.follows_of_alike (hh : host.Follows) {m : Op α}
    (h : ∀ {R}, Bond R → host.Alike R host → Op.Alike R m m) : m.Follows :=
  Op.follows_iff_alike.2 fun base => h (Op.bond_trail base) (hh.alike base)

end Responder

namespace Op

theorem follows_perform {host : Responder} (hh : host.Follows) (p : Program α) :
    (perform host p).Follows :=
  hh.follows_of_alike fun _ hh => alike_perform hh p

/-! ### Elementary operations -/

theorem follows_log (level : LogLevel) (logger text : String) (fault : Option Fault) :
    (log level logger text fault).Follows :=
  follows_modify fun _ => ⟨.of_eq rfl rfl rfl rfl rfl, rfl, rfl, rfl, rfl⟩

theorem follows_newObject (o : Object) : (newObject o).Follows :=
  follows_modifyGet fun _ => ⟨.of_eq rfl rfl rfl rfl rfl, rfl, rfl, rfl, rfl⟩

theorem follows_newEvent (e : EventDescriptor) : (newEvent e).Follows :=
  follows_modifyGet fun w => { events := by simp }

end Op

end ScriptHost
